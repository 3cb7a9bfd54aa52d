import NvmeDem.Dem.World

/-!
# Requests on subsystems, ports and namespaces

Each request changes the store first and then looks for what it is about in the lists. What it does when that is not there
differs: some requests return an error and others return zero, and in both cases the store stays changed.
-/

namespace NvmeDem

open Jansson

/-! ## Subsystems -/

def delSubsys (w : World) (d : Daemon) (tgt nqn : String) : Except Fault Answer :=
  afterStore d (delJsonSubsys d.root tgt (some nqn)) (fun r =>
    match findTarget d.lists tgt with
    | none => .ok { ret := 0, resp := r.resp, dem := { d with root := r.root } }
    | some target =>
      match findSubsys target nqn with
      | none => .ok { ret := 0, resp := r.resp, dem := { d with root := r.root } }
      | some subsys =>
        let ret := sendTo w target (.delSubsys target.ptr nqn)
        let lists := d.lists.onTarget tgt (fun t => { t with subsysList := t.subsysList.eraseP (fun s => s.nqn == nqn) })
        .ok { ret := ret
              resp := alertIf ret target r.resp
              dem :=
                { root := r.root
                  lists := (lists.notify (createEventHostListForSubsys lists.aenReqList subsys)).withLogs w } })

/-- A subsystem of a target that is not restricted has no hosts. -/
def configSubsys (subsys : Subsystem) : Subsystem := if subsys.isRestricted then subsys else { subsys with hostList := [] }

/-- The end of `setSubsys`: the target is told, and the hosts that may see the subsystem are notified. -/
def setSubsysEnd (w : World) (root : Json) (lists : Lists) (target : Target) (subsys : Subsystem) (resp : String) : Answer :=
  let ret := sendTo w target (.configSubsys target.ptr subsys.nqn)
  { ret := ret
    resp := alertIf ret target resp
    dem := { root := root, lists := (lists.notify (createEventHostListForSubsys lists.aenReqList subsys)).withLogs w } }

/-- A subsystem takes the NQN and the access that the request gives, each if it gives it. -/
def Subsystem.updateTo (out : SubsysArg) (subsys : Subsystem) : Subsystem :=
  { subsys with
    nqn := if out.nqn = "" then subsys.nqn else out.nqn
    access := if out.access = undefinedAccess then subsys.access else out.access }

def setSubsys (J : JsonLib) (w : World) (d : Daemon) (tgt : String) (nqn : Option String) (data : String) :
    Except Fault Answer :=
  afterStore d (setJsonSubsys J d.root tgt nqn data { nqn := "", access := undefinedAccess }) (fun r =>
    match findTarget d.lists tgt with
    | none => .ok { ret := -enoent, resp := r.resp, dem := { d with root := r.root } }
    | some target =>
      match nqn with
      | none =>
        let subsys : Subsystem := { nqn := r.out.nqn, access := r.out.access }
        let lists := d.lists.onTarget tgt (fun t => { t with subsysList := t.subsysList ++ [subsys] })
        .ok (setSubsysEnd w r.root lists target subsys r.resp)
      | some nqn =>
        match findSubsys target nqn with
        | none => .ok { ret := -enoent, resp := r.resp, dem := { d with root := r.root } }
        | some subsys =>
          let lists := d.lists.onTarget tgt (fun t => t.onSubsys nqn (fun s => configSubsys (s.updateTo r.out)))
          .ok (setSubsysEnd w r.root lists target (configSubsys (subsys.updateTo r.out)) r.resp))

/-! ## Ports -/

def delPortid (w : World) (d : Daemon) (tgt : String) (id : Int) : Except Fault Answer :=
  afterStore d (.ok (delJsonPortid d.root tgt id)) (fun r =>
    match findTarget d.lists tgt with
    | none => .ok { ret := 0, resp := r.resp, dem := { d with root := r.root } }
    | some target =>
      match findPortid target id with
      | none => .ok { ret := 0, resp := r.resp, dem := { d with root := r.root } }
      | some portid =>
        let ret := sendTo w target (.delPortid target.ptr id)
        let target' :=
          { target with
            subsysList := target.subsysList.map (fun s =>
              { s with logpageList := s.logpageList.filter (fun p => p.portid != portid.ptr) })
            portidList := target.portidList.eraseP (fun p => p.portid == id) }
        let lists := d.lists.onTarget tgt (fun _ => target')
        .ok { ret := ret
              resp := alertIf ret target r.resp
              dem :=
                { root := r.root
                  lists := lists.notify (createEventHostListForTarget lists.aenReqList target') } })

/-- A port takes the fields of the request. -/
def Portid.updateTo (out : PortArg) (portid : Portid) : Portid :=
  { portid with
    portid := out.portid, type := out.type, family := out.family, address := out.address, portNum := out.portNum }

/-- The port with an identifier is changed, or added to the target. -/
def Target.setPortid (w : World) (id : Int) (out : PortArg) (target : Target) : Target :=
  if (findPortid target id).isSome then
    { target with portidList := Keyed.modifyFirst (fun p => p.portid == id) (Portid.updateTo out) target.portidList }
  else { target with portidList := target.portidList ++ [Portid.updateTo out { ptr := w.addr }] }

def setPortid (J : JsonLib) (w : World) (d : Daemon) (tgt : String) (id : Int) (data : String) : Except Fault Answer :=
  afterStore d (setJsonPortid J d.root tgt id data w.port) (fun r =>
    let id := if id = 0 then r.out.portid else id
    match findTarget d.lists tgt with
    | none => .ok { ret := -enoent, resp := targetErr, dem := { d with root := r.root } }
    | some target =>
      let ret := sendTo w target (.configPortid target.ptr r.out.portid)
      let lists := d.lists.onTarget tgt (Target.setPortid w id r.out)
      .ok { ret := ret
            resp := alertIf ret target r.resp
            dem :=
              { root := r.root
                lists := (lists.notify (createEventHostListForTarget lists.aenReqList target)).withLogs w } })

/-! ## Namespaces -/

def nsdevErr : String := " - invalid ns device"

/-- The namespace with an identifier is changed, or added to the subsystem. -/
def Subsystem.setNs (ns : Ns) (subsys : Subsystem) : Subsystem :=
  if subsys.nsList.any (fun n => n.nsid == ns.nsid) then
    { subsys with nsList := Keyed.modifyFirst (fun n => n.nsid == ns.nsid) (fun _ => ns) subsys.nsList }
  else { subsys with nsList := subsys.nsList ++ [ns] }

/-- The namespace that a request asks for on a target: a managed target looks at the device alone of the null block device. -/
def requestedNs (target : Target) (out : NsArg) : Ns :=
  { nsid := out.nsid
    devid := out.devid
    devns := if target.mgmtMode ≠ .localMgmt ∧ out.devid = nullbDevid then 0 else out.devns }

/-- Whether a target has the device of a namespace; a target that is managed locally is not asked. -/
def hasNsdev (target : Target) (ns : Ns) : Bool :=
  decide (target.mgmtMode = .localMgmt) ||
    target.deviceList.any (fun dev => dev.nsdev == ns.devid && dev.nsid == ns.devns)

def setNs (J : JsonLib) (w : World) (d : Daemon) (tgt nqn data : String) : Except Fault Answer :=
  afterStore d (.ok (setJsonNs J d.root tgt nqn data w.ns)) (fun r =>
    match findTarget d.lists tgt with
    | none => .ok { ret := 0, resp := r.resp, dem := { d with root := r.root } }
    | some target =>
      let ns := requestedNs target r.out
      if hasNsdev target ns then
        match findSubsys target nqn with
        | none => .ok { ret := 0, resp := r.resp, dem := { d with root := r.root } }
        | some _ =>
          let ret := sendTo w target (.setNs target.ptr nqn ns.nsid)
          .ok { ret := ret
                resp := alertIf ret target r.resp
                dem := { root := r.root, lists := d.lists.onTarget tgt (fun t => t.onSubsys nqn (Subsystem.setNs ns)) } }
      else .ok { ret := -enoent, resp := nsdevErr, dem := { d with root := r.root } })

def delNs (w : World) (d : Daemon) (tgt nqn : String) (nsid : Int) : Except Fault Answer :=
  afterStore d (.ok (delJsonNs d.root tgt nqn nsid)) (fun r =>
    match findTarget d.lists tgt with
    | none => .ok { ret := 0, resp := r.resp, dem := { d with root := r.root } }
    | some target =>
      match findSubsys target nqn with
      | none => .ok { ret := 0, resp := r.resp, dem := { d with root := r.root } }
      | some subsys =>
        if subsys.nsList.any (fun n => n.nsid == nsid) then
          let ret := sendTo w target (.delNs target.ptr nqn nsid)
          .ok { ret := ret
                resp := alertIf ret target r.resp
                dem :=
                  { root := r.root
                    lists := d.lists.onTarget tgt (fun t => t.onSubsys nqn (fun s =>
                      { s with nsList := s.nsList.eraseP (fun n => n.nsid == nsid) })) } }
        else .ok { ret := 0, resp := r.resp, dem := { d with root := r.root } })

end NvmeDem
