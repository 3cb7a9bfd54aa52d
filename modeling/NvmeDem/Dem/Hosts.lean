import NvmeDem.Dem.World

/-!
# Requests on hosts

A host of the store stands a second time in the lists: as a record of each subsystem that allows it, and as a link of each group
it is in. A request on a host walks the records; it never looks at the links.
-/

namespace NvmeDem

open Jansson

/-! ## Adding and updating -/

def addHost (d : Daemon) (host : Option String) : Except Fault Answer :=
  afterStore d (addJsonHost d.root host) (fun r =>
    .ok { ret := 0, resp := r.resp, dem := { d with root := r.root } })

/-- The first record of a host in a subsystem takes the alias and the NQN of the update. -/
def Subsystem.updateHost (name : String) (out : HostOut) (subsys : Subsystem) : Subsystem :=
  { subsys with
    hostList := Keyed.modifyFirst (fun h => h.name == name) (fun _ => { name := out.newalias, nqn := out.nqn })
      subsys.hostList }

/-- The records of a host in all subsystems of all targets. -/
def Lists.updateHost (name : String) (out : HostOut) (lists : Lists) : Lists :=
  { lists with
    targetList := lists.targetList.map (fun target =>
      { target with subsysList := target.subsysList.map (Subsystem.updateHost name out) }) }

/-- The text after a subsystem was told of the NQN, which it is if the NQN changed. -/
def updateHostResp (w : World) (name : String) (out : HostOut) (target : Target) (resp : String) (subsys : Subsystem) :
    String :=
  match subsys.hostList.find? (fun h => h.name == name) with
  | none => resp
  | some host =>
    if host.nqn = out.nqn then resp
    else alertIf (sendTo w target (.linkHost target.ptr subsys.nqn out.nqn)) target resp

def updateHost (J : JsonLib) (w : World) (d : Daemon) (host : Option String) (data : String) : Except Fault Answer :=
  afterStore d (updateJsonHost J d.root host data w.host) (fun r =>
    let name := host.getD r.out.newalias
    .ok { ret := 0
          resp := d.lists.targetList.foldl (fun resp target =>
            target.subsysList.foldl (updateHostResp w name r.out target) resp) r.resp
          dem := { root := r.root, lists := (d.lists.updateHost name r.out).withLogs w } })

/-! ## Deleting -/

/-- The first record of a host leaves a subsystem, if the subsystem is restricted. -/
def Subsystem.delHost (name : String) (subsys : Subsystem) : Subsystem :=
  if subsys.isRestricted then { subsys with hostList := subsys.hostList.eraseP (fun h => h.name == name) } else subsys

def Lists.delHost (name : String) (lists : Lists) : Lists :=
  { lists with
    targetList := lists.targetList.map (fun target =>
      { target with subsysList := target.subsysList.map (Subsystem.delHost name) }) }

/-- The root after the mention of the host was taken from the access lists of the subsystems that it left. -/
def delHostAcls (name : String) (root : Json) (target : Target) : Json :=
  target.subsysList.foldl (fun root subsys =>
    if subsys.isRestricted && subsys.hostList.any (fun h => h.name == name) then
      (delJsonAcl root target.name subsys.nqn name).root
    else root) root

/-- The return value and the text after a target was told, which it is if it has a restricted subsystem. -/
def delHostRet (w : World) (hostnqn : String) (acc : Int × String) (target : Target) : Int × String :=
  if target.subsysList.any Subsystem.isRestricted then
    let ret := sendTo w target (.delHost target.ptr hostnqn)
    (ret, alertIf ret target acc.2)
  else (0, acc.2)

/-- What is returned is the result for the last target. -/
def delHost (w : World) (d : Daemon) (host : Option String) : Except Fault Answer :=
  afterStore d (delJsonHost d.root host w.host.nqn) (fun r =>
    let name := cStr host
    let (ret, resp) := d.lists.targetList.foldl (delHostRet w r.out) (0, r.resp)
    .ok { ret := ret
          resp := resp
          dem :=
            { root := d.lists.targetList.foldl (delHostAcls name) r.root
              lists := (d.lists.delHost name).withLogs w } })

/-! ## Access lists -/

/-- Link a host to a subsystem. A record that is on the list already is linked into it once more, which leaves a list that
cannot be walked. -/
def linkHost (J : JsonLib) (w : World) (d : Daemon) (tgt subnqn : String) (host : Option String) (data : String) :
    Except Fault Answer :=
  afterStore d (setJsonAcl J d.root tgt subnqn host data w.host) (fun r =>
    match findTarget d.lists tgt with
    | none => .ok { ret := 0, resp := r.resp, dem := { d with root := r.root } }
    | some target =>
      match findSubsys target subnqn with
      | none => .ok { ret := 0, resp := r.resp, dem := { d with root := r.root } }
      | some subsys =>
        let name := host.getD r.out.newalias
        if subsys.hostList.any (fun h => h.name == name) then .error .relinked
        else
          let ret := sendTo w target (.linkHost target.ptr subnqn r.out.nqn)
          let lists := d.lists.onTarget tgt (fun t => t.onSubsys subnqn (fun s =>
            { s with hostList := s.hostList ++ [{ name := name, nqn := r.out.nqn }] }))
          .ok { ret := ret
                resp := alertIf ret target r.resp
                dem :=
                  { root := r.root
                    lists := (lists.notify (createEventHostListForHost lists.aenReqList r.out.nqn)).withLogs w } })

/-- Unlink a host from a subsystem. Whether the target could be told does not show in what is returned. -/
def unlinkHost (w : World) (d : Daemon) (tgt subnqn name : String) : Except Fault Answer :=
  afterStore d (.ok (delJsonAcl d.root tgt subnqn name)) (fun r =>
    match findTarget d.lists tgt with
    | none => .ok { ret := 0, resp := r.resp, dem := { d with root := r.root } }
    | some target =>
      match findSubsys target subnqn with
      | none => .ok { ret := 0, resp := r.resp, dem := { d with root := r.root } }
      | some subsys =>
        match subsys.hostList.find? (fun h => h.name == name) with
        | none => .ok { ret := 0, resp := r.resp, dem := { d with root := r.root } }
        | some host =>
          let target' := target.onSubsys subnqn (fun s =>
            { s with hostList := s.hostList.eraseP (fun h => h.name == name) })
          let lists := d.lists.onTarget tgt (fun _ => target')
          let resp :=
            if target'.subsysList.any (fun s => s.hostList.any (fun h => h.name == name)) then r.resp
            else alertIf (sendTo w target (.delHost target.ptr name)) target r.resp
          .ok { ret := 0
                resp := resp
                dem :=
                  { root := r.root
                    lists := (lists.notify (createEventHostListForHost lists.aenReqList host.nqn)).withLogs w } })

end NvmeDem
