import NvmeDem.Dem.Inventory
import NvmeDem.Dem.Address

/-!
# Requests on targets

A target that is added or updated is asked for its inventory; when it does not answer, the request fails with the store and the
lists already changed.
-/

namespace NvmeDem

open Jansson

/-! ## Adding and updating -/

def allocTarget (lists : Lists) (w : World) (name : String) : Lists :=
  { lists with targetList := lists.targetList ++ [{ ptr := w.addr, name := cCut maxAliasSize name }] }

/-- Whatever the store returns, a target that is not added exists. -/
def addTarget (w : World) (d : Daemon) (tgt : Option String) : Except Fault Answer :=
  match addJsonTarget d.root tgt with
  | .error f => .error f
  | .ok r =>
    if r.ret = 0 then
      match tgt with
      | none => .error .nullString
      | some name => .ok { ret := 0, resp := r.resp, dem := { root := r.root, lists := allocTarget d.lists w name } }
    else .ok { ret := -eexist, resp := r.resp, dem := { d with root := r.root } }

/-- A target without what either of its interfaces holds: they share their memory. -/
def Target.noInterface (target : Target) : Target :=
  { target with
    oob := { address := "", port := 0 }
    inb := { target.inb with type := "", family := "", address := "", portNum := 0 } }

/-- A target takes what an update gives: its alias, its mode and its refresh period, and the interface of its mode, whose memory
the other one loses. -/
def Target.updateTo (out : TargetArg) (target : Target) : Target :=
  let target := { target with name := out.name, mgmtMode := out.mgmtMode, refresh := out.refresh }
  match out.mgmtMode with
  | .outOfBandMgmt => { target.noInterface with oob := out.oob }
  | .inBandMgmt =>
    { target.noInterface with
      inb :=
        { target.inb with
          type := out.inb.type, family := out.inb.family, address := out.inb.address, portNum := out.inb.portNum } }
  | .localMgmt => target

/-- A target before anything is set in it. -/
def zeroTarget : TargetArg where
  name := ""
  refresh := 0
  mgmtMode := .localMgmt
  oob := { address := "", port := 0 }
  inb := { portid := 0, type := "", family := "", address := "", portNum := 0 }

/-- The end of `updateTarget`, for the target with the address `ptr` that is on the lists. -/
def updateTargetEnd (J : JsonLib) (w : World) (root : Json) (lists : Lists) (ptr : Nat) (target : Target) :
    Except Fault Answer := do
  let (ret, root, target) ← getConfig J w root target
  let lists := { lists with targetList := Keyed.modifyFirst (fun t => t.ptr == ptr) (fun _ => target) lists.targetList }
  let name := target.name
  return { ret := ret
           resp := if ret = 0 then s!"DEM configuration updated for target '{name}'" else configAlert name
           dem := { root := root, lists := lists.notify (createEventHostListForTarget lists.aenReqList target) } }

def updateTarget (J : JsonLib) (w : World) (d : Daemon) (tgt : Option String) (data : String) : Except Fault Answer :=
  afterStore d (updateJsonTarget J d.root tgt data zeroTarget) (fun r =>
    match tgt with
    | none =>
      updateTargetEnd J w r.root (allocTarget d.lists w r.out.name) w.addr
        (Target.updateTo r.out { ptr := w.addr, name := r.out.name })
    | some name =>
      match findTarget d.lists name with
      | none => .ok { ret := -efault, resp := r.resp, dem := { d with root := r.root } }
      | some target => updateTargetEnd J w r.root d.lists target.ptr (target.updateTo r.out))

/-! ## Deleting -/

def delTarget (d : Daemon) (tgt : Option String) : Except Fault Answer :=
  afterStore d (delJsonTarget d.root tgt) (fun r =>
    match findTarget d.lists (cStr tgt) with
    | none => .ok { ret := 0, resp := r.resp, dem := { d with root := r.root } }
    | some target =>
      let lists := { d.lists with targetList := d.lists.targetList.eraseP (fun t => t.name == cStr tgt) }
      .ok { ret := 0
            resp := r.resp
            dem := { root := r.root, lists := lists.notify (createEventHostListForTarget lists.aenReqList target) } })

/-! ## The interface of a target -/

def mgtModeErr : String := " - invalid mgmt mode for setting interface"

/-- The entry of a target and the interface of the body that both functions below start with. -/
def interfaceOf {α : Type} (J : JsonLib) (root : Json) (tgt data : String) (out : α) : Reply α ⊕ (Nat × Json) :=
  match root.objectGet tagTargets with
  | none => .inl { ret := -enoent, resp := s!"{tagTargets} '{tgt}' not found", root := root, out := out }
  | some targets =>
    match findArray targets tagAlias tgt with
    | none => .inl { ret := -enoent, resp := s!"{tagTarget} '{tgt}' not found", root := root, out := out }
    | some i =>
      match (J.loads data).bind (fun new => new.objectGet tagInterface) with
      | none => .inl (invalidJsonSyntax root out)
      | some newobj => .inr (i, newobj)

/-- The port is read as a text, into a buffer that holds `port` before. What is set is the array of reported interfaces. -/
def setJsonOobInterface (J : JsonLib) (root : Json) (tgt data : String) (iface : OobIface) (port : String) :
    Except Fault (Reply OobIface) :=
  match interfaceOf J root tgt data iface with
  | .inl r => .ok r
  | .inr (i, newobj) => do
    let iter := jsonUpdateString (.object []) newobj tagIffamily
    let (iter, address) ← jsonUpdateStringEx iter newobj tagIfaddress configAddressSize iface.address
    let (iter, port) ← jsonUpdateStringEx iter newobj tagIfport maxString port
    return { ret := 0
             resp := ""
             root := root.putAt tagTargets i ((arrayGet (root.arrayOr tagTargets) i).objectSet tagInterfaces iter)
             out := { address := address, port := atoi port.toList } }

/-- The fields are written through the pointer of a structure that the caller did not fill in. -/
def setJsonInbInterface (J : JsonLib) (root : Json) (tgt data : String) : Except Fault (Reply Unit) :=
  match interfaceOf J root tgt data () with
  | .inl r => .ok r
  | .inr _ => .error .wildPointer

def setInterface (J : JsonLib) (w : World) (d : Daemon) (tgt data : String) : Except Fault Answer :=
  match findTarget d.lists tgt with
  | none => .ok { ret := -enoent, resp := targetErr, dem := d }
  | some target =>
    match target.mgmtMode with
    | .outOfBandMgmt =>
      afterStore d (setJsonOobInterface J d.root tgt data w.oob w.name) (fun r =>
        .ok { ret := 0
              resp := r.resp
              dem := { root := r.root, lists := d.lists.onTarget tgt (fun t => { t with oob := r.out }) } })
    | .inBandMgmt =>
      afterStore d (setJsonInbInterface J d.root tgt data) (fun _ => .error .wildPointer)
    | .localMgmt => .ok { ret := -einval, resp := mgtModeErr, dem := d }

/-! ## Refreshing and configuring -/

def targetRefresh (w : World) (d : Daemon) (tgt : String) : Answer :=
  match findTarget d.lists tgt with
  | none => { ret := -enoent, resp := "", dem := d }
  | some _ => { ret := 0, resp := "", dem := { d with lists := d.lists.withLogs w } }

/-- The target is reset and told everything again. -/
def targetReconfig (w : World) (d : Daemon) (tgt : String) : Answer :=
  match findTarget d.lists tgt with
  | none => { ret := -enoent, resp := "", dem := d }
  | some target =>
    { ret := sendTo w target (.configTarget target.ptr), resp := "", dem := { d with lists := d.lists.withLogs w } }

end NvmeDem
