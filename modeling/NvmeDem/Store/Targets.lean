import NvmeDem.Store.Subsystems

/-!
# Targets

The targets of the store: an array of objects with an alias, a refresh period, a management mode with the interface it needs,
an array of ports and an array of subsystems.
-/

namespace NvmeDem

open Jansson

/-! ## Management modes -/

/-- How a target is managed. -/
inductive MgmtMode where
  | localMgmt | inBandMgmt | outOfBandMgmt
  deriving DecidableEq, Repr

def getMgmtMode (mode : String) : MgmtMode :=
  if mode = tagOutOfBandMgmt then .outOfBandMgmt else if mode = tagInBandMgmt then .inBandMgmt else .localMgmt

/-- The address and the port of an out-of-band interface. -/
structure OobIface where
  address : String
  port : Int
  deriving DecidableEq, Repr

/-- The fields of a `struct target` that `updateJsonTarget` writes. The two interfaces share their memory in the C code; each
mode reads its own. -/
structure TargetArg where
  name : String
  refresh : Int
  mgmtMode : MgmtMode
  oob : OobIface
  inb : PortArg
  deriving DecidableEq, Repr

/-! ## Adding and updating -/

/-- A target as it is added: no ports, no subsystems. -/
def newTarget (tgt : Option String) : Json :=
  ((jsonSetStringPtr (.object []) tagAlias tgt).objectSet tagPortids (.array [])).objectSet tagSubsystems (.array [])

def addJsonTarget (root : Json) (tgt : Option String) : Except Fault (Reply Unit) :=
  match findArrayPtr (root.arrayOr tagTargets) tagAlias tgt with
  | .error f => .error f
  | .ok (some _) => .ok { ret := -eexist, resp := s!"{tagTarget} '{cStr tgt}' exists", root := root, out := () }
  | .ok none =>
    .ok { ret := 0, resp := s!"{tagTarget} '{cStr tgt}' added", root := root.pushAt tagTargets (newTarget tgt), out := () }

/-- The interface of an out-of-band target: the family and then the address are copied to the caller's address. -/
def updateOobInterface (obj newobj : Json) (oob : OobIface) : Except Fault (Json × OobIface) := do
  let obj := (((obj.objectDel tagType).objectDel tagFamily).objectDel tagAddress).objectDel tagTrsvcid
  let (obj, address) ← jsonUpdateStringEx obj newobj tagIffamily configAddressSize oob.address
  let (obj, address) ← jsonUpdateStringEx obj newobj tagIfaddress configAddressSize address
  let (obj, port) := jsonUpdateIntEx obj newobj tagIfport oob.port
  return (obj, { address := address, port := port })

/-- The interface of an in-band target. -/
def updateInbInterface (obj newobj : Json) (inb : PortArg) : Except Fault (Json × PortArg) := do
  let obj := ((obj.objectDel tagIffamily).objectDel tagIfaddress).objectDel tagIfport
  let (obj, type) ← jsonUpdateStringEx obj newobj tagType configTypeSize inb.type
  let (obj, family) ← jsonUpdateStringEx obj newobj tagFamily configFamilySize inb.family
  let (obj, address) ← jsonUpdateStringEx obj newobj tagAddress configAddressSize inb.address
  let (obj, portNum) := jsonUpdateIntEx obj newobj tagTrsvcid inb.portNum
  return (obj, { inb with type := type, family := family, address := address, portNum := portNum })

/-- The interface of a target entry: deleted for a local target, else set from the body if the body has one. -/
def updateInterface (iter new : Json) (target : TargetArg) : Except Fault (Json × TargetArg) :=
  match target.mgmtMode with
  | .localMgmt => .ok (iter.objectDel tagInterface, target)
  | .outOfBandMgmt =>
    match new.objectGet tagInterface with
    | none => .ok (iter, target)
    | some newobj =>
      (updateOobInterface ((iter.objectGet tagInterface).getD (.object [])) newobj target.oob).map
        (fun r => (iter.objectSet tagInterface r.1, { target with oob := r.2 }))
  | .inBandMgmt =>
    match new.objectGet tagInterface with
    | none => .ok (iter, target)
    | some newobj =>
      (updateInbInterface ((iter.objectGet tagInterface).getD (.object [])) newobj target.inb).map
        (fun r => (iter.objectSet tagInterface r.1, { target with inb := r.2 }))

/-- The fields of a target entry that follow its alias, set from the body and copied to the caller. A body without a mode makes
the target a local one. -/
def updateTargetFields (iter new : Json) (target : TargetArg) : Except Fault (Json × TargetArg) := do
  let (iter, refresh) := jsonUpdateIntEx iter new tagRefresh target.refresh
  let (iter, mode) ← jsonUpdateStringEx iter new tagMgmtMode maxString ""
  updateInterface iter new { target with refresh := refresh, mgmtMode := getMgmtMode mode }

/-- The end of `updateJsonTarget`: the fields of the target at the place `i`. -/
def updateJsonTargetFields (root new : Json) (tgt : Option String) (i : Nat) (buf : String) (target : TargetArg) :
    Except Fault (Reply TargetArg) :=
  match updateTargetFields (arrayGet (root.arrayOr tagTargets) i) new { target with name := cCut maxAliasSize buf } with
  | .error f => .error f
  | .ok (iter, target) =>
    .ok { ret := 0
          resp := s!"{tagTarget} '{buf}' {addedOrUpdated tgt}"
          root := root.putAt tagTargets i iter
          out := target }

/-- The part of `updateJsonTarget` after the target of the URI was found at the place `at?` (none: the URI names none). -/
def updateJsonTargetBody (J : JsonLib) (root : Json) (tgt : Option String) (at? : Option Nat) (data : String)
    (target : TargetArg) : Except Fault (Reply TargetArg) :=
  match J.loads data with
  | none => .ok (invalidJsonSyntax root target)
  | some new =>
    match new.objectGet tagAlias with
    | some value =>
      match strcpy maxString value.stringValue with
      | .error f => .error f
      | .ok buf =>
        if looksForName tgt buf then
          if (findArray (root.arrayOr tagTargets) tagAlias buf).isSome then
            .ok { ret := -eexist, resp := s!"{tagTarget} '{buf}' exists", root := root, out := target }
          else
            match tgt, at? with
            | some old, some i =>
              updateJsonTargetFields
                (renameInGroups
                  (root.putAt tagTargets i (jsonUpdateString (arrayGet (root.arrayOr tagTargets) i) new tagAlias))
                  tagTargets old buf)
                new tgt i buf target
            | _, _ =>
              match pushShared root tagTargets (newTarget (some buf)) with
              | .error f => .error f
              | .ok root' => updateJsonTargetFields root' new tgt (root.entries tagTargets).length buf target
        else
          match at? with
          | some i => updateJsonTargetFields root new tgt i buf target
          | none =>
            .ok { ret := -efault
                  resp := "Internal logic error"
                  root := root
                  out := { target with name := cCut maxAliasSize buf } }
    | none =>
      match tgt, at? with
      | some old, some i =>
        match strcpy maxString (some old) with
        | .error f => .error f
        | .ok buf => updateJsonTargetFields root new tgt i buf target
      | _, _ => .ok (invalidJsonSyntax root target)

def updateJsonTarget (J : JsonLib) (root : Json) (tgt : Option String) (data : String) (target : TargetArg) :
    Except Fault (Reply TargetArg) :=
  if data = "" then .ok (invalidJsonSyntax root target)
  else
    match tgt with
    | none => updateJsonTargetBody J (root.ensureArray tagTargets) none none data target
    | some t =>
      match findArray (root.arrayOr tagTargets) tagAlias t with
      | none =>
        .ok { ret := -enoent, resp := s!"{tagTarget} '{t}' not found", root := root.ensureArray tagTargets, out := target }
      | some i => updateJsonTargetBody J (root.ensureArray tagTargets) tgt (some i) data target

/-! ## Deleting -/

/-- The loop of `delJsonTarget`: as many times as the target had subsystems, the one that stands first is deleted by its NQN. -/
def delJsonTargetSubsystems (tgt : String) (i : Nat) : Nat → Json → Except Fault Json
  | 0, root => .ok root
  | n + 1, root =>
    match delJsonSubsys root tgt
        ((arrayGet ((arrayGet (root.arrayOr tagTargets) i).arrayOr tagSubsystems) 0).strField tagSubnqn) with
    | .error f => .error f
    | .ok r => delJsonTargetSubsystems tgt i n r.root

def delJsonTarget (root : Json) (tgt : Option String) : Except Fault (Reply Unit) :=
  match root.objectGet tagTargets with
  | none => .ok { ret := -enoent, resp := s!"{tagTargets} not found", root := root, out := () }
  | some targets =>
    match findArrayPtr targets tagAlias tgt with
    | .error f => .error f
    | .ok none => .ok { ret := -enoent, resp := s!"{tagTarget} '{cStr tgt}' not found", root := root, out := () }
    | .ok (some i) =>
      match delJsonTargetSubsystems (cStr tgt) i ((arrayGet targets i).entries tagSubsystems).length root with
      | .error f => .error f
      | .ok root =>
        .ok { ret := 0
              resp := s!"{tagTarget} '{cStr tgt}' deleted"
              root := delFromGroups (root.removeAt tagTargets i) tagTargets (cStr tgt)
              out := () }

end NvmeDem
