import NvmeDem.Store.Hosts

/-!
# Subsystems, ports, namespaces and access lists

What a target of the store holds: the array of its ports, each with an integer id, and the array of its subsystems, each with
an NQN, an array of namespaces and, when it is restricted, a list of the aliases of the hosts it allows.

Every function here first looks up the target by its alias, then the array of the target, and edits one entry of that array.
-/

namespace NvmeDem

open Jansson

/-! ## What the callers pass in and read back -/

def restricted : Int := 0
def undefinedAccess : Int := -1

/-- The fields of a `struct subsystem` that `setJsonSubsys` reads and writes. -/
structure SubsysArg where
  nqn : String
  access : Int
  deriving DecidableEq, Repr

/-- The fields of a `struct portid` that `setJsonPortid` writes. -/
structure PortArg where
  portid : Int
  type : String
  family : String
  address : String
  portNum : Int
  deriving DecidableEq, Repr

/-- The fields of a `struct ns` that `setJsonNs` writes. -/
structure NsArg where
  nsid : Int
  devid : Int
  devns : Int
  deriving DecidableEq, Repr

/-! ## Deleting from an array of an array -/

/-- The entry of `parent` with `value` under `tag`, and its place, after the entry of its array `subgroup` with the NQN
`subnqn` is removed; nothing when one of them is not there. -/
def delFromArray (parent : Json) (tag value subgroup : String) (subnqn : Option String) :
    Except Fault (Option (Nat × Json)) :=
  match findArray parent tag value with
  | none => .ok none
  | some i =>
    match (arrayGet parent i).objectGet subgroup with
    | none => .ok none
    | some array =>
      match findArrayPtr array tagSubnqn subnqn with
      | .error f => .error f
      | .ok none => .ok none
      | .ok (some j) => .ok (some (i, (arrayGet parent i).removeAt subgroup j))

/-- `delFromArray` for an entry with the integer `val` under `key`. -/
def delIntFromArray (parent : Json) (tag value subgroup key : String) (val : Int) : Option (Nat × Json) :=
  match findArray parent tag value with
  | none => none
  | some i =>
    match (arrayGet parent i).objectGet subgroup with
    | none => none
    | some array =>
      match findArrayInt array key val with
      | none => none
      | some j => some (i, (arrayGet parent i).removeAt subgroup j)

/-! ## Subsystems -/

/-- The fields of a subsystem entry that follow its NQN: the access from the body, and no list of allowed hosts when the
access is not restricted. -/
def updateSubsysAccess (iter new : Json) (subsys : SubsysArg) : Json × SubsysArg :=
  let (iter, access) := jsonUpdateIntEx iter new tagAllowAny subsys.access
  (if access = restricted then iter else iter.objectDel tagHosts, { subsys with access := access })

/-- The end of `setJsonSubsys` for a subsystem that is not there: `root` has the target `obj` at the place `i`. -/
def createJsonSubsys (root : Json) (tgt : String) (i : Nat) (obj new : Json) (nqn : String) (subsys : SubsysArg) :
    Reply SubsysArg :=
  let (iter, subsys) :=
    updateSubsysAccess (jsonSetString (.object []) tagSubnqn nqn) new { subsys with nqn := nqn }
  { ret := 0
    resp := s!"{tagSubsystem} '{nqn}' added to in {tagTarget} '{tgt}'"
    root := root.putAt tagTargets i (obj.pushAt tagSubsystems iter)
    out := subsys }

/-- The end of `setJsonSubsys` for the subsystem `subnqn` at the place `j` of the target `obj`. -/
def changeJsonSubsys (root : Json) (tgt subnqn : String) (i j : Nat) (obj array new : Json) (subsys : SubsysArg) :
    Except Fault (Reply SubsysArg) :=
  match strcpy maxString (some subnqn) with
  | .error f => .error f
  | .ok nqn =>
    match jsonUpdateStringEx (arrayGet array j) new tagSubnqn maxNqnSize nqn with
    | .error f => .error f
    | .ok (iter, newnqn) =>
      let (iter, subsys) := updateSubsysAccess iter new { subsys with nqn := newnqn }
      .ok { ret := 0
            resp := s!"{tagSubsystem} '{nqn}' updated in in {tagTarget} '{tgt}'"
            root := root.putAt tagTargets i (obj.putAt tagSubsystems j iter)
            out := subsys }

/-- The part of `setJsonSubsys` that reads the body, after the subsystem of the URI was found at the place `at?` of the array
of the target `obj` (none: the URI names none). -/
def setJsonSubsysBody (J : JsonLib) (root : Json) (tgt : String) (subnqn : Option String) (i : Nat) (obj array : Json)
    (at? : Option Nat) (data : String) (subsys : SubsysArg) : Except Fault (Reply SubsysArg) :=
  match J.loads data with
  | none => .ok (invalidJsonSyntax (root.putAt tagTargets i obj) subsys)
  | some new =>
    match (new.objectGet tagSubnqn).map (fun value => strcpy maxString value.stringValue) with
    | some (.error f) => .error f
    | some (.ok nqn) =>
      if (findArray array tagSubnqn nqn).isSome && decide (subnqn ≠ some nqn) then
        .ok { ret := -eexist
              resp := s!"{tagSubsystem} '{nqn}' exists in {tagTarget} '{tgt}'"
              root := root.putAt tagTargets i obj
              out := subsys }
      else
        match subnqn, at? with
        | some old, some j => changeJsonSubsys root tgt old i j obj array new subsys
        | _, _ => .ok (createJsonSubsys root tgt i obj new nqn subsys)
    | none =>
      match subnqn, at? with
      | some old, some j => changeJsonSubsys root tgt old i j obj array new subsys
      | _, _ =>
        .ok { ret := -einval
              resp := "no subsystem NQN provided"
              root := root.putAt tagTargets i obj
              out := subsys }

def setJsonSubsys (J : JsonLib) (root : Json) (tgt : String) (subnqn : Option String) (data : String)
    (subsys : SubsysArg) : Except Fault (Reply SubsysArg) :=
  match root.objectGet tagTargets with
  | none => .ok { ret := -enoent, resp := s!"{tagTargets} not found", root := root, out := subsys }
  | some targets =>
    match findArray targets tagAlias tgt with
    | none => .ok { ret := -enoent, resp := s!"{tagTarget} '{tgt}' not found", root := root, out := subsys }
    | some i =>
      match jsonGetArray (arrayGet targets i) tagSubsystems with
      | (_, none) => .ok (invalidJsonSyntax root subsys)
      | (obj, some array) =>
        match subnqn with
        | some old =>
          match findArray array tagSubnqn old with
          | none =>
            .ok { ret := -enoent
                  resp := s!"{tagSubsystem} '{old}' not found in {tagTarget} '{tgt}'"
                  root := root.putAt tagTargets i obj
                  out := subsys }
          | some j =>
            if data = "" then
              .ok { ret := 0
                    resp := s!"{tagSubsystem} '{old}' unchanged in {tagTarget} '{tgt}'"
                    root := root.putAt tagTargets i obj
                    out := subsys }
            else setJsonSubsysBody J root tgt subnqn i obj array (some j) data subsys
        | none =>
          if data = "" then
            .ok { ret := -einval
                  resp := s!"no data for update {tagSubsystem} '<NULL>' in {tagTarget} '{tgt}'"
                  root := root.putAt tagTargets i obj
                  out := subsys }
          else setJsonSubsysBody J root tgt none i obj array none data subsys

def delJsonSubsys (root : Json) (tgt : String) (subnqn : Option String) : Except Fault (Reply Unit) :=
  match root.objectGet tagTargets with
  | none => .ok { ret := -enoent, resp := s!"{tagTargets} not found", root := root, out := () }
  | some targets =>
    match delFromArray targets tagAlias tgt tagSubsystems subnqn with
    | .error f => .error f
    | .ok none =>
      .ok { ret := -enoent
            resp := s!"Unable to delete {tagSubsystem} '{cStr subnqn}' from {tagTarget} '{tgt}'"
            root := root
            out := () }
    | .ok (some (i, obj)) =>
      .ok { ret := 0
            resp := s!"{tagSubsystem} '{cStr subnqn}' deleted from {tagTarget} '{tgt}'"
            root := root.putAt tagTargets i obj
            out := () }

/-! ## Ports -/

/-- The fields of a port entry set from the body, and copied to the caller. -/
def updatePortFields (iter new : Json) (portid : PortArg) : Except Fault (Json × PortArg) := do
  let (iter, id) := jsonUpdateIntEx iter new tagPortid portid.portid
  let (iter, type) ← jsonUpdateStringEx iter new tagType configTypeSize portid.type
  let (iter, address) ← jsonUpdateStringEx iter new tagAddress configAddressSize portid.address
  let (iter, family) ← jsonUpdateStringEx iter new tagFamily configFamilySize portid.family
  let (iter, portNum) := jsonUpdateIntEx iter new tagTrsvcid portid.portNum
  return (iter, { portid := id, type := type, family := family, address := address, portNum := portNum })

/-- The id a port request means: the one of the URI, or the one of the body when that is zero. -/
def requestPortid (id : Int) (new : Json) : Int :=
  if id = 0 then cInt (((new.objectGet tagPortid).map Json.integerValue).getD 0) else id

/-- The entry of a port that is not there, before the body is read. -/
def newPort (id : Int) : Json := jsonSetInt (.object []) tagPortid id

/-- The end of `setJsonPortid`: the port `id` of the target `obj` at the place `i` is made or changed from the body. -/
def setJsonPortidBody (root : Json) (tgt : String) (id : Int) (i : Nat) (obj array new : Json) (portid : PortArg) :
    Except Fault (Reply PortArg) :=
  match findArrayInt array tagPortid id with
  | some j =>
    match updatePortFields (arrayGet array j) new portid with
    | .error f => .error f
    | .ok (iter, portid) =>
      .ok { ret := 0
            resp := s!"{tagPortid} '{id}' updated in {tagTarget} '{tgt}'"
            root := root.putAt tagTargets i (obj.putAt tagPortids j iter)
            out := portid }
  | none =>
    match updatePortFields (newPort id) new portid with
    | .error f => .error f
    | .ok (iter, portid) =>
      .ok { ret := 0
            resp := s!"{tagPortid} '{id}' updated in {tagTarget} '{tgt}'"
            root := root.putAt tagTargets i (obj.pushAt tagPortids iter)
            out := portid }

def setJsonPortid (J : JsonLib) (root : Json) (tgt : String) (id : Int) (data : String) (portid : PortArg) :
    Except Fault (Reply PortArg) :=
  match root.objectGet tagTargets with
  | none => .ok { ret := -enoent, resp := s!"{tagTargets} '{tgt}' not found", root := root, out := portid }
  | some targets =>
    match findArray targets tagAlias tgt with
    | none => .ok { ret := -enoent, resp := s!"{tagTarget} '{tgt}' not found", root := root, out := portid }
    | some i =>
      match jsonGetArray (arrayGet targets i) tagPortids with
      | (_, none) => .ok (invalidJsonSyntax root portid)
      | (obj, some array) =>
        if data = "" then
          .ok { ret := -einval
                resp := s!"no data to update {tagPortid} '{id}' in {tagTarget} '{tgt}'"
                root := root.putAt tagTargets i obj
                out := portid }
        else
          match J.loads data with
          | none => .ok (invalidJsonSyntax (root.putAt tagTargets i obj) portid)
          | some new =>
            if requestPortid id new = 0 then
              .ok { ret := -einval
                    resp := s!"no port id give for {tagTarget} '{tgt}'"
                    root := root.putAt tagTargets i obj
                    out := portid }
            else setJsonPortidBody root tgt (requestPortid id new) i obj array new portid

def delJsonPortid (root : Json) (tgt : String) (portid : Int) : Reply Unit :=
  match root.objectGet tagTargets with
  | none => { ret := -enoent, resp := s!"{tagTarget} not found", root := root, out := () }
  | some targets =>
    match delIntFromArray targets tagAlias tgt tagPortids tagPortid portid with
    | none =>
      { ret := -enoent
        resp := s!"Unable to delete {tagPortid} '{portid}' from {tagTarget} '{tgt}'"
        root := root
        out := () }
    | some (i, obj) =>
      { ret := 0
        resp := s!"{tagPortid} '{portid}' deleted from {tagTarget} '{tgt}'"
        root := root.putAt tagTargets i obj
        out := () }

/-! ## Namespaces -/

/-- The fields of a namespace entry set from the body, and copied to the caller. -/
def updateNsFields (iter new : Json) (ns : NsArg) : Json × NsArg :=
  let (iter, devid) := jsonUpdateIntEx iter new tagDevid ns.devid
  let (iter, devns) := jsonUpdateIntEx iter new tagDevnsid ns.devns
  (iter, { ns with devid := devid, devns := devns })

/-- The entry of a namespace that is not there, before the body is read. -/
def newNs (nsid : Int) : Json := jsonSetInt (.object []) tagNsid nsid

/-- The end of `setJsonNs`: the namespace `val` of the subsystem `sub` is made or changed from the body, and the subsystem with
it is given back. -/
def setJsonNsBody (sub array new : Json) (val : Int) (ns : NsArg) : Json × NsArg :=
  match findArrayInt array tagNsid val with
  | some k =>
    let (iter, ns) := updateNsFields (arrayGet array k) new { ns with nsid := val }
    (sub.putAt tagNsids k iter, ns)
  | none =>
    let (iter, ns) := updateNsFields (newNs val) new { ns with nsid := val }
    (sub.pushAt tagNsids iter, ns)

def setJsonNs (J : JsonLib) (root : Json) (tgt subnqn data : String) (ns : NsArg) : Reply NsArg :=
  match root.objectGet tagTargets with
  | none => { ret := -enoent, resp := s!"{tagTargets} not found", root := root, out := ns }
  | some targets =>
    match findArray targets tagAlias tgt with
    | none => { ret := -enoent, resp := s!"{tagTarget} '{tgt}' not found", root := root, out := ns }
    | some i =>
      match jsonGetArray (arrayGet targets i) tagSubsystems with
      | (_, none) =>
        { ret := -enoent
          resp := s!"{tagSubsystem} '{subnqn}' not found in {tagTarget} '{tgt}'"
          root := root
          out := ns }
      | (obj, some subsystems) =>
        match findArray subsystems tagSubnqn subnqn with
        | none =>
          { ret := -enoent
            resp := s!"{tagSubsystem} '{subnqn}' not found in {tagTarget} '{tgt}'"
            root := root.putAt tagTargets i obj
            out := ns }
        | some j =>
          match jsonGetArray (arrayGet subsystems j) tagNsids with
          | (_, none) => invalidJsonSyntax root ns
          | (sub, some array) =>
            match (J.loads data).bind (fun new => (new.objectGet tagNsid).map (fun nsid => (new, nsid))) with
            | none => invalidJsonSyntax (root.putAt tagTargets i (obj.putAt tagSubsystems j sub)) ns
            | some (new, nsid) =>
              let (sub, ns) := setJsonNsBody sub array new (cInt nsid.integerValue) ns
              { ret := 0
                resp := s!"{tagNsid} {cInt nsid.integerValue} updated in {tagSubsystem} '{subnqn}' of {tagTarget} '{tgt}'"
                root := root.putAt tagTargets i (obj.putAt tagSubsystems j sub)
                out := ns }

def delJsonNs (root : Json) (tgt subnqn : String) (ns : Int) : Reply Unit :=
  match root.objectGet tagTargets with
  | none => { ret := -enoent, resp := s!"{tagTargets} not found", root := root, out := () }
  | some targets =>
    match findArray targets tagAlias tgt with
    | none => { ret := -enoent, resp := s!"{tagTarget} '{tgt}' not found'", root := root, out := () }
    | some i =>
      match (arrayGet targets i).objectGet tagSubsystems with
      | none =>
        { ret := -enoent
          resp := s!"{tagSubsystem} '{subnqn}' not found in {tagTarget} '{tgt}'"
          root := root
          out := () }
      | some array =>
        match delIntFromArray array tagSubnqn subnqn tagNsids tagNsid ns with
        | none =>
          { ret := -enoent
            resp := s!"Unable to delete {tagNsid} '{ns}' from {tagSubsystem} '{subnqn} in {tagTarget} '{tgt}'"
            root := root
            out := () }
        | some (j, sub) =>
          { ret := 0
            resp := s!"{tagNsid} '{ns}' deleted from {tagSubsystem} '{subnqn}' in {tagTarget} '{tgt}'"
            root := root.putAt tagTargets i ((arrayGet targets i).putAt tagSubsystems j sub)
            out := () }

/-! ## Access lists -/

/-- The alias of the host of an access request: the one of the URI or the one of the body; nothing when the body has none. -/
def aclAlias (J : JsonLib) (host : Option String) (data : String) : Option (Except Fault String) :=
  match host with
  | some name => some (strcpy maxAliasSize (some name))
  | none =>
    (J.loads data).bind (fun new =>
      (new.objectGet tagAlias).map (fun value => strcpy maxAliasSize value.stringValue))

/-- The end of `setJsonAcl`: the host `newalias` is put on the list of the subsystem at the place `j` of the target `obj` at the
place `i`. -/
def setJsonAclBody (root hosts : Json) (tgt subnqn newalias : String) (i j : Nat) (obj sub : Json) (out : HostOut) :
    Except Fault (Reply HostOut) :=
  match findArray hosts tagAlias newalias with
  | none =>
    .ok { ret := -enoent
          resp := s!"{tagHost} '{newalias}' not found"
          root := root.putAt tagTargets i (obj.putAt tagSubsystems j (sub.ensureArray tagHosts))
          out := { out with newalias := newalias } }
  | some h =>
    if (findArrayString (sub.arrayOr tagHosts) newalias).isSome then
      .ok { ret := -eexist
            resp := s!"{tagHost} '{newalias}' exists for {tagSubsystem} '{subnqn}' in {tagTarget} '{tgt}'"
            root := root.putAt tagTargets i (obj.putAt tagSubsystems j (sub.ensureArray tagHosts))
            out := { out with newalias := newalias } }
    else
      match (arrayGet hosts h).objectGet tagHostnqn with
      | none =>
        .ok { ret := -einval
              resp := s!"{tagHost} '{newalias}' has no hostnqn"
              root := root.putAt tagTargets i (obj.putAt tagSubsystems j (sub.ensureArray tagHosts))
              out := { out with newalias := newalias } }
      | some value =>
        match strcpy maxNqnSize value.stringValue with
        | .error f => .error f
        | .ok hostnqn =>
          .ok { ret := 0
                resp := s!"{tagHost} '{newalias}' added for {tagSubsystem} '{subnqn}' in {tagTarget} '{tgt}'"
                root := root.putAt tagTargets i (obj.putAt tagSubsystems j (sub.pushAt tagHosts (.string newalias)))
                out := { newalias := newalias, nqn := hostnqn } }

def setJsonAcl (J : JsonLib) (root : Json) (tgt subnqn : String) (host : Option String) (data : String) (out : HostOut) :
    Except Fault (Reply HostOut) :=
  match root.objectGet tagHosts with
  | none => .ok { ret := -enoent, resp := s!"{tagHosts} not found", root := root, out := out }
  | some hosts =>
    match root.objectGet tagTargets with
    | none => .ok { ret := -enoent, resp := s!"{tagTargets} not found", root := root, out := out }
    | some targets =>
      match findArray targets tagAlias tgt with
      | none => .ok { ret := -enoent, resp := s!"{tagTarget} '{tgt}' not found", root := root, out := out }
      | some i =>
        match jsonGetArray (arrayGet targets i) tagSubsystems with
        | (_, none) =>
          .ok { ret := -enoent
                resp := s!"{tagSubsystem} '{subnqn}' not found in {tagTarget} '{tgt}'"
                root := root
                out := out }
        | (obj, some array) =>
          match findArray array tagSubnqn subnqn with
          | none =>
            .ok { ret := -enoent
                  resp := s!"{tagSubsystem} '{subnqn}' not found in {tagTarget} '{tgt}'"
                  root := root.putAt tagTargets i obj
                  out := out }
          | some j =>
            match aclAlias J host data with
            | none =>
              .ok (invalidJsonSyntax
                (root.putAt tagTargets i (obj.putAt tagSubsystems j ((arrayGet array j).ensureArray tagHosts))) out)
            | some (.error f) => .error f
            | some (.ok newalias) =>
              setJsonAclBody root hosts tgt subnqn newalias i j obj (arrayGet array j) out

def delJsonAcl (root : Json) (tgt subnqn host : String) : Reply Unit :=
  match root.objectGet tagTargets with
  | none => { ret := -enoent, resp := s!"{tagTargets} not found", root := root, out := () }
  | some targets =>
    match findArray targets tagAlias tgt with
    | none => { ret := -enoent, resp := s!"{tagTarget} '{tgt}' not found'", root := root, out := () }
    | some i =>
      match jsonGetArray (arrayGet targets i) tagSubsystems with
      | (_, none) =>
        { ret := -enoent
          resp := s!"{tagSubsystem} '{subnqn}' not found in {tagAlias} '{tgt}'"
          root := root
          out := () }
      | (obj, some array) =>
        match findArray array tagSubnqn subnqn with
        | none =>
          { ret := -enoent
            resp := s!"{tagSubsystem} '{subnqn}' not found in {tagTarget} '{tgt}'"
            root := root.putAt tagTargets i obj
            out := () }
        | some j =>
          match (arrayGet array j).objectGet tagHosts with
          | none =>
            { ret := -enoent
              resp := s!"{tagSubsystem} '{subnqn}' not found in {tagTarget} '{tgt}'"
              root := root.putAt tagTargets i obj
              out := () }
          | some list =>
            match findArrayString list host with
            | none =>
              { ret := -enoent
                resp := s!"{tagHost} '{host}' not allowed for {tagSubsystem} '{subnqn}' in {tagTarget} '{tgt}'"
                root := root.putAt tagTargets i obj
                out := () }
            | some k =>
              { ret := 0
                resp := s!"{tagHost} '{host}' deleted from {tagSubsystem} '{subnqn}' for {tagAlias} '{tgt}'"
                root := root.putAt tagTargets i (obj.putAt tagSubsystems j ((arrayGet array j).removeAt tagHosts k))
                out := () }

end NvmeDem
