import NvmeDem.Store.Groups

/-!
# Hosts

The hosts of the store: an array of objects with an alias and, once set, an NQN. A host is named by its alias in the groups
and in the lists of allowed hosts of the subsystems, so that a rename or a deletion walks both.
-/

namespace NvmeDem

open Jansson

/-! ## The lists of allowed hosts -/

/-- In every subsystem of every target, the first mention of a host is renamed. -/
def renameInAllowedHosts (root : Json) (old new : String) : Json :=
  root.adjust tagTargets (Json.arrayMap (fun tgt =>
    tgt.adjust tagSubsystems (Json.arrayMap (fun subsys => subsys.adjust tagHosts (renameFirst old new)))))

/-- One turn of the inner loop of `delFromAllowedHosts`, for the target at the place `i`. The subsystem it looks at is the one
at the place of the target, and what it removes is the subsystem at the place where the alias was found. -/
def delAllowedStep (i : Nat) (name : String) (array : Json) : Json :=
  match (arrayGet array i).objectGet tagHosts with
  | none => array
  | some list =>
    match findArrayString list name with
    | some idx => array.arrayRemove idx
    | none => array

def delFromAllowedHosts (root : Json) (name : String) : Json :=
  root.adjust tagTargets (Json.arrayMapIdx (fun i tgt =>
    tgt.adjust tagSubsystems (fun array =>
      (List.range array.elems.length).foldl (fun array _ => delAllowedStep i name array) array)))

/-! ## Hosts -/

def addJsonHost (root : Json) (host : Option String) : Except Fault (Reply Unit) :=
  match findArrayPtr (root.arrayOr tagHosts) tagAlias host with
  | .error f => .error f
  | .ok (some _) => .ok { ret := -eexist, resp := s!"{tagHost} '{cStr host}' exists", root := root, out := () }
  | .ok none =>
    .ok { ret := 0
          resp := s!"{tagHost} '{cStr host}' added"
          root := root.pushAt tagHosts (jsonSetStringPtr (.object []) tagAlias host)
          out := () }

/-- The NQN of a host, copied to the caller's buffer `nqn`. -/
def getJsonHostNqn (root : Json) (host nqn : String) : Except Fault (Int × String) :=
  match root.objectGet tagHosts with
  | none => .ok (-enoent, nqn)
  | some hosts =>
    match findArray hosts tagAlias host with
    | none => .ok (-enoent, nqn)
    | some i =>
      match (arrayGet hosts i).objectGet tagHostnqn with
      | none => .ok (-einval, nqn)
      | some obj => (strcpy maxNqnSize obj.stringValue).map (fun s => (0, s))

/-- What `updateJsonHost` fills in for its caller. -/
structure HostOut where
  newalias : String
  nqn : String
  deriving DecidableEq, Repr

/-- The end of `updateJsonHost`: the NQN of the host at the place `i`. -/
def updateJsonHostNqn (root new : Json) (host : Option String) (i : Nat) (out : HostOut) :
    Except Fault (Reply HostOut) :=
  match jsonUpdateStringEx (arrayGet (root.arrayOr tagHosts) i) new tagHostnqn maxNqnSize out.nqn with
  | .error f => .error f
  | .ok (iter, nqn) =>
    .ok { ret := 0
          resp := s!"{tagHost} '{out.newalias}' {addedOrUpdated host}"
          root := root.putAt tagHosts i iter
          out := { out with nqn := nqn } }

/-- The part of `updateJsonHost` after the host of the URI was found at the place `at?` (none: the URI names none). -/
def updateJsonHostBody (J : JsonLib) (root : Json) (host : Option String) (at? : Option Nat) (data : String)
    (out : HostOut) : Except Fault (Reply HostOut) :=
  match J.loads data with
  | none => .ok (invalidJsonSyntax root out)
  | some new =>
    match new.objectGet tagAlias with
    | some value =>
      match strcpy maxAliasSize value.stringValue with
      | .error f => .error f
      | .ok newalias =>
        if looksForName host newalias then
          if (findArray (root.arrayOr tagHosts) tagAlias newalias).isSome then
            .ok { ret := -eexist
                  resp := s!"{tagHosts} '{newalias}' exists"
                  root := root
                  out := { out with newalias := newalias } }
          else
            match host, at? with
            | some old, some i =>
              updateJsonHostNqn
                (renameInGroups
                  (renameInAllowedHosts
                    (root.putAt tagHosts i (jsonUpdateString (arrayGet (root.arrayOr tagHosts) i) new tagAlias))
                    old newalias)
                  tagHosts old newalias)
                new host i { out with newalias := newalias }
            | _, _ =>
              match pushShared root tagHosts (jsonSetString (.object []) tagAlias newalias) with
              | .error f => .error f
              | .ok root' =>
                updateJsonHostNqn root' new host (root.entries tagHosts).length { out with newalias := newalias }
        else
          match at? with
          | some i => updateJsonHostNqn root new host i { out with newalias := newalias }
          | none =>
            .ok { ret := -efault
                  resp := "Internal logic error"
                  root := root
                  out := { out with newalias := newalias } }
    | none =>
      match host, at? with
      | some old, some i =>
        match strcpy maxAliasSize (some old) with
        | .error f => .error f
        | .ok newalias => updateJsonHostNqn root new host i { out with newalias := newalias }
      | _, _ => .ok (invalidJsonSyntax root out)

def updateJsonHost (J : JsonLib) (root : Json) (host : Option String) (data : String) (out : HostOut) :
    Except Fault (Reply HostOut) :=
  if data = "" then .ok (invalidJsonSyntax root out)
  else
    match host with
    | none => updateJsonHostBody J (root.ensureArray tagHosts) none none data out
    | some h =>
      match findArray (root.arrayOr tagHosts) tagAlias h with
      | none =>
        .ok { ret := -enoent, resp := s!"{tagHost} '{h}' not found", root := root.ensureArray tagHosts, out := out }
      | some i => updateJsonHostBody J (root.ensureArray tagHosts) host (some i) data out

/-- Delete a host; its NQN, if it has one, is copied to the caller's buffer `nqn`. -/
def delJsonHost (root : Json) (host : Option String) (nqn : String) : Except Fault (Reply String) :=
  match root.objectGet tagHosts with
  | none => .ok { ret := -enoent, resp := s!"{tagHost} '{cStr host}' not found", root := root, out := nqn }
  | some hosts =>
    match findArrayPtr hosts tagAlias host with
    | .error f => .error f
    | .ok none => .ok { ret := -enoent, resp := s!"{tagHost} '{cStr host}' not found", root := root, out := nqn }
    | .ok (some i) =>
      match ((arrayGet hosts i).objectGet tagHostnqn).elim (.ok nqn) (fun obj => strcpy maxNqnSize obj.stringValue) with
      | .error f => .error f
      | .ok hostnqn =>
        .ok { ret := 0
              resp := s!"{tagHost} '{cStr host}' deleted"
              root := delFromGroups (delFromAllowedHosts (root.removeAt tagHosts i) (cStr host)) tagHosts (cStr host)
              out := hostnqn }

end NvmeDem
