import NvmeDem.Store.Basic

/-!
# Groups

The groups of the store: an array of objects, each with a name and two lists of aliases, one of targets and one of hosts.
-/

namespace NvmeDem

open Jansson

/-- A group as it is added: no targets, no hosts. -/
def newGroup (group : Option String) : Json :=
  ((jsonSetStringPtr (.object []) tagName group).objectSet tagTargets (.array [])).objectSet tagHosts (.array [])

def addJsonGroup (root : Json) (group : Option String) : Except Fault (Reply Unit) :=
  match findArrayPtr (root.arrayOr tagGroups) tagName group with
  | .error f => .error f
  | .ok (some _) => .ok { ret := -eexist, resp := s!"{tagGroup} '{cStr group}' exists", root := root, out := () }
  | .ok none =>
    match pushShared root tagGroups (newGroup group) with
    | .error f => .error f
    | .ok root => .ok { ret := 0, resp := s!"{tagGroup} '{cStr group}' added", root := root, out := () }

/-- A group as an update without a name in the URI makes it: its lists stand in the other order. -/
def newGroupFrom (newname : String) : Json :=
  ((jsonSetString (.object []) tagName newname).objectSet tagHosts (.array [])).objectSet tagTargets (.array [])

/-- The part of `updateJsonGroup` after the group of the URI was found at the place `at?` (none: the URI names none). -/
def updateJsonGroupBody (J : JsonLib) (root : Json) (group : Option String) (at? : Option Nat) (data name : String) :
    Except Fault (Reply String) :=
  match J.loads data with
  | none => .ok (invalidJsonSyntax root name)
  | some new =>
    match new.objectGet tagName with
    | none => .ok (invalidJsonSyntax root name)
    | some value =>
      match strcpy maxString value.stringValue with
      | .error f => .error f
      | .ok newname =>
        if looksForName group newname && (findArray (root.arrayOr tagGroups) tagName newname).isSome then
          .ok { ret := -eexist, resp := s!"{tagGroup} '{newname}' exists", root := root, out := name }
        else
          match strcpy maxAliasSize (some newname) with
          | .error f => .error f
          | .ok name =>
            match at? with
            | some i =>
              .ok { ret := 0
                    resp := s!"{tagGroup} '{newname}' updated"
                    root := root.putAt tagGroups i
                      (jsonUpdateString (arrayGet (root.arrayOr tagGroups) i) new tagName)
                    out := name }
            | none =>
              match pushShared root tagGroups (newGroupFrom newname) with
              | .error f => .error f
              | .ok root => .ok { ret := 0, resp := s!"{tagGroup} '{newname}' added", root := root, out := name }

def updateJsonGroup (J : JsonLib) (root : Json) (group : Option String) (data name : String) :
    Except Fault (Reply String) :=
  if data = "" then .ok (invalidJsonSyntax root name)
  else
    match group with
    | none => updateJsonGroupBody J (root.ensureArray tagGroups) none none data name
    | some g =>
      match findArray (root.arrayOr tagGroups) tagName g with
      | none =>
        .ok { ret := -enoent, resp := s!"{tagGroup} '{g}' not found", root := root.ensureArray tagGroups, out := name }
      | some i => updateJsonGroupBody J (root.ensureArray tagGroups) group (some i) data name

/-- What a group has as members. -/
inductive Member where
  | host | target
  deriving DecidableEq, Repr

/-- The tag of one member, as the messages name it. -/
def Member.tag : Member → String
  | .host => tagHost
  | .target => tagTarget

/-- The tag of the list of members, in a group and at the root. -/
def Member.parentTag : Member → String
  | .host => tagHosts
  | .target => tagTargets

/-- The alias a request names: the one of its URI, or the one of its body cut to the buffer; nothing when the body has none. -/
def memberAlias (J : JsonLib) (data : Option String) (name : String) : Option String :=
  match data with
  | none => some name
  | some d =>
    if d = "" then none
    else (J.loads d).bind (fun new => (new.objectGet tagAlias).map (fun value => cCut maxString (cStr value.stringValue)))

def setJsonGroupMember (J : JsonLib) (root : Json) (group : String) (data : Option String) (name : String) (kind : Member)
    (out : String) : Except Fault (Reply String) :=
  match root.objectGet tagGroups with
  | none => .ok { ret := -enoent, resp := s!"{tagGroup} '{group}' not found", root := root, out := out }
  | some groups =>
    match findArray groups tagName group with
    | none => .ok { ret := -enoent, resp := s!"{tagGroup} '{group}' not found", root := root, out := out }
    | some i =>
      match memberAlias J data name with
      | none => .ok (invalidJsonSyntax root out)
      | some member =>
        match root.objectGet kind.parentTag with
        | none => .ok { ret := -enoent, resp := s!"{kind.tag} '{member}' not found", root := root, out := out }
        | some parent =>
          match findArray parent tagAlias member with
          | none => .ok { ret := -enoent, resp := s!"{kind.tag} '{member}' not found", root := root, out := out }
          | some _ =>
            match strcpy maxAliasSize (some member) with
            | .error f => .error f
            | .ok newalias =>
              .ok { ret := 0
                    resp := s!"Added {kind.tag} '{member}' to {tagGroup} '{group}'"
                    root :=
                      match findArrayString ((arrayGet groups i).arrayOr kind.parentTag) member with
                      | some _ => root.putAt tagGroups i ((arrayGet groups i).ensureArray kind.parentTag)
                      | none => root.putAt tagGroups i ((arrayGet groups i).pushAt kind.parentTag (.string member))
                    out := newalias }

def delJsonGroupMember (root : Json) (group : String) (member : Option String) (kind : Member) :
    Except Fault (Reply Unit) :=
  match root.objectGet tagGroups with
  | none => .ok { ret := -enoent, resp := s!"{tagGroup} '{group}' not found", root := root, out := () }
  | some groups =>
    match findArray groups tagName group with
    | none => .ok { ret := -enoent, resp := s!"{tagGroup} '{group}' not found", root := root, out := () }
    | some i =>
      match (arrayGet groups i).objectGet kind.parentTag with
      | none =>
        .ok { ret := -enoent
              resp := s!"{kind.tag} '{cStr member}' not found in {tagGroup} '{group}'"
              root := root
              out := () }
      | some parent =>
        match findArrayStringPtr parent member with
        | .error f => .error f
        | .ok none =>
          .ok { ret := -enoent
                resp := s!"{kind.tag} '{cStr member}' not found in {tagGroup} '{group}'"
                root := root
                out := () }
        | .ok (some j) =>
          .ok { ret := 0
                resp := s!"Removed {kind.tag} '{cStr member}' from {tagGroup} '{group}'"
                root := root.putAt tagGroups i ((arrayGet groups i).removeAt kind.parentTag j)
                out := () }

def delJsonGroup (root : Json) (group : String) : Reply Unit :=
  match root.objectGet tagGroups with
  | none => { ret := -enoent, resp := s!"{tagGroup} '{group}' not found", root := root, out := () }
  | some groups =>
    match findArray groups tagName group with
    | none => { ret := -enoent, resp := s!"{tagGroup} '{group}' not found", root := root, out := () }
    | some i =>
      { ret := 0, resp := s!"{tagGroup} '{group}' deleted", root := root.removeAt tagGroups i, out := () }

/-! ## A member renamed or deleted -/

/-- The first element of a list of aliases that is `old` becomes `new`. -/
def renameFirst (old new : String) (array : Json) : Json :=
  match findArrayString array old with
  | some j => array.arraySet j (.string new)
  | none => array

/-- The first element of a list of aliases that is `name` is removed. -/
def removeFirst (name : String) (array : Json) : Json :=
  match findArrayString array name with
  | some j => array.arrayRemove j
  | none => array

/-- In every group, the first mention of a member is renamed. -/
def renameInGroups (root : Json) (tag member newalias : String) : Json :=
  root.adjust tagGroups (Json.arrayMap (fun group => group.adjust tag (renameFirst member newalias)))

/-- In every group, the first mention of a member is removed. -/
def delFromGroups (root : Json) (tag member : String) : Json :=
  root.adjust tagGroups (Json.arrayMap (fun group => group.adjust tag (removeFirst member)))

end NvmeDem
