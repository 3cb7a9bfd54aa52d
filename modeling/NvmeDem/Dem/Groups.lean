import NvmeDem.Dem.World

/-!
# Requests on groups

A group is found by its name each time. A rename looks for the new name, and makes a group when there is none: the group that
had the old name stays as it is.
-/

namespace NvmeDem

open Jansson

/-! ## Groups -/

def initGroup (lists : Lists) (w : World) (name : String) : Lists :=
  { lists with groupList := lists.groupList ++ [{ ptr := w.addr, name := cCut maxAliasSize name }] }

def addGroup (w : World) (d : Daemon) (name : Option String) : Except Fault Answer :=
  afterStore d (addJsonGroup d.root name) (fun r =>
    match name with
    | none => .error .nullString
    | some name => .ok { ret := 0, resp := r.resp, dem := { root := r.root, lists := initGroup d.lists w name } })

def updateGroup (J : JsonLib) (w : World) (d : Daemon) (name : Option String) (data : String) : Except Fault Answer :=
  afterStore d (updateJsonGroup J d.root name data w.name) (fun r =>
    let lists := if (findGroup d.lists r.out).isSome then d.lists else initGroup d.lists w r.out
    .ok { ret := 0, resp := r.resp, dem := { root := r.root, lists := lists } })

/-- The links of the group go; its targets are not told. -/
def delGroup (d : Daemon) (name : String) : Except Fault Answer :=
  afterStore d (.ok (delJsonGroup d.root name)) (fun r =>
    match findGroup d.lists name with
    | none => .error .nullPointer
    | some group =>
      .ok { ret := 0
            resp := r.resp
            dem :=
              { root := r.root
                lists :=
                  { d.lists with
                    groupList := d.lists.groupList.eraseP (fun g => g.name == name)
                    hostList := d.lists.hostList.filter (fun link => link.group != some group.ptr) } } })

/-! ## Members -/

/-- Link a host to a group. Its NQN is that of the store; `nqn` is what the buffer holds if the store has none. -/
def addHostToGroup (root : Json) (lists : Lists) (group : Option Group) (name nqn : String) : Except Fault Lists := do
  let (_, nqn) ← getJsonHostNqn root name nqn
  let name ← strcpy maxAliasSize (some name)
  return { lists with
    hostList := lists.hostList ++ [{ group := group.map Group.ptr, name := name, nqn := nqn }] }

/-- Link a target to a group; a target that is not found is not linked. -/
def addTargetToGroup (lists : Lists) (group : Option Group) (name : String) : Except Fault Lists :=
  match findTarget lists name with
  | none => .ok lists
  | some target =>
    match group with
    | none => .error .nullPointer
    | some group =>
      let lists :=
        { lists.onTarget name (fun t => { t with groupMember := true }) with
          groupList := Keyed.modifyFirst (fun g => g.ptr == group.ptr)
            (fun g => { g with targetList := g.targetList ++ [target.ptr] }) lists.groupList }
      .ok (lists.notify (createEventHostListForGroup lists (fun link => link.group == some group.ptr) target))

def addToGroup (w : World) (root : Json) (lists : Lists) (group : Option Group) (name : String) :
    Member → Except Fault Lists
  | .host => addHostToGroup root lists group name w.host.nqn
  | .target => addTargetToGroup lists group name

def setGroupMember (J : JsonLib) (w : World) (d : Daemon) (name : String) (data : Option String) (member : String)
    (kind : Member) : Except Fault Answer :=
  afterStore d (setJsonGroupMember J d.root name data member kind w.name) (fun r => do
    let lists ← addToGroup w r.root d.lists (findGroup d.lists name) r.out kind
    return { ret := 0, resp := r.resp, dem := { root := r.root, lists := lists } })

/-- The alias is looked for among the NQNs of the links. -/
def delHostFromGroup (lists : Lists) (group : Option Group) (name : String) : Lists :=
  { lists with
    hostList := lists.hostList.eraseP (fun link => link.group == group.map Group.ptr && link.nqn == name) }

/-- Unlink a target from a group. When no group is left that the target is linked to, hosts are notified: the loop that looked
for one has gone past the last group, so that no link is of the group that they are looked for in. -/
def delTargetFromGroup (lists : Lists) (group : Option Group) (name : String) : Except Fault Lists :=
  match findTarget lists name with
  | none => .ok lists
  | some target =>
    match group with
    | none => .error .nullPointer
    | some group =>
      if target.ptr ∈ group.targetList then
        let lists :=
          { lists with
            groupList := Keyed.modifyFirst (fun g => g.ptr == group.ptr)
              (fun g => { g with targetList := g.targetList.erase target.ptr }) lists.groupList }
        if lists.groupList.any (fun g => target.ptr ∈ g.targetList) then .ok lists
        else
          let lists := lists.onTarget name (fun t => { t with groupMember := false })
          .ok (lists.notify (createEventHostListForGroup lists (fun _ => false) target))
      else .ok lists

def delFromGroup (lists : Lists) (group : Option Group) : Option String → Member → Except Fault Lists
  | none, _ => .error .nullString
  | some name, .host => .ok (delHostFromGroup lists group name)
  | some name, .target => delTargetFromGroup lists group name

def delGroupMember (d : Daemon) (name : String) (member : Option String) (kind : Member) : Except Fault Answer :=
  afterStore d (delJsonGroupMember d.root name member kind) (fun r => do
    let lists ← delFromGroup d.lists (findGroup d.lists name) member kind
    return { ret := 0, resp := r.resp, dem := { root := r.root, lists := lists } })

end NvmeDem
