import NvmeDem.Dem.Logpages
import NvmeDem.Dem.World

/-!
# The subsystems of a host

The REST interface shows, for a host, the subsystems that it may use. They are looked for in the JSON root: those that are open
to every host are shared, those whose list has the alias of the host are restricted. Whether a target in a group is left out is
asked of the lists. The walk makes the arrays of subsystems that are absent.

On the fabric the lists alone decide. `servedSubsystems` is the walk of `handleGetLogPages` that gathers the subsystems instead
of their pages.
-/

namespace NvmeDem

open Jansson

/-! ## The view of the store -/

structure HostView where
  shared : List Json := []
  restricted : List Json := []

/-- The object that stands for a subsystem of a target. -/
def addHostSubsys (name nqn : Json) : Json :=
  jsonSetStringPtr (jsonSetStringPtr (.object []) tagAlias name.stringValue) tagSubnqn nqn.stringValue

def matchString (item : Json) (str : String) : Bool := decide (item.stringValue = some str)

/-- Whether the entry of a subsystem opens it to every host; the number is not made a C `int` first. -/
def opensToAny (subsys : Json) : Bool := decide (((subsys.objectGet tagAllowAny).map Json.integerValue).getD 0 ≠ 0)

/-- One subsystem of a target. A host that its list names twice is shown twice. -/
def viewSubsys (host : String) (name : Json) (view : HostView) (subsys : Json) : HostView :=
  match subsys.objectGet tagSubnqn with
  | none => view
  | some nqn =>
    if opensToAny subsys then { view with shared := view.shared ++ [addHostSubsys name nqn] }
    else
      { view with
        restricted := view.restricted ++
          ((subsys.entries tagHosts).filter (fun item => matchString item host)).map (fun _ => addHostSubsys name nqn) }

/-- `findTarget` with a pointer that may be NULL, which is compared with the first target. -/
def findTargetPtr (lists : Lists) : Option String → Except Fault (Option Target)
  | some name => .ok (findTarget lists name)
  | none => if lists.targetList = [] then .ok none else .error .nullString

/-- Whether a host is shown the target of an entry: one that the lists do not have is shown to every host. -/
def viewedBy (lists : Lists) (host : String) : Option Target → Except Fault Bool
  | none => .ok true
  | some target => if target.groupMember then indirectSharedGroup lists target host else .ok true

/-- One target; subsystems that are not an array are left out. -/
def viewTarget (lists : Lists) (host : String) (view : HostView) (iter : Json) : Except Fault HostView :=
  match iter.objectGet tagAlias with
  | none => .ok view
  | some name =>
    if (iter.arrayOr tagSubsystems).isArray then do
      let target ← findTargetPtr lists name.stringValue
      let shared ← viewedBy lists host target
      return if shared then (iter.entries tagSubsystems).foldl (viewSubsys host name) view else view
    else .ok view

/-- The arrays that the walk makes. -/
def ensureSubsystems (root : Json) : Json :=
  root.adjust tagTargets (Json.arrayMap (fun iter =>
    if (iter.objectGet tagAlias).isSome then iter.ensureArray tagSubsystems else iter))

/-- The subsystems of a host, and the root after the walk. -/
def getHostSubsystems (root : Json) (lists : Lists) (host : String) : Except Fault (Json × HostView) := do
  let view ← (root.entries tagTargets).foldlM (viewTarget lists host) {}
  return (ensureSubsystems root, view)

/-- The alias and the NQN of an object of a view. -/
def viewedPair (obj : Json) : Option (String × String) :=
  match obj.strField tagAlias, obj.strField tagSubnqn with
  | some name, some nqn => some (name, nqn)
  | _, _ => none

/-- The subsystems of a view, as their targets' aliases and their NQNs. -/
def HostView.pairs (view : HostView) : List (String × String) := (view.shared ++ view.restricted).filterMap viewedPair

/-! ## The decision on the fabric -/

/-- The walk of the two views of log pages, for the subsystems whose pages it gathers. -/
def walkSubsystems (inTarget : Target → Except Fault Bool) (inSubsys : Subsystem → Bool) :
    List Target → Except Fault (List (Target × Subsystem))
  | [] => .ok []
  | target :: rest =>
    match if target.groupMember then inTarget target else .ok true with
    | .error f => .error f
    | .ok shared =>
      (walkSubsystems inTarget inSubsys rest).map (fun pairs =>
        (if shared then (target.subsysList.filter inSubsys).map (fun subsys => (target, subsys)) else []) ++ pairs)

/-- The subsystems whose log pages a host on the fabric is given. -/
def servedSubsystems (lists : Lists) (nqn : String) : Except Fault (List (Target × Subsystem)) :=
  walkSubsystems (fun target => sharedGroup lists target nqn)
    (fun subsys => decide (subsys.access ≠ 0) || hostAccess subsys nqn) lists.targetList

/-- The walk goes through when every target in a group can be looked up. -/
theorem walkSubsystems_ok {inTarget : Target → Except Fault Bool} (inSubsys : Subsystem → Bool) {targets : List Target}
    (h : ∀ t ∈ targets, ∃ b, (if t.groupMember then inTarget t else .ok true) = .ok b) :
    ∃ pairs, walkSubsystems inTarget inSubsys targets = .ok pairs := by
  induction targets with
  | nil => exact ⟨[], rfl⟩
  | cons t rest ih =>
    obtain ⟨b, hb⟩ := h t List.mem_cons_self
    obtain ⟨pairs, hrest⟩ := ih (fun u hu => h u (List.mem_cons_of_mem t hu))
    unfold walkSubsystems
    rw [hb, hrest]
    exact ⟨_, rfl⟩

/-- What the walk gathers: the subsystems that let the host in, of the targets that do. -/
theorem mem_walkSubsystems {inTarget : Target → Except Fault Bool} {inSubsys : Subsystem → Bool} {targets : List Target}
    {pairs : List (Target × Subsystem)} (h : walkSubsystems inTarget inSubsys targets = .ok pairs) (p : Target × Subsystem) :
    p ∈ pairs ↔ p.1 ∈ targets ∧ (if p.1.groupMember then inTarget p.1 else .ok true) = .ok true ∧ p.2 ∈ p.1.subsysList ∧
      inSubsys p.2 = true := by
  induction targets generalizing pairs with
  | nil =>
    cases h
    simp
  | cons t rest ih =>
    unfold walkSubsystems at h
    split at h
    · cases h
    · rename_i shared hshared
      obtain ⟨pairs, hrest, rfl⟩ := map_eq_ok h
      obtain ⟨target, subsys⟩ := p
      rw [List.mem_append, ih hrest, List.mem_cons]
      constructor
      · rintro (hp | ⟨htarget, hp⟩)
        · split at hp
          · rename_i htrue
            obtain ⟨subsys', hsub, heq⟩ := List.mem_map.mp hp
            obtain ⟨rfl, rfl⟩ := Prod.mk.inj heq
            obtain ⟨hsub, hin⟩ := List.mem_filter.mp hsub
            exact ⟨Or.inl rfl, htrue ▸ hshared, hsub, hin⟩
          · cases hp
        · exact ⟨Or.inr htarget, hp⟩
      · rintro ⟨rfl | htarget, hin, hsub, hsubsys⟩
        · obtain rfl : shared = true := Except.ok.inj (hshared.symm.trans hin)
          rw [if_pos rfl]
          exact Or.inl (List.mem_map.mpr ⟨subsys, List.mem_filter.mpr ⟨hsub, hsubsys⟩, rfl⟩)
        · exact Or.inr ⟨htarget, hin, hsub, hsubsys⟩

theorem walkLogPages_eq (inTarget : Target → Except Fault Bool) (inSubsys : Subsystem → Bool) (targets : List Target) :
    walkLogPages inTarget inSubsys targets =
      (walkSubsystems inTarget inSubsys targets).map (fun pairs => pairs.flatMap (fun p => p.2.validEntries)) := by
  induction targets with
  | nil => rfl
  | cons target rest ih =>
    unfold walkLogPages walkSubsystems
    rw [ih]
    cases (if target.groupMember then inTarget target else Except.ok true) with
    | error f => rfl
    | ok shared =>
      cases walkSubsystems inTarget inSubsys rest with
      | error f => rfl
      | ok pairs =>
        cases shared with
        | false => rfl
        | true => simp [Except.map, List.flatMap_append, List.flatMap_map]

/-- The pages that a host is given are the valid pages of the subsystems that are served to it. -/
theorem handleGetLogPages_eq (lists : Lists) (nqn : String) :
    handleGetLogPages lists nqn =
      (servedSubsystems lists nqn).map (fun pairs => pairs.flatMap (fun p => p.2.validEntries)) :=
  walkLogPages_eq _ _ _

end NvmeDem
