import NvmeDem.Lemmas.Members
import NvmeDem.Lemmas.Refusals

/-!
# Walks that reach every mention

A walk over the groups or over the lists of allowed hosts edits the first mention of a name in each list. In a list that has no
name twice the first mention is the only one, and the walk is a filter or a map of the whole list.
-/

namespace NvmeDem

open Jansson

/-- A list of names without a name. -/
def listWithout (name : String) : Json → Json := Json.arrayFilter (fun v => decide (v.stringValue ≠ some name))

/-- A list of names with a name in the place of another. -/
def listRenamed (old new : String) : Json → Json :=
  Json.arrayMap (fun v => if v.stringValue = some old then .string new else v)

/-- A list that does not have a name is as it was without it. -/
theorem listWithout_eq_self {name : String} {array : Json} (h : name ∉ array.elems.filterMap Json.stringValue) :
    listWithout name array = array :=
  Json.arrayFilter_eq_self (fun x hx => decide_eq_true (fun hval => h (List.mem_filterMap.mpr ⟨x, hx, hval⟩)))

theorem removeFirst_eq {name : String} {array : Json} (hn : (array.elems.filterMap Json.stringValue).Nodup) :
    removeFirst name array = listWithout name array := by
  unfold removeFirst
  split
  · rename_i j hj
    have hget := findArrayString_some hj
    cases array with
    | array xs => exact congrArg Json.array (Keyed.eraseIdx_eq_filter hget rfl hn)
    | _ => simp [Json.elems] at hget
  · rename_i hnone
    exact (listWithout_eq_self (findArrayString_none hnone)).symm

theorem renameFirst_eq {old new : String} {array : Json} (hn : (array.elems.filterMap Json.stringValue).Nodup) :
    renameFirst old new array = listRenamed old new array := by
  unfold renameFirst
  split
  · rename_i j hj
    have hget := findArrayString_some hj
    cases array with
    | array xs => exact congrArg Json.array (Keyed.set_eq_map (fun _ => Json.string new) hget rfl hn)
    | _ => simp [Json.elems] at hget
  · rename_i hnone
    refine (Json.arrayMap_eq_self (fun x hx => if_neg (fun hval => ?_))).symm
    exact findArrayString_none hnone (List.mem_filterMap.mpr ⟨x, hx, hval⟩)

/-- The list of hosts of every subsystem of a target, edited. -/
def onAccessLists (f : Json → Json) (tgt : Json) : Json :=
  tgt.adjust tagSubsystems (Json.arrayMap (fun subsys => subsys.adjust tagHosts f))

/-- The list of hosts of every subsystem of every target and of every group, edited. -/
def onHostLists (f : Json → Json) (root : Json) : Json :=
  (root.adjust tagTargets (Json.arrayMap (onAccessLists f))).adjust tagGroups
    (Json.arrayMap (fun group => group.adjust tagHosts f))

/-- No list of hosts of a group has a host twice. -/
def GroupListsNodup (root : Json) : Prop := ∀ group ∈ root.entries tagGroups, (group.strings tagHosts).Nodup

/-- No list of hosts of a subsystem has a host twice. -/
def AccessListsNodup (root : Json) : Prop :=
  ∀ tgt ∈ root.entries tagTargets, ∀ subsys ∈ tgt.entries tagSubsystems, (subsys.strings tagHosts).Nodup

theorem elems_hosts (j : Json) : (j.arrayOr tagHosts).elems.filterMap Json.stringValue = j.strings tagHosts := by
  rw [Json.elems_arrayOr]
  rfl

/-- The walk over the groups that removes a host. -/
theorem delFromGroups_eq {root : Json} {name : String} (hn : GroupListsNodup root) :
    delFromGroups root tagHosts name =
      root.adjust tagGroups (Json.arrayMap (fun group => group.adjust tagHosts (listWithout name))) := by
  refine Json.adjust_congr (Json.arrayMap_congr (fun group hgroup => Json.adjust_congr (removeFirst_eq ?_)))
  rw [elems_hosts]
  exact hn group (by rwa [Json.elems_arrayOr] at hgroup)

/-- The walk over the groups that renames a host. -/
theorem renameInGroups_eq {root : Json} {old new : String} (hn : GroupListsNodup root) :
    renameInGroups root tagHosts old new =
      root.adjust tagGroups (Json.arrayMap (fun group => group.adjust tagHosts (listRenamed old new))) := by
  refine Json.adjust_congr (Json.arrayMap_congr (fun group hgroup => Json.adjust_congr (renameFirst_eq ?_)))
  rw [elems_hosts]
  exact hn group (by rwa [Json.elems_arrayOr] at hgroup)

/-- The walk over the lists of allowed hosts that renames a host. -/
theorem renameInAllowedHosts_eq {root : Json} {old new : String} (hn : AccessListsNodup root) :
    renameInAllowedHosts root old new = root.adjust tagTargets (Json.arrayMap (onAccessLists (listRenamed old new))) := by
  refine Json.adjust_congr (Json.arrayMap_congr (fun tgt htgt => Json.adjust_congr (Json.arrayMap_congr
    (fun subsys hsubsys => Json.adjust_congr (renameFirst_eq ?_)))))
  rw [elems_hosts]
  rw [Json.elems_arrayOr] at htgt hsubsys
  exact hn tgt htgt subsys hsubsys

/-! ## The walk that looks at the wrong subsystem -/

/-- A turn of the walk leaves the subsystems as they are, or removes one. -/
theorem delAllowedStep_elems (i : Nat) (name : String) (array : Json) :
    delAllowedStep i name array = array ∨ (delAllowedStep i name array).elems.length < array.elems.length := by
  unfold delAllowedStep
  split
  · exact Or.inl rfl
  · split
    · rename_i idx _
      by_cases hidx : idx < array.elems.length
      · right
        rw [Json.elems_arrayRemove, List.length_eraseIdx_of_lt hidx]
        exact Nat.sub_lt (Nat.zero_lt_of_lt hidx) Nat.one_pos
      · left
        cases array with
        | array xs => exact congrArg Json.array (List.eraseIdx_of_length_le (Nat.le_of_not_lt hidx))
        | _ => rfl
    · exact Or.inl rfl

/-- The turns together: no subsystem is changed, and if not all are left there are fewer of them. -/
theorem foldl_delAllowedStep (i : Nat) (name : String) (turns : List Nat) (array : Json) :
    turns.foldl (fun array _ => delAllowedStep i name array) array = array ∨
      (turns.foldl (fun array _ => delAllowedStep i name array) array).elems.length < array.elems.length := by
  induction turns generalizing array with
  | nil => exact Or.inl rfl
  | cons turn turns ih =>
    rw [List.foldl_cons]
    rcases delAllowedStep_elems i name array with hsame | hless
    · rw [hsame]
      exact ih array
    · rcases ih (delAllowedStep i name array) with hsame | hless'
      · rw [hsame]
        exact Or.inr hless
      · exact Or.inr (Nat.lt_trans hless' hless)

/-- A turn finds nothing when no subsystem names the host. -/
theorem delAllowedStep_of_not_mem {i : Nat} {name : String} {array : Json}
    (h : ∀ subsys ∈ array.elems, name ∉ subsys.strings tagHosts) : delAllowedStep i name array = array := by
  unfold delAllowedStep
  split
  · rfl
  · rename_i list hlist
    split
    · rename_i idx hidx
      refine absurd ?_ (h (arrayGet array i) ?_)
      · have hget := findArrayString_some hidx
        rw [← elems_hosts, arrayOr_of_objectGet hlist]
        exact List.mem_filterMap.mpr ⟨_, List.mem_of_getElem? hget, rfl⟩
      · unfold arrayGet at hlist ⊢
        cases hx : array.elems[i]? with
        | none => rw [hx] at hlist; cases hlist
        | some x => exact List.mem_of_getElem? hx
    · rfl

theorem foldl_delAllowedStep_of_not_mem {i : Nat} {name : String} {array : Json} (turns : List Nat)
    (h : ∀ subsys ∈ array.elems, name ∉ subsys.strings tagHosts) :
    turns.foldl (fun array _ => delAllowedStep i name array) array = array := by
  induction turns with
  | nil => rfl
  | cons turn turns ih => rw [List.foldl_cons, delAllowedStep_of_not_mem h, ih]

end NvmeDem
