import NvmeDem.Store.Groups

/-!
# What a group function can do

One statement for each function that edits the groups: it returns an error and at most makes an absent array, or it returns
zero and makes exactly one edit, under the conditions it has checked.
-/

namespace NvmeDem

open Jansson

/-! ## Lists found under a key -/

theorem entries_of_objectGet {j v : Json} {k : String} (h : j.objectGet k = some v) : j.entries k = v.elems := by
  simp [Json.entries, h]

theorem arrayOr_of_objectGet {j v : Json} {k : String} (h : j.objectGet k = some v) : j.arrayOr k = v := by
  simp [Json.arrayOr, h]

/-- The entry a search finds under a key. -/
theorem findArray_arrayOr_some {j : Json} {k tag val : String} {i : Nat} (h : findArray (j.arrayOr k) tag val = some i) :
    (j.entries k)[i]? = some (arrayGet (j.arrayOr k) i) ∧ (arrayGet (j.arrayOr k) i).strField tag = some val := by
  rw [← Json.elems_arrayOr]
  exact findArray_some h

theorem findArray_arrayOr_none {j : Json} {k tag val : String} (h : findArray (j.arrayOr k) tag val = none) :
    val ∉ j.keys k tag := by
  rw [Json.keys, ← Json.elems_arrayOr]
  exact findArray_none h

theorem findArray_objectGet_some {j v : Json} {k tag val : String} {i : Nat} (hv : j.objectGet k = some v)
    (h : findArray v tag val = some i) :
    (j.entries k)[i]? = some (arrayGet v i) ∧ (arrayGet v i).strField tag = some val := by
  rw [entries_of_objectGet hv]
  exact findArray_some h

theorem findArray_objectGet_none {j v : Json} {k tag val : String} (hv : j.objectGet k = some v)
    (h : findArray v tag val = none) : val ∉ j.keys k tag := by
  rw [Json.keys, entries_of_objectGet hv]
  exact findArray_none h

theorem enoent_ne : -enoent ≠ 0 := by decide
theorem einval_ne : -einval ≠ 0 := by decide
theorem eexist_ne : -eexist ≠ 0 := by decide
theorem efault_ne : -efault ≠ 0 := by decide

/-! ## Groups -/

/-- The first group named `name` stands at the place `i` of the store. -/
structure GroupAt (root : Json) (name : String) (i : Nat) (x : Json) : Prop where
  first : (root.entries tagGroups).findIdx? (fun iter => decide (iter.strField tagName = some name)) = some i
  get : (root.entries tagGroups)[i]? = some x
  key : x.strField tagName = some name

theorem GroupAt.of_find {root groups : Json} {name : String} {i : Nat} (hg : root.objectGet tagGroups = some groups)
    (h : findArray groups tagName name = some i) : GroupAt root name i (arrayGet groups i) :=
  ⟨by rw [entries_of_objectGet hg]; exact h, (findArray_objectGet_some hg h).1, (findArray_objectGet_some hg h).2⟩

theorem addJsonGroup_ok {root : Json} {group : Option String} {r : Reply Unit} (h : addJsonGroup root group = .ok r) :
    (r.ret ≠ 0 ∧ r.root = root) ∨
      (r.ret = 0 ∧ (∀ g, group = some g → g ∉ root.keys tagGroups tagName) ∧
        root.canPush tagGroups = true ∧ r.root = root.pushAt tagGroups (newGroup group)) := by
  unfold addJsonGroup at h
  split at h
  · cases h
  · cases h
    exact Or.inl ⟨eexist_ne, rfl⟩
  · rename_i hfind
    split at h
    · cases h
    · rename_i root' hpush
      cases h
      refine Or.inr ⟨rfl, ?_, pushShared_ok hpush⟩
      rintro g rfl
      exact findArray_arrayOr_none (Except.ok.inj hfind)

/-- What `updateJsonGroup` does when it returns zero: `new` is the body, `newname` its name. -/
inductive GroupUpdate (root new : Json) (newname : String) : Option String → Json → Prop
  | rename {g : String} {i : Nat} {x : Json} (hx : (root.entries tagGroups)[i]? = some x)
      (hg : x.strField tagName = some g) (hfresh : g = newname ∨ newname ∉ root.keys tagGroups tagName) :
      GroupUpdate root new newname (some g) (root.putAt tagGroups i (jsonUpdateString x new tagName))
  | create (hfresh : newname = "" ∨ newname ∉ root.keys tagGroups tagName) (hpush : root.canPush tagGroups = true) :
      GroupUpdate root new newname none (root.pushAt tagGroups (newGroupFrom newname))

/-- A name that was looked for and not found is new, and one that was not looked for is the one that is there, or empty. -/
theorem looksForName_and_isSome {root : Json} {k tag newname : String} {old : Option String}
    (h : ¬(looksForName old newname && (findArray (root.arrayOr k) tag newname).isSome) = true) :
    old = some newname ∨ (old = none ∧ newname = "") ∨ newname ∉ root.keys k tag := by
  simp only [Bool.and_eq_true, not_and_or] at h
  rcases h with h | h
  · cases old with
    | none => simp only [looksForName, decide_eq_true_eq, not_not] at h; exact Or.inr (Or.inl ⟨rfl, h⟩)
    | some g =>
      simp only [looksForName, decide_eq_true_eq, not_not] at h
      exact Or.inl (congrArg some h)
  · exact Or.inr (Or.inr (findArray_arrayOr_none (Option.not_isSome_iff_eq_none.mp h)))

theorem updateJsonGroupBody_ok {J : JsonLib} {root : Json} {group : Option String} {at? : Option Nat} {data name : String}
    {r : Reply String} (h : updateJsonGroupBody J (root.ensureArray tagGroups) group at? data name = .ok r)
    (hat : group.isSome = at?.isSome)
    (hfound : ∀ g i, group = some g → at? = some i → (root.entries tagGroups)[i]? = some (arrayGet (root.arrayOr tagGroups) i) ∧
      (arrayGet (root.arrayOr tagGroups) i).strField tagName = some g) :
    (r.ret ≠ 0 ∧ Json.Fills root r.root) ∨
      (r.ret = 0 ∧ ∃ new newname, J.loads data = some new ∧ new.strField tagName = some newname ∧
        GroupUpdate root new newname group r.root) := by
  unfold updateJsonGroupBody at h
  split at h
  · cases h
    exact Or.inl ⟨einval_ne, .ensureArray root tagGroups⟩
  · rename_i new hnew
    split at h
    · cases h
      exact Or.inl ⟨einval_ne, .ensureArray root tagGroups⟩
    · rename_i value hvalue
      split at h
      · cases h
      · rename_i newname hname
        have hstr : new.strField tagName = some newname := by simp [Json.strField, hvalue, strcpy_ok hname]
        split at h
        · cases h
          exact Or.inl ⟨eexist_ne, .ensureArray root tagGroups⟩
        · rename_i hfresh
          rw [Json.arrayOr_ensureArray] at hfresh
          have hfresh := looksForName_and_isSome hfresh
          split at h
          · cases h
          · refine Or.inr ?_
            split at h
            · rename_i i
              cases h
              obtain ⟨g, rfl⟩ := Option.isSome_iff_exists.mp (hat.trans rfl)
              obtain ⟨hx, hg⟩ := hfound g i rfl rfl
              refine ⟨rfl, new, newname, hnew, hstr, ?_⟩
              simp only [Json.ensureArray_of_entries hx]
              exact .rename hx hg (by simpa using hfresh)
            · split at h
              · cases h
              · rename_i root' hpush
                cases h
                obtain rfl : group = none := by simpa using hat
                obtain ⟨hcan, rfl⟩ := pushShared_ok hpush
                refine ⟨rfl, new, newname, hnew, hstr, ?_⟩
                rw [Json.pushAt_ensureArray]
                exact .create (by simpa using hfresh) (by simpa [Json.canPush] using hcan)

theorem updateJsonGroup_ok {J : JsonLib} {root : Json} {group : Option String} {data name : String} {r : Reply String}
    (h : updateJsonGroup J root group data name = .ok r) :
    (r.ret ≠ 0 ∧ Json.Fills root r.root) ∨
      (r.ret = 0 ∧ ∃ new newname, J.loads data = some new ∧ new.strField tagName = some newname ∧
        GroupUpdate root new newname group r.root) := by
  unfold updateJsonGroup at h
  split at h
  · cases h
    exact Or.inl ⟨einval_ne, .refl root⟩
  · split at h
    · exact updateJsonGroupBody_ok h rfl (fun g i hg => by cases hg)
    · rename_i g
      split at h
      · cases h
        exact Or.inl ⟨enoent_ne, .ensureArray root tagGroups⟩
      · rename_i i hi
        refine updateJsonGroupBody_ok h rfl ?_
        rintro _ _ ⟨⟩ ⟨⟩
        exact findArray_arrayOr_some hi

/-- What `setJsonGroupMember` does when it returns zero: the member, which is there, is on the list of the group. -/
theorem setJsonGroupMember_ok {J : JsonLib} {root : Json} {group name out : String} {data : Option String} {kind : Member}
    {r : Reply String} (h : setJsonGroupMember J root group data name kind out = .ok r) :
    (r.ret ≠ 0 ∧ r.root = root) ∨
      (r.ret = 0 ∧ ∃ i x member, GroupAt root group i x ∧ memberAlias J data name = some member ∧ r.out = member ∧
        member ∈ root.keys kind.parentTag tagAlias ∧
        ((member ∈ x.strings kind.parentTag ∧ r.root = root.putAt tagGroups i (x.ensureArray kind.parentTag)) ∨
          (member ∉ x.strings kind.parentTag ∧
            r.root = root.putAt tagGroups i (x.pushAt kind.parentTag (.string member))))) := by
  unfold setJsonGroupMember at h
  split at h
  · cases h
    exact Or.inl ⟨enoent_ne, rfl⟩
  · rename_i groups hgroups
    split at h
    · cases h
      exact Or.inl ⟨enoent_ne, rfl⟩
    · rename_i i hi
      split at h
      · cases h
        exact Or.inl ⟨einval_ne, rfl⟩
      · rename_i member hmember
        split at h
        · cases h
          exact Or.inl ⟨enoent_ne, rfl⟩
        · rename_i parent hparent
          split at h
          · cases h
            exact Or.inl ⟨enoent_ne, rfl⟩
          · rename_i p hp
            have hkey : member ∈ root.keys kind.parentTag tagAlias := by
              obtain ⟨hp₁, hp₂⟩ := findArray_objectGet_some hparent hp
              exact List.mem_filterMap.mpr ⟨_, List.mem_of_getElem? hp₁, hp₂⟩
            split at h
            · cases h
            · rename_i newalias hcopy
              cases h
              refine Or.inr ⟨rfl, i, arrayGet groups i, member, .of_find hgroups hi, hmember, ?_, hkey, ?_⟩
              · exact (Option.some.inj (strcpy_ok hcopy)).symm
              · cases hfind : findArrayString ((arrayGet groups i).arrayOr kind.parentTag) member with
                | some k =>
                  refine Or.inl ⟨?_, rfl⟩
                  have hk := findArrayString_some hfind
                  rw [Json.elems_arrayOr] at hk
                  exact List.mem_filterMap.mpr ⟨_, List.mem_of_getElem? hk, rfl⟩
                | none =>
                  refine Or.inr ⟨?_, rfl⟩
                  have hk := findArrayString_none hfind
                  rwa [Json.elems_arrayOr] at hk

theorem delJsonGroupMember_ok {root : Json} {group : String} {member : Option String} {kind : Member} {r : Reply Unit}
    (h : delJsonGroupMember root group member kind = .ok r) :
    (r.ret ≠ 0 ∧ r.root = root) ∨
      (r.ret = 0 ∧ ∃ i x j m, GroupAt root group i x ∧ member = some m ∧
        (x.entries kind.parentTag).findIdx? (fun iter => decide (iter.stringValue = some m)) = some j ∧
        (x.entries kind.parentTag)[j]? = some (.string m) ∧ r.root = root.putAt tagGroups i (x.removeAt kind.parentTag j)) := by
  unfold delJsonGroupMember at h
  split at h
  · cases h
    exact Or.inl ⟨enoent_ne, rfl⟩
  · rename_i groups hgroups
    split at h
    · cases h
      exact Or.inl ⟨enoent_ne, rfl⟩
    · rename_i i hi
      split at h
      · cases h
        exact Or.inl ⟨enoent_ne, rfl⟩
      · rename_i parent hparent
        split at h
        · cases h
        · cases h
          exact Or.inl ⟨enoent_ne, rfl⟩
        · rename_i j hj
          cases h
          obtain ⟨m, rfl, hm⟩ | ⟨-, hnone⟩ := findArrayStringPtr_ok hj
          · have hget := findArrayString_some hm
            unfold findArrayString at hm
            rw [← entries_of_objectGet hparent] at hget hm
            exact Or.inr ⟨rfl, i, _, j, m, .of_find hgroups hi, rfl, hm, hget, rfl⟩
          · cases hnone

theorem delJsonGroup_ok (root : Json) (group : String) :
    ((delJsonGroup root group).ret ≠ 0 ∧ (delJsonGroup root group).root = root) ∨
      ((delJsonGroup root group).ret = 0 ∧ ∃ i x, GroupAt root group i x ∧ (delJsonGroup root group).root = root.removeAt tagGroups i) := by
  unfold delJsonGroup
  split
  · exact Or.inl ⟨enoent_ne, rfl⟩
  · rename_i groups hgroups
    split
    · exact Or.inl ⟨enoent_ne, rfl⟩
    · rename_i i hi
      exact Or.inr ⟨rfl, i, _, .of_find hgroups hi, rfl⟩

end NvmeDem
