import NvmeDem.Store.Targets
import NvmeDem.Lemmas.Hosts
import NvmeDem.Lemmas.Subsystems

/-!
# What a target function can do

One statement for each function that adds, changes or deletes a target.
-/

namespace NvmeDem

open Jansson

theorem strField_newTarget (tgt : Option String) : (newTarget tgt).strField tagAlias = tgt := by
  cases tgt <;> rfl

theorem addJsonTarget_ok {root : Json} {tgt : Option String} {r : Reply Unit} (h : addJsonTarget root tgt = .ok r) :
    (r.ret ≠ 0 ∧ r.root = root) ∨
      (r.ret = 0 ∧ (∀ a, tgt = some a → a ∉ root.keys tagTargets tagAlias) ∧
        r.root = root.pushAt tagTargets (newTarget tgt)) := by
  unfold addJsonTarget at h
  split at h
  · cases h
  · cases h
    exact Or.inl ⟨eexist_ne, rfl⟩
  · rename_i hfind
    cases h
    refine Or.inr ⟨rfl, ?_, rfl⟩
    rintro a rfl
    exact findArray_arrayOr_none (Except.ok.inj hfind)

/-! ## The fields an update writes -/

theorem objectGet_updateInterface {iter iter' new : Json} {target target' : TargetArg} {k : String}
    (h : updateInterface iter new target = .ok (iter', target')) (hk : k ≠ tagInterface) :
    iter'.objectGet k = iter.objectGet k := by
  unfold updateInterface at h
  split at h
  · cases h
    exact Json.objectGet_objectDel_ne hk iter
  · split at h
    · cases h
      rfl
    · rename_i newobj hnew
      cases hupd : updateOobInterface ((iter.objectGet tagInterface).getD (.object [])) newobj target.oob with
      | error f => simp [hupd, Except.map] at h
      | ok p =>
        simp only [hupd, Except.map, Except.ok.injEq, Prod.mk.injEq] at h
        rw [← h.1]
        exact Json.objectGet_objectSet_ne hk iter _
  · split at h
    · cases h
      rfl
    · rename_i newobj hnew
      cases hupd : updateInbInterface ((iter.objectGet tagInterface).getD (.object [])) newobj target.inb with
      | error f => simp [hupd, Except.map] at h
      | ok p =>
        simp only [hupd, Except.map, Except.ok.injEq, Prod.mk.injEq] at h
        rw [← h.1]
        exact Json.objectGet_objectSet_ne hk iter _

/-- An update writes the refresh period, the mode and the interface of a target, and no other field. -/
theorem objectGet_updateTargetFields {iter iter' new : Json} {target target' : TargetArg} {k : String}
    (h : updateTargetFields iter new target = .ok (iter', target')) (h₁ : k ≠ tagRefresh) (h₂ : k ≠ tagMgmtMode)
    (h₃ : k ≠ tagInterface) : iter'.objectGet k = iter.objectGet k := by
  unfold updateTargetFields at h
  obtain ⟨⟨iter₂, mode⟩, hmode, hrest⟩ := bind_eq_ok h
  rw [objectGet_updateInterface hrest h₃, objectGet_jsonUpdateStringEx_ne h₂ hmode]
  exact objectGet_jsonUpdateIntEx_ne h₁ iter new _

/-- What an update of a target keeps: the alias and the arrays. -/
structure SameParts (t t' : Json) : Prop where
  ports : t'.entries tagPortids = t.entries tagPortids
  subsystems : t'.entries tagSubsystems = t.entries tagSubsystems

theorem SameParts.of_update {iter iter' new : Json} {target target' : TargetArg}
    (h : updateTargetFields iter new target = .ok (iter', target')) : SameParts iter iter' := by
  constructor
  · simp only [Json.entries, objectGet_updateTargetFields (k := tagPortids) h (by decide) (by decide) (by decide)]
  · simp only [Json.entries, objectGet_updateTargetFields (k := tagSubsystems) h (by decide) (by decide) (by decide)]

theorem SameParts.of_rename (t new : Json) : SameParts t (jsonUpdateString t new tagAlias) := by
  constructor
  · simp only [Json.entries, objectGet_jsonUpdateString_ne (k := tagPortids) (y := tagAlias) (by decide)]
  · simp only [Json.entries, objectGet_jsonUpdateString_ne (k := tagSubsystems) (y := tagAlias) (by decide)]

theorem SameParts.trans {t t' t'' : Json} (h : SameParts t t') (h' : SameParts t' t'') : SameParts t t'' :=
  ⟨h'.ports.trans h.ports, h'.subsystems.trans h.subsystems⟩

theorem name_updateInterface {iter iter' new : Json} {target target' : TargetArg}
    (h : updateInterface iter new target = .ok (iter', target')) : target'.name = target.name := by
  unfold updateInterface at h
  split at h
  · cases h
    rfl
  · split at h
    · cases h
      rfl
    · obtain ⟨r, -, heq⟩ := map_eq_ok h
      cases heq
      rfl
  · split at h
    · cases h
      rfl
    · obtain ⟨r, -, heq⟩ := map_eq_ok h
      cases heq
      rfl

/-- The caller is given the name that it passed in. -/
theorem name_updateTargetFields {iter iter' new : Json} {target target' : TargetArg}
    (h : updateTargetFields iter new target = .ok (iter', target')) : target'.name = target.name := by
  unfold updateTargetFields at h
  obtain ⟨⟨iter₂, mode⟩, -, hrest⟩ := bind_eq_ok h
  exact (name_updateInterface (show updateInterface _ _ _ = .ok (iter', target') from hrest)).trans rfl

theorem strField_updateTargetFields {iter iter' new : Json} {target target' : TargetArg}
    (h : updateTargetFields iter new target = .ok (iter', target')) : iter'.strField tagAlias = iter.strField tagAlias := by
  simp only [Json.strField, objectGet_updateTargetFields (k := tagAlias) h (by decide) (by decide) (by decide)]

/-- The new alias of a target is in its entry. -/
theorem strField_target_renamed {t t' new : Json} {old buf : String} {arg out : TargetArg} (hold : t.strField tagAlias = some old)
    (hbody : new.strField tagAlias = some buf) (h : updateTargetFields (jsonUpdateString t new tagAlias) new arg = .ok (t', out)) :
    t'.strField tagAlias = some buf := by
  rw [strField_updateTargetFields h]
  exact strField_jsonUpdateString_self (by rw [hold]; rfl) hbody

/-! ## Updating -/

/-- What `updateJsonTarget` does when it returns zero: `new` is the body, `arg` what the caller passed in. -/
inductive TargetUpdate (root new : Json) (arg : TargetArg) : Option String → TargetArg → Json → Prop
  | keep {old : String} {i : Nat} {t t' : Json} {out : TargetArg} (ht : TargetAt root old i t)
      (hupd : updateTargetFields t new { arg with name := cCut maxAliasSize old } = .ok (t', out)) :
      TargetUpdate root new arg (some old) out (root.putAt tagTargets i t')
  | rename {old buf : String} {i : Nat} {t t' : Json} {out : TargetArg} (ht : TargetAt root old i t)
      (hbody : new.strField tagAlias = some buf) (hne : old ≠ buf) (hfresh : buf ∉ root.keys tagTargets tagAlias)
      (hupd : updateTargetFields (jsonUpdateString t new tagAlias) new { arg with name := cCut maxAliasSize buf }
        = .ok (t', out)) :
      TargetUpdate root new arg (some old) out
        ((renameInGroups (root.putAt tagTargets i (jsonUpdateString t new tagAlias)) tagTargets old buf).putAt
          tagTargets i t')
  | create {buf : String} {t' : Json} {out : TargetArg} (hbody : new.strField tagAlias = some buf)
      (hfresh : buf ∉ root.keys tagTargets tagAlias) (hpush : root.canPush tagTargets = true)
      (hupd : updateTargetFields (newTarget (some buf)) new { arg with name := cCut maxAliasSize buf } = .ok (t', out)) :
      TargetUpdate root new arg none out (root.pushAt tagTargets t')

theorem updateJsonTargetFields_ok {root new t : Json} {tgt : Option String} {i : Nat} {buf : String} {arg : TargetArg}
    {r : Reply TargetArg} (h : updateJsonTargetFields root new tgt i buf arg = .ok r)
    (ht : (root.entries tagTargets)[i]? = some t) :
    r.ret = 0 ∧ ∃ t', updateTargetFields t new { arg with name := cCut maxAliasSize buf } = .ok (t', r.out) ∧
      r.root = root.putAt tagTargets i t' := by
  unfold updateJsonTargetFields at h
  rw [arrayGet_arrayOr ht] at h
  split at h
  · cases h
  · rename_i t' out hupd
    cases h
    exact ⟨rfl, t', hupd, rfl⟩

theorem updateJsonTargetBody_ok {J : JsonLib} {root : Json} {tgt : Option String} {at? : Option Nat} {data : String}
    {arg : TargetArg} {r : Reply TargetArg}
    (h : updateJsonTargetBody J (root.ensureArray tagTargets) tgt at? data arg = .ok r) (hat : tgt.isSome = at?.isSome)
    (hfound : ∀ a i, tgt = some a → at? = some i → TargetAt root a i (arrayGet (root.arrayOr tagTargets) i)) :
    (r.ret ≠ 0 ∧ Json.Fills root r.root) ∨
      (r.ret = 0 ∧ ∃ new, J.loads data = some new ∧ TargetUpdate root new arg tgt r.out r.root) := by
  unfold updateJsonTargetBody at h
  split at h
  · cases h
    exact Or.inl ⟨einval_ne, .ensureArray root tagTargets⟩
  · rename_i new hnew
    split at h
    · rename_i value hvalue
      split at h
      · cases h
      · rename_i buf hname
        have hstr : new.strField tagAlias = some buf := by simp [Json.strField, hvalue, strcpy_ok hname]
        split at h
        · rename_i hlook
          split at h
          · cases h
            exact Or.inl ⟨eexist_ne, .ensureArray root tagTargets⟩
          · rename_i hfresh
            rw [Json.arrayOr_ensureArray] at hfresh h
            have hfresh := findArray_arrayOr_none (Option.not_isSome_iff_eq_none.mp hfresh)
            refine Or.inr ?_
            split at h
            · rename_i old i
              have ht := hfound old i rfl rfl
              rw [Json.ensureArray_of_entries ht.get] at h
              obtain ⟨hret, t', hupd, hroot⟩ := updateJsonTargetFields_ok h (by
                rw [entries_renameInGroups_ne (by decide), Json.entries_putAt]
                exact List.getElem?_set_self (List.getElem?_eq_some_iff.mp ht.get).1)
              refine ⟨hret, new, hnew, ?_⟩
              rw [hroot]
              exact .rename ht hstr (by simpa [looksForName] using hlook) hfresh hupd
            · rename_i hcases
              obtain rfl : tgt = none := by
                cases tgt with
                | none => rfl
                | some a =>
                  obtain ⟨i, rfl⟩ := Option.isSome_iff_exists.mp (hat.symm.trans rfl)
                  exact absurd rfl (hcases a i rfl)
              split at h
              · cases h
              · rename_i root' hpush
                obtain ⟨hcan, rfl⟩ := pushShared_ok hpush
                have hcan : root.canPush tagTargets = true := by simpa [Json.canPush] using hcan
                rw [Json.pushAt_ensureArray, Json.entries_ensureArray] at h
                have hlast : ((root.pushAt tagTargets (newTarget (some buf))).entries
                    tagTargets)[(root.entries tagTargets).length]? = some (newTarget (some buf)) :=
                  Json.getElem?_entries_pushAt hcan _
                obtain ⟨hret, t', hupd, hroot⟩ := updateJsonTargetFields_ok h hlast
                refine ⟨hret, new, hnew, ?_⟩
                rw [hroot, Json.putAt_pushAt hcan]
                exact .create hstr hfresh hcan hupd
        · rename_i hlook
          split at h
          · rename_i i
            obtain ⟨old, rfl⟩ := Option.isSome_iff_exists.mp (hat.trans rfl)
            have ht := hfound old i rfl rfl
            rw [Json.ensureArray_of_entries ht.get] at h
            obtain ⟨hret, t', hupd, hroot⟩ := updateJsonTargetFields_ok h ht.get
            obtain rfl : old = buf := by simpa [looksForName] using hlook
            refine Or.inr ⟨hret, new, hnew, ?_⟩
            rw [hroot]
            exact .keep ht hupd
          · cases h
            exact Or.inl ⟨efault_ne, .ensureArray root tagTargets⟩
    · split at h
      · rename_i old i
        split at h
        · cases h
        · rename_i buf hcopy
          obtain rfl : old = buf := Option.some.inj (strcpy_ok hcopy)
          have ht := hfound old i rfl rfl
          rw [Json.ensureArray_of_entries ht.get] at h
          obtain ⟨hret, t', hupd, hroot⟩ := updateJsonTargetFields_ok h ht.get
          refine Or.inr ⟨hret, new, hnew, ?_⟩
          rw [hroot]
          exact .keep ht hupd
      · cases h
        exact Or.inl ⟨einval_ne, .ensureArray root tagTargets⟩

theorem updateJsonTarget_ok {J : JsonLib} {root : Json} {tgt : Option String} {data : String} {arg : TargetArg}
    {r : Reply TargetArg} (h : updateJsonTarget J root tgt data arg = .ok r) :
    (r.ret ≠ 0 ∧ Json.Fills root r.root) ∨
      (r.ret = 0 ∧ ∃ new, J.loads data = some new ∧ TargetUpdate root new arg tgt r.out r.root) := by
  unfold updateJsonTarget at h
  split at h
  · cases h
    exact Or.inl ⟨einval_ne, .refl root⟩
  · split at h
    · exact updateJsonTargetBody_ok h rfl (fun a i ha => by cases ha)
    · rename_i a
      split at h
      · cases h
        exact Or.inl ⟨enoent_ne, .ensureArray root tagTargets⟩
      · rename_i i hi
        refine updateJsonTargetBody_ok h rfl ?_
        rintro _ _ ⟨⟩ ⟨⟩
        exact ⟨hi, (findArray_arrayOr_some hi).1, (findArray_arrayOr_some hi).2⟩

/-! ## Deleting -/

/-- A target that keeps its alias is still found where it was. -/
theorem findArray_putAt {j x : Json} {k tag name : String} {i : Nat} (h : findArray (j.arrayOr k) tag name = some i)
    (hx : x.strField tag = some name) : findArray ((j.putAt k i x).arrayOr k) tag name = some i := by
  unfold findArray at h ⊢
  rw [Json.elems_arrayOr] at h ⊢
  rw [Json.entries_putAt]
  obtain ⟨hi, -, hlt⟩ := List.findIdx?_eq_some_iff_getElem.mp h
  refine List.findIdx?_eq_some_iff_getElem.mpr ⟨by simpa using hi, by simpa using hx, ?_⟩
  intro j hj
  rw [List.getElem_set_ne (Nat.ne_of_gt hj)]
  exact hlt j hj

/-- The loop of `delJsonTarget` changes nothing but the target it empties. -/
theorem removeAt_delJsonTargetSubsystems {tgt : String} {i n : Nat} {root root' : Json}
    (h : delJsonTargetSubsystems tgt i n root = .ok root')
    (hi : findArray (root.arrayOr tagTargets) tagAlias tgt = some i) :
    root'.removeAt tagTargets i = root.removeAt tagTargets i := by
  induction n generalizing root with
  | zero =>
    cases h
    rfl
  | succ n ih =>
    simp only [delJsonTargetSubsystems] at h
    split at h
    · cases h
    · rename_i r hr
      rcases delJsonSubsys_ok hr with ⟨-, hroot⟩ | ⟨-, i', t, j, s, nqn, ht, -, -, hroot⟩
      · rw [hroot] at h
        exact ih h hi
      · rw [hroot] at h
        obtain rfl : i = i' := Option.some.inj (hi.symm.trans ht.first)
        have hkey : (t.removeAt tagSubsystems j).strField tagAlias = some tgt := by
          rw [Json.strField_removeAt_ne (by decide), ht.key]
        rw [ih h (findArray_putAt hi hkey), Json.removeAt_putAt]

theorem delJsonTarget_ok {root : Json} {tgt : Option String} {r : Reply Unit} (h : delJsonTarget root tgt = .ok r) :
    (r.ret ≠ 0 ∧ r.root = root) ∨
      (r.ret = 0 ∧ ∃ i t name, TargetAt root name i t ∧ tgt = some name ∧
        r.root = delFromGroups (root.removeAt tagTargets i) tagTargets name) := by
  unfold delJsonTarget at h
  split at h
  · cases h
    exact Or.inl ⟨enoent_ne, rfl⟩
  · rename_i targets htargets
    split at h
    · cases h
    · cases h
      exact Or.inl ⟨enoent_ne, rfl⟩
    · rename_i i hi
      split at h
      · cases h
      · rename_i root' hloop
        cases h
        obtain ⟨name, rfl, hname⟩ | ⟨-, hnone⟩ := findArrayPtr_ok hi
        · have ht := TargetAt.of_find htargets hname
          refine Or.inr ⟨rfl, i, _, name, ht, rfl, ?_⟩
          show delFromGroups (root'.removeAt tagTargets i) tagTargets name = _
          rw [removeAt_delJsonTargetSubsystems hloop ht.first]
        · cases hnone

end NvmeDem
