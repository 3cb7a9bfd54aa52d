import NvmeDem.Store.Hosts
import NvmeDem.Lemmas.Groups

/-!
# What a host function can do

The walks over the groups and over the lists of allowed hosts, as maps over the entries they change, and one statement for each
function that edits the hosts.
-/

namespace NvmeDem

open Jansson

/-! ## The walks -/

/-- A group after the first mention of a member was renamed. -/
def groupRenamed (tag member newalias : String) (group : Json) : Json := group.adjust tag (renameFirst member newalias)

/-- A group after the first mention of a member was removed. -/
def groupWithout (tag member : String) (group : Json) : Json := group.adjust tag (removeFirst member)

theorem entries_renameInGroups (root : Json) (tag member newalias : String) :
    (renameInGroups root tag member newalias).entries tagGroups =
      (root.entries tagGroups).map (groupRenamed tag member newalias) :=
  Json.entries_adjust_arrayMap root tagGroups _

theorem entries_renameInGroups_ne {k : String} (h : k ≠ tagGroups) (root : Json) (tag member newalias : String) :
    (renameInGroups root tag member newalias).entries k = root.entries k :=
  Json.entries_adjust_ne h root _

theorem entries_delFromGroups (root : Json) (tag member : String) :
    (delFromGroups root tag member).entries tagGroups = (root.entries tagGroups).map (groupWithout tag member) :=
  Json.entries_adjust_arrayMap root tagGroups _

theorem entries_delFromGroups_ne {k : String} (h : k ≠ tagGroups) (root : Json) (tag member : String) :
    (delFromGroups root tag member).entries k = root.entries k :=
  Json.entries_adjust_ne h root _

/-- A target after the first mention of a host in each of its lists of allowed hosts was renamed. -/
def targetRenamed (old new : String) (tgt : Json) : Json :=
  tgt.adjust tagSubsystems (Json.arrayMap (fun subsys => subsys.adjust tagHosts (renameFirst old new)))

theorem entries_renameInAllowedHosts (root : Json) (old new : String) :
    (renameInAllowedHosts root old new).entries tagTargets = (root.entries tagTargets).map (targetRenamed old new) :=
  Json.entries_adjust_arrayMap root tagTargets _

theorem entries_renameInAllowedHosts_ne {k : String} (h : k ≠ tagTargets) (root : Json) (old new : String) :
    (renameInAllowedHosts root old new).entries k = root.entries k :=
  Json.entries_adjust_ne h root _

/-- The target at the place `i` after `delFromAllowedHosts` went over it. -/
def targetWithout (name : String) (i : Nat) (tgt : Json) : Json :=
  tgt.adjust tagSubsystems (fun array =>
    (List.range array.elems.length).foldl (fun array _ => delAllowedStep i name array) array)

theorem entries_delFromAllowedHosts (root : Json) (name : String) :
    (delFromAllowedHosts root name).entries tagTargets = (root.entries tagTargets).mapIdx (targetWithout name) :=
  Json.entries_adjust_arrayMapIdx root tagTargets _

theorem entries_delFromAllowedHosts_ne {k : String} (h : k ≠ tagTargets) (root : Json) (name : String) :
    (delFromAllowedHosts root name).entries k = root.entries k :=
  Json.entries_adjust_ne h root _

/-! ## Hosts -/

theorem arrayGet_arrayOr {j x : Json} {k : String} {i : Nat} (h : (j.entries k)[i]? = some x) :
    arrayGet (j.arrayOr k) i = x := by
  simp [arrayGet, Json.elems_arrayOr, h]

theorem strField_jsonUpdateStringEx_hostnqn {x x' new : Json} {nqn nqn' : String}
    (h : jsonUpdateStringEx x new tagHostnqn maxNqnSize nqn = .ok (x', nqn')) :
    x'.strField tagAlias = x.strField tagAlias := by
  simp only [Json.strField, objectGet_jsonUpdateStringEx_ne (k := tagAlias) (by decide) h]

/-- The new alias of a host is in its entry. -/
theorem strField_host_renamed {x x' new : Json} {old newalias nqn nqn' : String} (hold : x.strField tagAlias = some old)
    (hbody : new.strField tagAlias = some newalias)
    (h : jsonUpdateStringEx (jsonUpdateString x new tagAlias) new tagHostnqn maxNqnSize nqn = .ok (x', nqn')) :
    x'.strField tagAlias = some newalias := by
  rw [strField_jsonUpdateStringEx_hostnqn h]
  exact strField_jsonUpdateString_self (by rw [hold]; rfl) hbody

/-- Of the hosts a rename changes one entry. -/
theorem entries_hosts_renamed (root x x' : Json) (i : Nat) (old new : String) :
    ((renameInGroups (renameInAllowedHosts (root.putAt tagHosts i x) old new) tagHosts old new).putAt tagHosts i x').entries
      tagHosts = (root.entries tagHosts).set i x' := by
  rw [Json.entries_putAt, entries_renameInGroups_ne (by decide), entries_renameInAllowedHosts_ne (by decide),
    Json.entries_putAt, List.set_set]

/-- So it does of the targets. -/
theorem entries_targets_renamed (root t t' : Json) (i : Nat) (old new : String) :
    ((renameInGroups (root.putAt tagTargets i t) tagTargets old new).putAt tagTargets i t').entries tagTargets =
      (root.entries tagTargets).set i t' := by
  rw [Json.entries_putAt, entries_renameInGroups_ne (by decide), Json.entries_putAt, List.set_set]

theorem addJsonHost_ok {root : Json} {host : Option String} {r : Reply Unit} (h : addJsonHost root host = .ok r) :
    (r.ret ≠ 0 ∧ r.root = root) ∨
      (r.ret = 0 ∧ (∀ a, host = some a → a ∉ root.keys tagHosts tagAlias) ∧
        r.root = root.pushAt tagHosts (jsonSetStringPtr (.object []) tagAlias host)) := by
  unfold addJsonHost at h
  split at h
  · cases h
  · cases h
    exact Or.inl ⟨eexist_ne, rfl⟩
  · rename_i hfind
    cases h
    refine Or.inr ⟨rfl, ?_, rfl⟩
    rintro a rfl
    exact findArray_arrayOr_none (Except.ok.inj hfind)

/-- What `updateJsonHost` does when it returns zero: `new` is the body, `out` what the caller gets, `nqn₀` what its buffer
held before. -/
inductive HostUpdate (root new : Json) (nqn₀ : String) : Option String → HostOut → Json → Prop
  | keep {old nqn : String} {i : Nat} {x x' : Json} (hx : (root.entries tagHosts)[i]? = some x)
      (hold : x.strField tagAlias = some old)
      (hbody : new.objectGet tagAlias = none ∨ new.strField tagAlias = some old)
      (hnqn : jsonUpdateStringEx x new tagHostnqn maxNqnSize nqn₀ = .ok (x', nqn)) :
      HostUpdate root new nqn₀ (some old) ⟨old, nqn⟩ (root.putAt tagHosts i x')
  | rename {old newalias nqn : String} {i : Nat} {x x' : Json} (hx : (root.entries tagHosts)[i]? = some x)
      (hold : x.strField tagAlias = some old) (hbody : new.strField tagAlias = some newalias)
      (hne : old ≠ newalias) (hfresh : newalias ∉ root.keys tagHosts tagAlias)
      (hnqn : jsonUpdateStringEx (jsonUpdateString x new tagAlias) new tagHostnqn maxNqnSize nqn₀ = .ok (x', nqn)) :
      HostUpdate root new nqn₀ (some old) ⟨newalias, nqn⟩
        ((renameInGroups
          (renameInAllowedHosts (root.putAt tagHosts i (jsonUpdateString x new tagAlias)) old newalias)
          tagHosts old newalias).putAt tagHosts i x')
  | create {newalias nqn : String} {x' : Json} (hbody : new.strField tagAlias = some newalias)
      (hfresh : newalias ∉ root.keys tagHosts tagAlias) (hpush : root.canPush tagHosts = true)
      (hnqn : jsonUpdateStringEx (jsonSetString (.object []) tagAlias newalias) new tagHostnqn maxNqnSize nqn₀
        = .ok (x', nqn)) :
      HostUpdate root new nqn₀ none ⟨newalias, nqn⟩ (root.pushAt tagHosts x')

theorem updateJsonHostNqn_ok {root new : Json} {host : Option String} {i : Nat} {out : HostOut} {r : Reply HostOut} {x : Json}
    (h : updateJsonHostNqn root new host i out = .ok r) (hx : (root.entries tagHosts)[i]? = some x) :
    r.ret = 0 ∧ ∃ x' nqn, jsonUpdateStringEx x new tagHostnqn maxNqnSize out.nqn = .ok (x', nqn) ∧
      r.out = ⟨out.newalias, nqn⟩ ∧ r.root = root.putAt tagHosts i x' := by
  unfold updateJsonHostNqn at h
  rw [arrayGet_arrayOr hx] at h
  split at h
  · cases h
  · rename_i x' nqn hnqn
    cases h
    exact ⟨rfl, x', nqn, hnqn, rfl, rfl⟩

/-- The place of a renamed host, after the walks. -/
theorem getElem?_renamed {root x y : Json} {i : Nat} {old newalias : String} (hx : (root.entries tagHosts)[i]? = some x) :
    ((renameInGroups (renameInAllowedHosts (root.putAt tagHosts i y) old newalias) tagHosts old newalias).entries
      tagHosts)[i]? = some y := by
  rw [entries_renameInGroups_ne (by decide), entries_renameInAllowedHosts_ne (by decide), Json.entries_putAt]
  exact List.getElem?_set_self (List.getElem?_eq_some_iff.mp hx).1

theorem updateJsonHostBody_ok {J : JsonLib} {root : Json} {host : Option String} {at? : Option Nat} {data : String}
    {out : HostOut} {r : Reply HostOut}
    (h : updateJsonHostBody J (root.ensureArray tagHosts) host at? data out = .ok r) (hat : host.isSome = at?.isSome)
    (hfound : ∀ a i, host = some a → at? = some i → (root.entries tagHosts)[i]? = some (arrayGet (root.arrayOr tagHosts) i) ∧
      (arrayGet (root.arrayOr tagHosts) i).strField tagAlias = some a) :
    (r.ret ≠ 0 ∧ Json.Fills root r.root) ∨
      (r.ret = 0 ∧ ∃ new, J.loads data = some new ∧ HostUpdate root new out.nqn host r.out r.root) := by
  unfold updateJsonHostBody at h
  split at h
  · cases h
    exact Or.inl ⟨einval_ne, .ensureArray root tagHosts⟩
  · rename_i new hnew
    split at h
    · rename_i value hvalue
      split at h
      · cases h
      · rename_i newalias hname
        have hstr : new.strField tagAlias = some newalias := by simp [Json.strField, hvalue, strcpy_ok hname]
        split at h
        · rename_i hlook
          split at h
          · cases h
            exact Or.inl ⟨eexist_ne, .ensureArray root tagHosts⟩
          · rename_i hfresh
            rw [Json.arrayOr_ensureArray] at hfresh h
            have hfresh := findArray_arrayOr_none (Option.not_isSome_iff_eq_none.mp hfresh)
            refine Or.inr ?_
            split at h
            · rename_i old i
              obtain ⟨hx, hold⟩ := hfound old i rfl rfl
              rw [Json.ensureArray_of_entries hx] at h
              obtain ⟨hret, x', nqn, hnqn, hout, hroot⟩ := updateJsonHostNqn_ok h (getElem?_renamed hx)
              refine ⟨hret, new, hnew, ?_⟩
              rw [hout, hroot]
              exact .rename hx hold hstr (by simpa [looksForName] using hlook) hfresh hnqn
            · rename_i hcases
              obtain rfl : host = none := by
                cases host with
                | none => rfl
                | some a =>
                  obtain ⟨i, rfl⟩ := Option.isSome_iff_exists.mp (hat.symm.trans rfl)
                  exact absurd rfl (hcases a i rfl)
              split at h
              · cases h
              · rename_i root' hpush
                obtain ⟨hcan, rfl⟩ := pushShared_ok hpush
                have hcan : root.canPush tagHosts = true := by simpa [Json.canPush] using hcan
                rw [Json.pushAt_ensureArray, Json.entries_ensureArray] at h
                have hlast : ((root.pushAt tagHosts (jsonSetString (.object []) tagAlias newalias)).entries
                    tagHosts)[(root.entries tagHosts).length]? = some (jsonSetString (.object []) tagAlias newalias) :=
                  Json.getElem?_entries_pushAt hcan _
                obtain ⟨hret, x', nqn, hnqn, hout, hroot⟩ := updateJsonHostNqn_ok h hlast
                refine ⟨hret, new, hnew, ?_⟩
                rw [hout, hroot, Json.putAt_pushAt hcan]
                exact .create hstr hfresh hcan hnqn
        · rename_i hlook
          split at h
          · rename_i i
            obtain ⟨old, rfl⟩ := Option.isSome_iff_exists.mp (hat.trans rfl)
            obtain ⟨hx, hold⟩ := hfound old i rfl rfl
            rw [Json.ensureArray_of_entries hx] at h
            obtain ⟨hret, x', nqn, hnqn, hout, hroot⟩ := updateJsonHostNqn_ok h hx
            obtain rfl : old = newalias := by simpa [looksForName] using hlook
            refine Or.inr ⟨hret, new, hnew, ?_⟩
            rw [hout, hroot]
            exact .keep hx hold (Or.inr hstr) hnqn
          · cases h
            exact Or.inl ⟨efault_ne, .ensureArray root tagHosts⟩
    · rename_i hvalue
      split at h
      · rename_i old i
        split at h
        · cases h
        · rename_i newalias hcopy
          obtain rfl : old = newalias := Option.some.inj (strcpy_ok hcopy)
          obtain ⟨hx, hold⟩ := hfound old i rfl rfl
          rw [Json.ensureArray_of_entries hx] at h
          obtain ⟨hret, x', nqn, hnqn, hout, hroot⟩ := updateJsonHostNqn_ok h hx
          refine Or.inr ⟨hret, new, hnew, ?_⟩
          rw [hout, hroot]
          exact .keep hx hold (Or.inl hvalue) hnqn
      · cases h
        exact Or.inl ⟨einval_ne, .ensureArray root tagHosts⟩

theorem updateJsonHost_ok {J : JsonLib} {root : Json} {host : Option String} {data : String} {out : HostOut}
    {r : Reply HostOut} (h : updateJsonHost J root host data out = .ok r) :
    (r.ret ≠ 0 ∧ Json.Fills root r.root) ∨
      (r.ret = 0 ∧ ∃ new, J.loads data = some new ∧ HostUpdate root new out.nqn host r.out r.root) := by
  unfold updateJsonHost at h
  split at h
  · cases h
    exact Or.inl ⟨einval_ne, .refl root⟩
  · split at h
    · exact updateJsonHostBody_ok h rfl (fun a i ha => by cases ha)
    · rename_i a
      split at h
      · cases h
        exact Or.inl ⟨enoent_ne, .ensureArray root tagHosts⟩
      · rename_i i hi
        refine updateJsonHostBody_ok h rfl ?_
        rintro _ _ ⟨⟩ ⟨⟩
        exact findArray_arrayOr_some hi

theorem delJsonHost_ok {root : Json} {host : Option String} {nqn : String} {r : Reply String}
    (h : delJsonHost root host nqn = .ok r) :
    (r.ret ≠ 0 ∧ r.root = root) ∨
      (r.ret = 0 ∧ ∃ i x name, (root.entries tagHosts)[i]? = some x ∧ x.strField tagAlias = some name ∧ host = some name ∧
        r.root = delFromGroups (delFromAllowedHosts (root.removeAt tagHosts i) name) tagHosts name) := by
  unfold delJsonHost at h
  split at h
  · cases h
    exact Or.inl ⟨enoent_ne, rfl⟩
  · rename_i hosts hhosts
    split at h
    · cases h
    · cases h
      exact Or.inl ⟨enoent_ne, rfl⟩
    · rename_i i hi
      split at h
      · cases h
      · cases h
        obtain ⟨name, rfl, hname⟩ | ⟨-, hnone⟩ := findArrayPtr_ok hi
        · obtain ⟨hx, hkey⟩ := findArray_objectGet_some hhosts hname
          exact Or.inr ⟨rfl, i, _, name, hx, hkey, rfl, rfl⟩
        · cases hnone

end NvmeDem
