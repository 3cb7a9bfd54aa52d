import NvmeDem.Lemmas.Targets

/-!
# What a call that fails leaves

Some calls make an array that is absent before they look at anything else, so that a call that fails can change the root. When
the arrays that it makes are there already, it leaves the root as it was.
-/

namespace Jansson.Json

/-- An array that is there is not made. -/
theorem ensureArray_of_isSome {j : Json} {k : String} (h : (j.objectGet k).isSome = true) : j.ensureArray k = j := by
  obtain ⟨v, hv⟩ := Option.isSome_iff_exists.mp h
  simp only [ensureArray, hv]

/-- Putting an entry of an array where it is changes nothing. -/
theorem putAt_getElem? {j x : Json} {k : String} {i : Nat} (h : (j.entries k)[i]? = some x) : j.putAt k i x = j := by
  cases hg : j.objectGet k with
  | none => simp [entries, hg] at h
  | some v =>
    cases v with
    | array xs =>
      have hxs : xs[i]? = some x := by simpa [entries, hg, elems] using h
      obtain ⟨hi, rfl⟩ := List.getElem?_eq_some_iff.mp hxs
      simp only [putAt, arrayOr, hg, Option.getD_some, arraySet, List.set_getElem_self]
      exact objectSet_objectGet hg
    | _ => simp [entries, hg, elems] at h

end Jansson.Json

namespace NvmeDem

open Jansson

variable {J : JsonLib} {root : Json}

/-! ## The arrays that are there -/

/-- The target `tgt` of the store, if there is one, has a field `k`. -/
def TargetHas (root : Json) (tgt k : String) : Prop := ∀ i t, TargetAt root tgt i t → (t.objectGet k).isSome = true

/-- The subsystem `subnqn` of the target `tgt`, if there is one, has a field `k`. -/
def SubsysHas (root : Json) (tgt subnqn k : String) : Prop :=
  ∀ i t, TargetAt root tgt i t → ∀ j s, SubsysAt t subnqn j s → (s.objectGet k).isSome = true

/-- A target that has the array is put back as it was. -/
theorem TargetHas.putAt {tgt k : String} (h : TargetHas root tgt k) {i : Nat} {t obj array : Json} (ht : TargetAt root tgt i t)
    (ha : jsonGetArray t k = (obj, some array)) : root.putAt tagTargets i obj = root := by
  rw [(jsonGetArray_some ha).1, Json.ensureArray_of_isSome (h i t ht), Json.putAt_getElem? ht.get]

/-- A subsystem that has the array is put back as it was. -/
theorem SubsysHas.putAt {tgt subnqn k : String} (h : SubsysHas root tgt subnqn k) {i j : Nat} {t s : Json}
    (ht : TargetAt root tgt i t) (hs : SubsysAt t subnqn j s) :
    root.putAt tagTargets i (t.putAt tagSubsystems j (s.ensureArray k)) = root := by
  rw [Json.ensureArray_of_isSome (h i t ht j s hs), Json.putAt_getElem? hs.get, Json.putAt_getElem? ht.get]

/-! ## Groups, hosts and targets -/

theorem updateJsonGroupBody_refused {group : Option String} {at? : Option Nat} {data name : String} {r : Reply String}
    (h : updateJsonGroupBody J root group at? data name = .ok r) (hret : r.ret ≠ 0) : r.root = root := by
  unfold updateJsonGroupBody at h
  split at h
  · cases h
    rfl
  · split at h
    · cases h
      rfl
    · split at h
      · cases h
      · split at h
        · cases h
          rfl
        · split at h
          · cases h
          · split at h
            · cases h
              exact absurd rfl hret
            · split at h
              · cases h
              · cases h
                exact absurd rfl hret

theorem updateJsonGroup_refused {group : Option String} {data name : String} {r : Reply String}
    (h : updateJsonGroup J root group data name = .ok r) (hret : r.ret ≠ 0)
    (hgroups : data ≠ "" → (root.objectGet tagGroups).isSome = true) : r.root = root := by
  unfold updateJsonGroup at h
  split at h
  · cases h
    rfl
  · rename_i hdata
    have hmade := Json.ensureArray_of_isSome (hgroups hdata)
    rw [hmade] at h
    split at h
    · exact updateJsonGroupBody_refused h hret
    · split at h
      · cases h
        rfl
      · exact updateJsonGroupBody_refused h hret

theorem updateJsonHostNqn_ret {new : Json} {host : Option String} {i : Nat} {out : HostOut} {r : Reply HostOut}
    (h : updateJsonHostNqn root new host i out = .ok r) : r.ret = 0 := by
  unfold updateJsonHostNqn at h
  split at h
  · cases h
  · cases h
    rfl

theorem updateJsonHostBody_refused {host : Option String} {at? : Option Nat} {data : String} {out : HostOut} {r : Reply HostOut}
    (h : updateJsonHostBody J root host at? data out = .ok r) (hret : r.ret ≠ 0) : r.root = root := by
  unfold updateJsonHostBody at h
  split at h
  · cases h
    rfl
  · split at h
    · split at h
      · cases h
      · split at h
        · split at h
          · cases h
            rfl
          · split at h
            · exact absurd (updateJsonHostNqn_ret h) hret
            · split at h
              · cases h
              · exact absurd (updateJsonHostNqn_ret h) hret
        · split at h
          · exact absurd (updateJsonHostNqn_ret h) hret
          · cases h
            rfl
    · split at h
      · split at h
        · cases h
        · exact absurd (updateJsonHostNqn_ret h) hret
      · cases h
        rfl

theorem updateJsonHost_refused {host : Option String} {data : String} {out : HostOut} {r : Reply HostOut}
    (h : updateJsonHost J root host data out = .ok r) (hret : r.ret ≠ 0)
    (hhosts : data ≠ "" → (root.objectGet tagHosts).isSome = true) : r.root = root := by
  unfold updateJsonHost at h
  split at h
  · cases h
    rfl
  · rename_i hdata
    have hmade := Json.ensureArray_of_isSome (hhosts hdata)
    rw [hmade] at h
    split at h
    · exact updateJsonHostBody_refused h hret
    · split at h
      · cases h
        rfl
      · exact updateJsonHostBody_refused h hret

theorem updateJsonTargetFields_ret {new : Json} {tgt : Option String} {i : Nat} {buf : String} {arg : TargetArg}
    {r : Reply TargetArg} (h : updateJsonTargetFields root new tgt i buf arg = .ok r) : r.ret = 0 := by
  unfold updateJsonTargetFields at h
  split at h
  · cases h
  · cases h
    rfl

theorem updateJsonTargetBody_refused {tgt : Option String} {at? : Option Nat} {data : String} {arg : TargetArg}
    {r : Reply TargetArg} (h : updateJsonTargetBody J root tgt at? data arg = .ok r) (hret : r.ret ≠ 0) : r.root = root := by
  unfold updateJsonTargetBody at h
  split at h
  · cases h
    rfl
  · split at h
    · split at h
      · cases h
      · split at h
        · split at h
          · cases h
            rfl
          · split at h
            · exact absurd (updateJsonTargetFields_ret h) hret
            · split at h
              · cases h
              · exact absurd (updateJsonTargetFields_ret h) hret
        · split at h
          · exact absurd (updateJsonTargetFields_ret h) hret
          · cases h
            rfl
    · split at h
      · split at h
        · cases h
        · exact absurd (updateJsonTargetFields_ret h) hret
      · cases h
        rfl

theorem updateJsonTarget_refused {tgt : Option String} {data : String} {arg : TargetArg} {r : Reply TargetArg}
    (h : updateJsonTarget J root tgt data arg = .ok r) (hret : r.ret ≠ 0)
    (htargets : data ≠ "" → (root.objectGet tagTargets).isSome = true) : r.root = root := by
  unfold updateJsonTarget at h
  split at h
  · cases h
    rfl
  · rename_i hdata
    have hmade := Json.ensureArray_of_isSome (htargets hdata)
    rw [hmade] at h
    split at h
    · exact updateJsonTargetBody_refused h hret
    · split at h
      · cases h
        rfl
      · exact updateJsonTargetBody_refused h hret

/-! ## Subsystems, ports and namespaces -/

theorem changeJsonSubsys_ret {tgt subnqn : String} {i j : Nat} {obj array new : Json} {arg : SubsysArg} {r : Reply SubsysArg}
    (h : changeJsonSubsys root tgt subnqn i j obj array new arg = .ok r) : r.ret = 0 := by
  unfold changeJsonSubsys at h
  split at h
  · cases h
  · split at h
    · cases h
    · cases h
      rfl

theorem setJsonSubsysBody_refused {tgt data : String} {subnqn : Option String} {i : Nat} {obj array : Json} {at? : Option Nat}
    {arg : SubsysArg} {r : Reply SubsysArg} (h : setJsonSubsysBody J root tgt subnqn i obj array at? data arg = .ok r)
    (hret : r.ret ≠ 0) : r.root = root.putAt tagTargets i obj := by
  unfold setJsonSubsysBody at h
  split at h
  · cases h
    rfl
  · split at h
    · cases h
    · split at h
      · cases h
        rfl
      · split at h
        · exact absurd (changeJsonSubsys_ret h) hret
        · cases h
          exact absurd rfl hret
    · split at h
      · exact absurd (changeJsonSubsys_ret h) hret
      · cases h
        rfl

theorem setJsonSubsys_refused {tgt data : String} {subnqn : Option String} {arg : SubsysArg} {r : Reply SubsysArg}
    (h : setJsonSubsys J root tgt subnqn data arg = .ok r) (hret : r.ret ≠ 0) (hhas : TargetHas root tgt tagSubsystems) :
    r.root = root := by
  unfold setJsonSubsys at h
  split at h
  · cases h
    rfl
  · rename_i targets htargets
    split at h
    · cases h
      rfl
    · rename_i i hi
      split at h
      · cases h
        rfl
      · rename_i obj array ha
        have hkept := hhas.putAt (.of_find htargets hi) ha
        split at h
        · split at h
          · cases h
            exact hkept
          · split at h
            · cases h
              exact hkept
            · rw [setJsonSubsysBody_refused h hret, hkept]
        · split at h
          · cases h
            exact hkept
          · rw [setJsonSubsysBody_refused h hret, hkept]

theorem setJsonPortidBody_ret {tgt : String} {id : Int} {i : Nat} {obj array new : Json} {arg : PortArg} {r : Reply PortArg}
    (h : setJsonPortidBody root tgt id i obj array new arg = .ok r) : r.ret = 0 := by
  unfold setJsonPortidBody at h
  split at h
  · split at h
    · cases h
    · cases h
      rfl
  · split at h
    · cases h
    · cases h
      rfl

theorem setJsonPortid_refused {tgt data : String} {id : Int} {arg : PortArg} {r : Reply PortArg}
    (h : setJsonPortid J root tgt id data arg = .ok r) (hret : r.ret ≠ 0) (hhas : TargetHas root tgt tagPortids) :
    r.root = root := by
  unfold setJsonPortid at h
  split at h
  · cases h
    rfl
  · rename_i targets htargets
    split at h
    · cases h
      rfl
    · rename_i i hi
      split at h
      · cases h
        rfl
      · rename_i obj array ha
        have hkept := hhas.putAt (.of_find htargets hi) ha
        split at h
        · cases h
          exact hkept
        · split at h
          · cases h
            exact hkept
          · split at h
            · cases h
              exact hkept
            · exact absurd (setJsonPortidBody_ret h) hret

theorem setJsonNs_refused {tgt subnqn data : String} {arg : NsArg} (hret : (setJsonNs J root tgt subnqn data arg).ret ≠ 0)
    (hhas : TargetHas root tgt tagSubsystems) (hsub : SubsysHas root tgt subnqn tagNsids) :
    (setJsonNs J root tgt subnqn data arg).root = root := by
  unfold setJsonNs at hret ⊢
  split at hret
  · rfl
  · rename_i targets htargets
    split at hret
    · rfl
    · rename_i i hi
      have ht := TargetAt.of_find htargets hi
      split at hret
      · rfl
      · rename_i obj subsystems ha
        split at hret
        · exact hhas.putAt ht ha
        · rename_i j hj
          obtain ⟨hs, rfl⟩ := SubsysAt.of_find ha hj
          split at hret
          · rfl
          · rename_i sub array hns
            split at hret
            · rw [(jsonGetArray_some hns).1]
              exact hsub.putAt ht hs
            · exact absurd rfl hret

/-! ## Access lists -/

theorem setJsonAclBody_refused {hosts obj sub : Json} {tgt subnqn newalias : String} {i j : Nat} {out : HostOut}
    {r : Reply HostOut} (h : setJsonAclBody root hosts tgt subnqn newalias i j obj sub out = .ok r) (hret : r.ret ≠ 0) :
    r.root = root.putAt tagTargets i (obj.putAt tagSubsystems j (sub.ensureArray tagHosts)) := by
  unfold setJsonAclBody at h
  split at h
  · cases h
    rfl
  · split at h
    · cases h
      rfl
    · split at h
      · cases h
        rfl
      · split at h
        · cases h
        · cases h
          exact absurd rfl hret

theorem setJsonAcl_refused {tgt subnqn data : String} {host : Option String} {out : HostOut} {r : Reply HostOut}
    (h : setJsonAcl J root tgt subnqn host data out = .ok r) (hret : r.ret ≠ 0)
    (hhas : (root.objectGet tagHosts).isSome = true → TargetHas root tgt tagSubsystems ∧ SubsysHas root tgt subnqn tagHosts) :
    r.root = root := by
  unfold setJsonAcl at h
  split at h
  · cases h
    rfl
  · rename_i hosts hhosts
    obtain ⟨hhas, hsub⟩ := hhas (by rw [hhosts]; rfl)
    split at h
    · cases h
      rfl
    · rename_i targets htargets
      split at h
      · cases h
        rfl
      · rename_i i hi
        have ht := TargetAt.of_find htargets hi
        split at h
        · cases h
          rfl
        · rename_i obj array ha
          split at h
          · cases h
            exact hhas.putAt ht ha
          · rename_i j hj
            obtain ⟨hs, rfl⟩ := SubsysAt.of_find ha hj
            split at h
            · cases h
              exact hsub.putAt ht hs
            · cases h
            · rw [setJsonAclBody_refused h hret]
              exact hsub.putAt ht hs

theorem delJsonAcl_refused {tgt subnqn host : String} (hret : (delJsonAcl root tgt subnqn host).ret ≠ 0)
    (hhas : TargetHas root tgt tagSubsystems) : (delJsonAcl root tgt subnqn host).root = root := by
  unfold delJsonAcl at hret ⊢
  split at hret
  · rfl
  · rename_i targets htargets
    split at hret
    · rfl
    · rename_i i hi
      have ht := TargetAt.of_find htargets hi
      split at hret
      · rfl
      · rename_i obj array ha
        have hkept := hhas.putAt ht ha
        split at hret
        · exact hkept
        · split at hret
          · exact hkept
          · split at hret
            · exact hkept
            · exact absurd rfl hret

end NvmeDem
