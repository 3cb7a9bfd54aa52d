import NvmeDem.Lemmas.Repeats
import NvmeDem.Theorems.Names
import NvmeDem.Theorems.Ports
import NvmeDem.Theorems.Groups

/-!
# A request that is sent twice

A client that gets no answer sends its request again. In every store that is reached, a call that returned zero leaves the store as it
is when it is made a second time if and only if it is `Repeatable`: it names what it makes, does not move a port to another id, and
deletes what is there once.
-/

namespace NvmeDem

open Jansson

/-! ## Subsystems -/

section

variable {J : JsonLib} {root t t' s s' : Json} {tgt subnqn : String} {i i' j j' : Nat}

theorem TargetAt.same (h : TargetAt root tgt i t) (h' : TargetAt root tgt i' t') : i = i' ∧ t = t' := by
  obtain rfl : i = i' := Option.some.inj (h.first.symm.trans h'.first)
  exact ⟨rfl, Option.some.inj (h.get.symm.trans h'.get)⟩

theorem SubsysAt.same (h : SubsysAt t subnqn j s) (h' : SubsysAt t subnqn j' s') : j = j' ∧ s = s' := by
  obtain rfl : j = j' := Option.some.inj (h.first.symm.trans h'.first)
  exact ⟨rfl, Option.some.inj (h.get.symm.trans h'.get)⟩

theorem SubsysAt.find (hs : SubsysAt t subnqn j s) : findArray (t.arrayOr tagSubsystems) tagSubnqn subnqn = some j := by
  rw [findArray, Json.elems_arrayOr]
  exact hs.first

/-- The store is left as it is by a call that puts back what it found. -/
theorem TargetAt.putAt_self (ht : TargetAt root tgt i t) (hs : SubsysAt t subnqn j s) :
    root.putAt tagTargets i (t.putAt tagSubsystems j s) = root := by
  rw [Json.putAt_getElem? hs.get, Json.putAt_getElem? ht.get]

theorem setJsonSubsys_of_empty {subnqn : Option String} {arg : SubsysArg} {r : Reply SubsysArg}
    (h : setJsonSubsys J root tgt subnqn "" arg = .ok r) (hret : r.ret = 0) : r.root = root := by
  unfold setJsonSubsys at h
  split at h
  · cases h
    rfl
  · rename_i targets htargets
    split at h
    · cases h
      rfl
    · rename_i i hi
      have ht := TargetAt.of_find htargets hi
      split at h
      · cases h
        rfl
      · rename_i obj array ha
        split at h
        · split at h
          · cases h
            exact absurd hret enoent_ne
          · rename_i j hj
            obtain ⟨-, rfl⟩ := SubsysAt.of_find ha hj
            rw [if_pos rfl] at h
            cases h
            exact Json.putAt_getElem? ht.get
        · rw [if_pos rfl] at h
          cases h
          exact absurd hret einval_ne

/-- A subsystem that is in the store is changed from the body. -/
theorem setJsonSubsys_found {data : String} {arg : SubsysArg} (ht : TargetAt root tgt i t) (hs : SubsysAt t subnqn j s)
    (hdata : data ≠ "") : setJsonSubsys J root tgt (some subnqn) data arg =
      setJsonSubsysBody J root tgt (some subnqn) i t (t.arrayOr tagSubsystems) (some j) data arg := by
  obtain ⟨targets, htargets, hfind, hget⟩ := ht.lookup
  unfold setJsonSubsys
  simp only [htargets, hfind, hget, jsonGetArray_of_entries hs.get, hs.find, if_neg hdata]

theorem setJsonSubsys_again {subnqn : Option String} {data : String} {arg : SubsysArg} {r : Reply SubsysArg}
    (h : setJsonSubsys J root tgt subnqn data arg = .ok r) (hret : r.ret = 0) :
    ∃ r', setJsonSubsys J r.root tgt subnqn data arg = .ok r' ∧ r'.root = r.root := by
  by_cases hdata : data = ""
  · subst hdata
    exact ⟨r, by rw [setJsonSubsys_of_empty h hret]; exact h, rfl⟩
  rcases setJsonSubsys_ok h with ⟨hne, -⟩ | ⟨-, hempty, -⟩ | ⟨-, i, t, t', new, ht, hnew, hupd, hroot⟩
  · exact absurd hret hne
  · exact absurd hempty hdata
  rw [hroot]
  generalize r.out = out at hupd
  cases hupd with
  | @change old nqn j s s₁ hs hnqn hfresh =>
    generalize hs₂ : (updateSubsysAccess s₁ new { arg with nqn := nqn }).1 = s₂
    have hobj := Json.isObject_of_strField hs.key
    have hname : s₂.strField tagSubnqn = some nqn := by
      rw [← hs₂, strField_updateSubsysAccess]
      rcases jsonUpdateStringEx_ok hnqn with ⟨n, -, -, rfl, rfl⟩ | ⟨rfl, rfl⟩
      · exact strField_jsonSetString_self hobj (Or.inl (by rw [hs.key]; rfl))
      · exact hs.key
    have hentry : ((t.putAt tagSubsystems j s₂).entries tagSubsystems)[j]? = some s₂ := by
      rw [Json.entries_putAt]
      exact List.getElem?_set_self (List.getElem?_eq_some_iff.mp hs.get).1
    have ht' := ht.put (t.putAt tagSubsystems j s₂) (by rw [Json.strField_putAt_ne (by decide), ht.key])
    have hknown : nqn ∈ (t.putAt tagSubsystems j s₂).keys tagSubsystems tagSubnqn :=
      List.mem_filterMap.mpr ⟨s₂, List.mem_of_getElem? hentry, hname⟩
    rw [setJsonSubsys_found ht hs hdata] at h
    by_cases hsame : nqn = old
    · -- the subsystem keeps its name, so it is found where it was
      subst hsame
      have hs' := hs.put _ hname
      rw [setJsonSubsys_found ht' hs' hdata]
      have hagain : jsonUpdateStringEx s₂ new tagSubnqn maxNqnSize nqn = .ok (s₂, nqn) := by
        refine jsonUpdateStringEx_again hnqn ?_ ?_
        · rw [← hs₂]
          exact objectGet_updateSubsysAccess (by decide) (by decide) _ _ _
        · rw [Json.isObject_of_strField hname, isObject_jsonUpdateStringEx hnqn, hobj]
      have haccess : (updateSubsysAccess s₂ new { arg with nqn := nqn }).1 = s₂ := by
        rw [← hs₂, updateSubsysAccess_again]
      have hchange : ∀ {array array' r₁}, arrayGet array' j = s₂ →
          changeJsonSubsys root tgt nqn i j t array new arg = .ok r₁ →
          ∃ r', changeJsonSubsys (root.putAt tagTargets i (t.putAt tagSubsystems j s₂)) tgt nqn i j (t.putAt tagSubsystems j s₂)
            array' new arg = .ok r' ∧ r'.root = root.putAt tagTargets i (t.putAt tagSubsystems j s₂) := by
        intro array array' r₁ hget h₁
        unfold changeJsonSubsys at h₁ ⊢
        cases hcopy : strcpy maxString (some nqn) with
        | error f =>
          rw [hcopy] at h₁
          cases h₁
        | ok copy =>
          obtain rfl := Option.some.inj (strcpy_ok hcopy)
          simp only [hget, hagain]
          refine ⟨_, rfl, ?_⟩
          show (root.putAt tagTargets i (t.putAt tagSubsystems j s₂)).putAt tagTargets i
            ((t.putAt tagSubsystems j s₂).putAt tagSubsystems j _) = _
          rw [haccess]
          exact ht'.putAt_self hs'
      have hget := arrayGet_arrayOr hentry
      unfold setJsonSubsysBody at h ⊢
      simp only [hnew] at h ⊢
      cases hgiven : (new.objectGet tagSubnqn).map (fun value => strcpy maxString value.stringValue) with
      | none =>
        simp only [hgiven] at h ⊢
        exact hchange hget h
      | some given =>
        cases given with
        | error f =>
          simp only [hgiven] at h
          cases h
        | ok n =>
          obtain ⟨value, hvalue, hcopy⟩ := Option.map_eq_some_iff.mp hgiven
          have hn : new.strField tagSubnqn = some n := by simp [Json.strField, hvalue, strcpy_ok hcopy]
          obtain rfl := (jsonUpdateStringEx_some hn hobj hnqn).2
          simp only [hgiven, ne_eq, not_true_eq_false, decide_false, Bool.and_false, Bool.false_eq_true, if_false] at h ⊢
          exact hchange hget h
    · -- the subsystem has another name now, under which it is found
      have hn : new.strField tagSubnqn = some nqn := by
        rcases jsonUpdateStringEx_ok hnqn with ⟨n, hn, -, -, rfl⟩ | ⟨-, rfl⟩
        · exact hn
        · exact absurd rfl hsame
      have hvalue := Json.objectGet_of_strField hn
      obtain ⟨targets, htargets, hfind, hget⟩ := ht'.lookup
      obtain ⟨k, hk⟩ := findArray_of_mem hknown
      have hcopy : ∃ n, strcpy maxString (some nqn) = .ok n := by
        cases hc : strcpy maxString (some nqn) with
        | ok n => exact ⟨n, rfl⟩
        | error f =>
          unfold setJsonSubsysBody at h
          simp only [hnew, hvalue, Option.map_some, Json.stringValue, hc] at h
          cases h
      obtain ⟨n, hcopy⟩ := hcopy
      obtain rfl := Option.some.inj (strcpy_ok hcopy)
      unfold setJsonSubsys
      simp only [htargets, hfind, hget, jsonGetArray_of_entries hentry]
      cases hold : findArray ((t.putAt tagSubsystems j s₂).arrayOr tagSubsystems) tagSubnqn old with
      | none => exact ⟨_, rfl, Json.putAt_getElem? ht'.get⟩
      | some j' =>
        have hne : decide (some old ≠ some nqn) = true := decide_eq_true (fun heq => hsame (Option.some.inj heq).symm)
        unfold setJsonSubsysBody
        simp only [if_neg hdata, hnew, hvalue, Option.map_some, Json.stringValue, hcopy, hk, Option.isSome_some, hne, Bool.and_self,
          if_true]
        exact ⟨_, rfl, Json.putAt_getElem? ht'.get⟩
  | @create nqn hbody hfresh hpush =>
    generalize hs₂ : (updateSubsysAccess (jsonSetString (.object []) tagSubnqn nqn) new { arg with nqn := nqn }).1 = s₂
    have hname : s₂.strField tagSubnqn = some nqn := by
      rw [← hs₂, strField_updateSubsysAccess]
      exact strField_jsonSetString_self rfl (Or.inr rfl)
    have hknown := mem_keys_pushAt_self hpush hname
    obtain ⟨k, hk⟩ := findArray_of_mem hknown
    have ht' := ht.put (t.pushAt tagSubsystems s₂) (by rw [Json.strField_pushAt_ne (by decide), ht.key])
    have hvalue := Json.objectGet_of_strField hbody
    obtain ⟨targets, htargets, hfind, hget⟩ := ht'.lookup
    have hcopy : ∃ n, strcpy maxString (some nqn) = .ok n := by
      cases hc : strcpy maxString (some nqn) with
      | ok n => exact ⟨n, rfl⟩
      | error f =>
        obtain ⟨targets, htargets, hfind, hget⟩ := ht.lookup
        unfold setJsonSubsys at h
        simp only [htargets, hfind, hget] at h
        split at h
        · cases h
          exact absurd hret einval_ne
        · unfold setJsonSubsysBody at h
          simp only [if_neg hdata, hnew, hvalue, Option.map_some, Json.stringValue, hc] at h
          cases h
    obtain ⟨n, hcopy⟩ := hcopy
    obtain rfl := Option.some.inj (strcpy_ok hcopy)
    unfold setJsonSubsys
    simp only [htargets, hfind, hget, jsonGetArray_of_entries (findArray_arrayOr_some hk).1]
    have hne : decide (none ≠ some nqn) = true := rfl
    unfold setJsonSubsysBody
    simp only [if_neg hdata, hnew, hvalue, Option.map_some, Json.stringValue, hcopy, hk, Option.isSome_some, hne, Bool.and_self,
      if_true]
    exact ⟨_, rfl, Json.putAt_getElem? ht'.get⟩

theorem delJsonSubsys_again {subnqn : Option String} {r : Reply Unit} (h : delJsonSubsys root tgt subnqn = .ok r) (hret : r.ret = 0)
    (hnodup : ∀ t ∈ root.entries tagTargets, (t.keys tagSubsystems tagSubnqn).Nodup) :
    ∃ r', delJsonSubsys r.root tgt subnqn = .ok r' ∧ r'.root = r.root := by
  obtain ⟨-, i, t, j, s, n, ht, hs, rfl, hroot⟩ := (delJsonSubsys_ok h).resolve_left (fun hne => hne.1 hret)
  have ht' := ht.put (t.removeAt tagSubsystems j) (by rw [Json.strField_removeAt_ne (by decide), ht.key])
  have hgone : n ∉ (t.removeAt tagSubsystems j).keys tagSubsystems tagSubnqn := by
    rw [Json.keys, Json.entries_removeAt]
    exact not_mem_eraseIdx hs.get hs.key (count_of_nodup hs.get hs.key (hnodup t (List.mem_of_getElem? ht.get)))
  obtain ⟨targets, htargets, hfind, hget⟩ := ht'.lookup
  rw [hroot]
  unfold delJsonSubsys delFromArray
  simp only [htargets, hfind, hget]
  cases harray : (t.removeAt tagSubsystems j).objectGet tagSubsystems with
  | none => exact ⟨_, rfl, rfl⟩
  | some array =>
    have hnone := findArrayPtr_of_not_mem hgone
    rw [arrayOr_of_objectGet harray] at hnone
    simp only [hnone]
    exact ⟨_, rfl, rfl⟩

end

/-! ## Ports -/

section

variable {J : JsonLib} {root t : Json} {tgt data : String} {i : Nat}

/-- A port whose entry is what the body makes of it is left as it is. -/
theorem setJsonPortid_settled {id : Int} {arg out : PortArg} {new p : Json} {j : Nat} (ht : TargetAt root tgt i t) (hdata : data ≠ "")
    (hnew : J.loads data = some new) (hid : requestPortid id new ≠ 0)
    (hfirst : (t.entries tagPortids).findIdx? (fun iter => decide (iter.intField tagPortid = some (requestPortid id new))) = some j)
    (hp : (t.entries tagPortids)[j]? = some p) (hupd : updatePortFields p new arg = .ok (p, out)) :
    ∃ r, setJsonPortid J root tgt id data arg = .ok r ∧ r.root = root := by
  obtain ⟨targets, htargets, hfind, hget⟩ := ht.lookup
  have hfindInt : findArrayInt (t.arrayOr tagPortids) tagPortid (requestPortid id new) = some j := by
    rw [findArrayInt, Json.elems_arrayOr]
    exact hfirst
  unfold setJsonPortid
  simp only [htargets, hfind, hget, jsonGetArray_of_entries hp, if_neg hdata, hnew, if_neg hid]
  unfold setJsonPortidBody
  simp only [hfindInt, arrayGet_arrayOr hp, hupd, Json.putAt_getElem? hp, Json.putAt_getElem? ht.get]
  exact ⟨_, rfl, rfl⟩

/-- A request for a port that returns zero has a body. -/
theorem setJsonPortid_data {id : Int} {arg : PortArg} {r : Reply PortArg} (ht : TargetAt root tgt i t)
    (h : setJsonPortid J root tgt id data arg = .ok r) (hret : r.ret = 0) : data ≠ "" := by
  rintro rfl
  obtain ⟨targets, htargets, hfind, hget⟩ := ht.lookup
  unfold setJsonPortid at h
  simp only [htargets, hfind, if_true] at h
  split at h <;> cases h <;> exact absurd hret einval_ne

theorem setJsonPortid_again {id : Int} {arg : PortArg} {r : Reply PortArg} (h : setJsonPortid J root tgt id data arg = .ok r)
    (hret : r.ret = 0)
    (hsame : ∀ new value, J.loads data = some new → new.objectGet tagPortid = some value →
      value.integerValue = requestPortid id new) :
    ∃ r', setJsonPortid J r.root tgt id data arg = .ok r' ∧ r'.root = r.root := by
  obtain ⟨-, i, t, t', new, ht, hnew, hid, hupd, hroot⟩ := (setJsonPortid_ok h).resolve_left (fun hne => hne.1 hret)
  have hdata := setJsonPortid_data ht h hret
  have hkeep : ∀ {p p' : Json} {out}, updatePortFields p new arg = .ok (p', out) →
      p.intField tagPortid = some (requestPortid id new) → p'.intField tagPortid = some (requestPortid id new) := by
    intro p p' out hfields hp
    rw [intField_updatePortFields hfields hp]
    cases hvalue : new.objectGet tagPortid with
    | none => rfl
    | some value => exact congrArg some (hsame new value hnew hvalue)
  have hkey : t'.strField tagAlias = some tgt := by rw [strField_portUpdate hupd, ht.key]
  rw [hroot]
  generalize r.out = out at hupd
  cases hupd with
  | @change j p p' out hfirst hp hid' hfields =>
    refine setJsonPortid_settled (p := p') (ht.put _ hkey) hdata hnew hid (j := j) ?_ ?_ (updatePortFields_again hfields)
    · rw [Json.entries_putAt]
      exact Keyed.findIdx?_set_self hfirst (decide_eq_true (hkeep hfields hid'))
    · rw [Json.entries_putAt]
      exact List.getElem?_set_self (List.getElem?_eq_some_iff.mp hp).1
  | @create p' out hfresh hpush hfields =>
    have hid' := hkeep hfields (intField_newPort _)
    refine setJsonPortid_settled (p := p') (ht.put _ hkey) hdata hnew hid (j := (t.entries tagPortids).length) ?_ ?_
      (updatePortFields_again hfields)
    · rw [Json.entries_pushAt_of_canPush hpush]
      exact Keyed.findIdx?_concat_fresh hfresh hid'
    · exact Json.getElem?_entries_pushAt hpush _

theorem delJsonPortid_again {id : Int} (hret : (delJsonPortid root tgt id).ret = 0)
    (hcount : ∀ i t, TargetAt root tgt i t → (t.intKeys tagPortids tagPortid).count id = 1) :
    (delJsonPortid (delJsonPortid root tgt id).root tgt id).root = (delJsonPortid root tgt id).root := by
  obtain ⟨-, i, t, j, p, ht, -, hp, hid, hroot⟩ := (delJsonPortid_ok root tgt id).resolve_left (fun hne => hne.1 hret)
  have ht' := ht.put (t.removeAt tagPortids j) (by rw [Json.strField_removeAt_ne (by decide), ht.key])
  rw [hroot]
  rcases delJsonPortid_ok (root.putAt tagTargets i (t.removeAt tagPortids j)) tgt id with
    ⟨-, heq⟩ | ⟨-, i', t', j', p', ht'', -, hp', hid', -⟩
  · exact heq
  · obtain ⟨-, rfl⟩ := ht'.same ht''
    have hgone := not_mem_eraseIdx hp hid (hcount i t ht)
    rw [← Json.entries_removeAt] at hgone
    exact absurd (List.mem_filterMap.mpr ⟨p', List.mem_of_getElem? hp', hid'⟩) hgone

end

/-! ## Namespaces -/

section

variable {J : JsonLib} {root t s : Json} {tgt subnqn data : String} {i j : Nat}

/-- A namespace whose entry is what the body makes of it is left as it is. -/
theorem setJsonNs_settled {arg : NsArg} {new nsid n : Json} {k : Nat} (ht : TargetAt root tgt i t) (hs : SubsysAt t subnqn j s)
    (hnew : J.loads data = some new) (hnsid : new.objectGet tagNsid = some nsid)
    (hfirst : (s.entries tagNsids).findIdx? (fun iter => decide (iter.intField tagNsid = some (cInt nsid.integerValue))) = some k)
    (hn : (s.entries tagNsids)[k]? = some n)
    (hupd : (updateNsFields n new { arg with nsid := cInt nsid.integerValue }).1 = n) :
    (setJsonNs J root tgt subnqn data arg).root = root := by
  obtain ⟨targets, htargets, hfind, hget⟩ := ht.lookup
  have hfindInt : findArrayInt (s.arrayOr tagNsids) tagNsid (cInt nsid.integerValue) = some k := by
    rw [findArrayInt, Json.elems_arrayOr]
    exact hfirst
  unfold setJsonNs
  simp only [htargets, hfind, hget, jsonGetArray_of_entries hs.get, hs.find, arrayGet_arrayOr hs.get, jsonGetArray_of_entries hn, hnew,
    Option.bind_some, hnsid, Option.map_some]
  unfold setJsonNsBody
  simp only [hfindInt, arrayGet_arrayOr hn, hupd, Json.putAt_getElem? hn]
  exact ht.putAt_self hs

theorem setJsonNs_again {arg : NsArg} (hret : (setJsonNs J root tgt subnqn data arg).ret = 0) :
    (setJsonNs J (setJsonNs J root tgt subnqn data arg).root tgt subnqn data arg).root =
      (setJsonNs J root tgt subnqn data arg).root := by
  obtain ⟨-, i, t, j, s, s', new, nsid, ht, hs, hnew, hnsid, hupd, hroot⟩ :=
    (setJsonNs_ok J root tgt subnqn data arg).resolve_left (fun hne => hne.1 hret)
  have hs' : SubsysAt (t.putAt tagSubsystems j s') subnqn j s' := hs.put _ (by rw [strField_nsUpdate hupd, hs.key])
  have ht' := ht.put (t.putAt tagSubsystems j s') (by rw [Json.strField_putAt_ne (by decide), ht.key])
  rw [hroot]
  generalize (setJsonNs J root tgt subnqn data arg).out = out at hupd
  cases hupd with
  | @change k n hfirst hn hid =>
    refine setJsonNs_settled ht' hs' hnew hnsid (k := k) ?_ ?_ (congrArg Prod.fst (updateNsFields_again n new _))
    · rw [Json.entries_putAt]
      exact Keyed.findIdx?_set_self hfirst (decide_eq_true (by rw [intField_updateNsFields, hid]))
    · rw [Json.entries_putAt]
      exact List.getElem?_set_self (List.getElem?_eq_some_iff.mp hn).1
  | create hfresh hpush =>
    refine setJsonNs_settled ht' hs' hnew hnsid (k := (s.entries tagNsids).length) ?_ ?_
      (congrArg Prod.fst (updateNsFields_again (newNs (cInt nsid.integerValue)) new _))
    · rw [Json.entries_pushAt_of_canPush hpush]
      refine Keyed.findIdx?_concat_fresh hfresh ?_
      rw [intField_updateNsFields]
      exact intField_jsonSetInt_self rfl (Or.inr rfl)
    · exact Json.getElem?_entries_pushAt hpush _

theorem delJsonNs_again {ns : Int} (hret : (delJsonNs root tgt subnqn ns).ret = 0)
    (hnodup : ∀ t ∈ root.entries tagTargets, ∀ s ∈ t.entries tagSubsystems, (s.intKeys tagNsids tagNsid).Nodup) :
    (delJsonNs (delJsonNs root tgt subnqn ns).root tgt subnqn ns).root = (delJsonNs root tgt subnqn ns).root := by
  obtain ⟨-, i, t, j, s, k, n, ht, hs, -, hn, hid, hroot⟩ := (delJsonNs_ok root tgt subnqn ns).resolve_left (fun hne => hne.1 hret)
  have hs' := hs.put (s.removeAt tagNsids k) (by rw [Json.strField_removeAt_ne (by decide), hs.key])
  have ht' := ht.put (t.putAt tagSubsystems j (s.removeAt tagNsids k)) (by rw [Json.strField_putAt_ne (by decide), ht.key])
  have hdistinct := hnodup t (List.mem_of_getElem? ht.get) s (List.mem_of_getElem? hs.get)
  rw [hroot]
  rcases delJsonNs_ok (root.putAt tagTargets i (t.putAt tagSubsystems j (s.removeAt tagNsids k))) tgt subnqn ns with
    ⟨-, heq⟩ | ⟨-, i', t', j', s', k', n', ht'', hs'', -, hn', hid', -⟩
  · exact heq
  · obtain ⟨-, rfl⟩ := ht'.same ht''
    obtain ⟨-, rfl⟩ := hs'.same hs''
    have hgone := not_mem_eraseIdx hn hid (count_of_nodup hn hid hdistinct)
    rw [← Json.entries_removeAt] at hgone
    exact absurd (List.mem_filterMap.mpr ⟨n', List.mem_of_getElem? hn', hid'⟩) hgone

end

/-! ## Access lists -/

section

variable {J : JsonLib} {root t s : Json} {tgt subnqn data : String} {i j : Nat}

theorem setJsonAcl_again {host : Option String} {arg : HostOut} {r : Reply HostOut}
    (h : setJsonAcl J root tgt subnqn host data arg = .ok r) (hret : r.ret = 0) :
    ∃ r', setJsonAcl J r.root tgt subnqn host data arg = .ok r' ∧ r'.root = r.root := by
  obtain ⟨-, hadd⟩ := (setJsonAcl_ok h).resolve_left (fun hne => hne.1 hret)
  obtain ⟨i, t, j, s, ht, hs, -, hroot⟩ := hadd.added
  obtain ⟨p, x, hx, hkey, -⟩ := hadd.known
  cases hpush : s.canPush tagHosts with
  | false =>
    rw [Json.pushAt_of_not_canPush hpush, ht.putAt_self hs] at hroot
    exact ⟨r, by rw [hroot]; exact h, rfl⟩
  | true =>
    have hlisted : r.out.newalias ∈ (s.pushAt tagHosts (.string r.out.newalias)).strings tagHosts :=
      mem_strings_pushAt_self hpush
    have hs' := hs.put (s.pushAt tagHosts (.string r.out.newalias)) (by rw [Json.strField_pushAt_ne (by decide), hs.key])
    have ht' := ht.put (t.putAt tagSubsystems j (s.pushAt tagHosts (.string r.out.newalias)))
      (by rw [Json.strField_putAt_ne (by decide), ht.key])
    have hknown : r.out.newalias ∈ (root.putAt tagTargets i
        (t.putAt tagSubsystems j (s.pushAt tagHosts (.string r.out.newalias)))).keys tagHosts tagAlias := by
      rw [Json.keys, Json.entries_putAt_ne (by decide)]
      exact List.mem_filterMap.mpr ⟨x, List.mem_of_getElem? hx, hkey⟩
    obtain ⟨targets, htargets, hfind, hget⟩ := ht'.lookup
    obtain ⟨q, hq⟩ := findArray_of_mem hknown
    obtain ⟨k, hk⟩ := findArrayString_of_mem hlisted
    rw [hroot]
    unfold setJsonAcl
    simp only [objectGet_of_mem_keys hknown, htargets, hfind, hget, jsonGetArray_of_entries hs'.get, hs'.find, hadd.name,
      arrayGet_arrayOr hs'.get]
    unfold setJsonAclBody
    simp only [hq, hk, Option.isSome_some, if_true, ensureArray_of_strings hlisted, ht'.putAt_self hs']
    exact ⟨_, rfl, rfl⟩

theorem delJsonAcl_again {host : String} (hret : (delJsonAcl root tgt subnqn host).ret = 0)
    (hcount : ∀ i t j s, TargetAt root tgt i t → SubsysAt t subnqn j s → (s.strings tagHosts).count host = 1) :
    (delJsonAcl (delJsonAcl root tgt subnqn host).root tgt subnqn host).root = (delJsonAcl root tgt subnqn host).root := by
  obtain ⟨-, i, t, j, s, k, ht, hs, hh, hroot⟩ := (delJsonAcl_ok root tgt subnqn host).resolve_left (fun hne => hne.1 hret)
  have hs' := hs.put (s.removeAt tagHosts k) (by rw [Json.strField_removeAt_ne (by decide), hs.key])
  have ht' := ht.put (t.putAt tagSubsystems j (s.removeAt tagHosts k)) (by rw [Json.strField_putAt_ne (by decide), ht.key])
  rw [hroot]
  by_cases hagain :
      (delJsonAcl (root.putAt tagTargets i (t.putAt tagSubsystems j (s.removeAt tagHosts k))) tgt subnqn host).ret = 0
  · obtain ⟨-, i', t', j', s', k', ht'', hs'', hh', -⟩ := (delJsonAcl_ok _ tgt subnqn host).resolve_left (fun hne => hne.1 hagain)
    obtain ⟨-, rfl⟩ := ht'.same ht''
    obtain ⟨-, rfl⟩ := hs'.same hs''
    have hgone := not_mem_eraseIdx (f := Json.stringValue) hh rfl (hcount i t j s ht hs)
    rw [← Json.entries_removeAt] at hgone
    have hmem : host ∈ ((s.removeAt tagHosts k).entries tagHosts).filterMap Json.stringValue :=
      List.mem_filterMap.mpr ⟨_, List.mem_of_getElem? hh', rfl⟩
    exact absurd hmem hgone
  · refine delJsonAcl_refused hagain ?_
    intro i' t' ht''
    obtain ⟨-, rfl⟩ := ht'.same ht''
    obtain ⟨k', hk'⟩ := findArray_of_mem (List.mem_filterMap.mpr ⟨_, List.mem_of_getElem? hs'.get, hs'.key⟩)
    have hknown : subnqn ∈ (t.putAt tagSubsystems j (s.removeAt tagHosts k)).keys tagSubsystems tagSubnqn :=
      List.mem_filterMap.mpr ⟨_, List.mem_of_getElem? hs'.get, hs'.key⟩
    rw [objectGet_of_mem_keys hknown]
    rfl

end

/-! ## Every call -/

/-- A call that a client can make twice. What is made is named; the body of a port gives no other id than the one that is looked up; the
group, the port or the entry of an access list that is deleted is there once. -/
def StoreOp.Repeatable (J : JsonLib) (root : Json) : StoreOp → Prop
  | .addGroup name | .addHost name | .addTarget name => name ≠ none
  | .updateGroup none data _ => (J.loads data).bind (Json.strField tagName) ≠ some ""
  | .delGroup group => (root.keys tagGroups tagName).count group = 1
  | .setPortid _ id data _ => ∀ new value, J.loads data = some new → new.objectGet tagPortid = some value →
      value.integerValue = requestPortid id new
  | .delPortid tgt id => ∀ i t, TargetAt root tgt i t → (t.intKeys tagPortids tagPortid).count id = 1
  | .delAcl tgt subnqn host => ∀ i t j s, TargetAt root tgt i t → SubsysAt t subnqn j s → (s.strings tagHosts).count host = 1
  | _ => True

section

variable {J : JsonLib} {root root' : Json} {op : StoreOp}

theorem map_step_again {α : Type} {f : Json → Except Fault (Reply α)} {ret : Int}
    (hrun : (f root).map Reply.step = .ok (ret, root'))
    (h : ∀ r, f root = .ok r → r.ret = ret → ∃ r', f r.root = .ok r' ∧ r'.root = r.root) :
    ∃ ret', (f root').map Reply.step = .ok (ret', root') := by
  obtain ⟨r, hr, hret, rfl⟩ := map_step_eq_ok hrun
  obtain ⟨r', hr', hroot⟩ := h r hr hret
  exact ⟨r'.ret, by rw [hr', Except.map, Reply.step, hroot]⟩

theorem step_again {α : Type} {f : Json → Reply α} {ret : Int} (hrun : Except.ok (ε := Fault) (f root).step = .ok (ret, root'))
    (h : (f root).ret = ret → (f (f root).root).root = (f root).root) :
    ∃ ret', Except.ok (ε := Fault) (f root').step = .ok (ret', root') := by
  obtain ⟨hret, rfl⟩ := Prod.mk.inj (Except.ok.inj hrun)
  exact ⟨(f (f root).root).ret, congrArg (fun j => Except.ok ((f (f root).root).ret, j)) (h hret)⟩

/-- A call that returned zero, in a store whose names are distinct and whose groups list nobody twice, leaves the store as it is when it
is made again. -/
theorem run_again (hnames : NamesDistinct root) (hgroups : GroupsRefer root) (hrep : op.Repeatable J root)
    (hrun : op.run J root = .ok (0, root')) : ∃ ret, op.run J root' = .ok (ret, root') := by
  have hsubsystems : ∀ t ∈ root.entries tagTargets, (t.keys tagSubsystems tagSubnqn).Nodup :=
    fun t ht => (hnames.targets.all t ht).nodup
  cases op with
  | addGroup group =>
    obtain ⟨g, rfl⟩ := Option.ne_none_iff_exists'.mp hrep
    exact map_step_again (f := fun root => addJsonGroup root (some g)) hrun (fun r => addJsonGroup_again)
  | updateGroup group data name =>
    refine map_step_again (f := fun root => updateJsonGroup J root group data name) hrun (fun r hr hret => ?_)
    exact updateJsonGroup_again hr hret (by rintro rfl; exact hrep)
  | setGroupMember group data name kind out =>
    exact map_step_again (f := fun root => setJsonGroupMember J root group data name kind out) hrun (fun r => setJsonGroupMember_again)
  | delGroupMember group member kind =>
    refine map_step_again (f := fun root => delJsonGroupMember root group member kind) hrun (fun r hr hret => ?_)
    refine delJsonGroupMember_again hr hret (fun x hx => ?_)
    cases kind with
    | host => exact (hgroups x hx).1.nodup
    | target => exact (hgroups x hx).2.nodup
  | delGroup group => exact step_again (f := fun root => delJsonGroup root group) hrun (fun hret => delJsonGroup_again hret hrep)
  | addHost host =>
    obtain ⟨a, rfl⟩ := Option.ne_none_iff_exists'.mp hrep
    exact map_step_again (f := fun root => addJsonHost root (some a)) hrun (fun r => addJsonHost_again)
  | updateHost host data out =>
    exact map_step_again (f := fun root => updateJsonHost J root host data out) hrun (fun r => updateJsonHost_again)
  | delHost host nqn =>
    exact map_step_again (f := fun root => delJsonHost root host nqn) hrun
      (fun r hr hret => delJsonHost_again hr hret hnames.hosts.nodup)
  | setSubsys tgt subnqn data arg =>
    exact map_step_again (f := fun root => setJsonSubsys J root tgt subnqn data arg) hrun (fun r => setJsonSubsys_again)
  | delSubsys tgt subnqn =>
    exact map_step_again (f := fun root => delJsonSubsys root tgt subnqn) hrun
      (fun r hr hret => delJsonSubsys_again hr hret hsubsystems)
  | setPortid tgt id data arg =>
    exact map_step_again (f := fun root => setJsonPortid J root tgt id data arg) hrun
      (fun r hr hret => setJsonPortid_again hr hret hrep)
  | delPortid tgt id => exact step_again (f := fun root => delJsonPortid root tgt id) hrun (fun hret => delJsonPortid_again hret hrep)
  | setNs tgt subnqn data arg => exact step_again (f := fun root => setJsonNs J root tgt subnqn data arg) hrun setJsonNs_again
  | delNs tgt subnqn ns =>
    exact step_again (f := fun root => delJsonNs root tgt subnqn ns) hrun
      (fun hret => delJsonNs_again hret (fun t ht s hs => ((hnames.targets.all t ht).all s hs).nodup))
  | addTarget tgt =>
    obtain ⟨a, rfl⟩ := Option.ne_none_iff_exists'.mp hrep
    exact map_step_again (f := fun root => addJsonTarget root (some a)) hrun (fun r => addJsonTarget_again)
  | updateTarget tgt data arg =>
    exact map_step_again (f := fun root => updateJsonTarget J root tgt data arg) hrun (fun r => updateJsonTarget_again)
  | delTarget tgt =>
    exact map_step_again (f := fun root => delJsonTarget root tgt) hrun
      (fun r hr hret => delJsonTarget_again hr hret hnames.targets.nodup)
  | setAcl tgt subnqn host data arg =>
    exact map_step_again (f := fun root => setJsonAcl J root tgt subnqn host data arg) hrun (fun r => setJsonAcl_again)
  | delAcl tgt subnqn host =>
    exact step_again (f := fun root => delJsonAcl root tgt subnqn host) hrun (fun hret => delJsonAcl_again hret hrep)

end

/-! ## Calls that go on -/

section

variable {J : JsonLib} {root root' t : Json} {tgt : String} {i : Nat}

/-- The root is an object, and what it has for groups, hosts and targets are arrays. -/
def RootArrays (root : Json) : Prop :=
  root.canPush tagGroups = true ∧ root.canPush tagHosts = true ∧ root.canPush tagTargets = true

theorem canPush_renameInGroups (root : Json) (tag member newalias k : String) :
    (renameInGroups root tag member newalias).canPush k = root.canPush k :=
  Json.canPush_adjust (fun v => by cases v <;> rfl) root _ k

theorem canPush_delFromGroups (root : Json) (tag member k : String) : (delFromGroups root tag member).canPush k = root.canPush k :=
  Json.canPush_adjust (fun v => by cases v <;> rfl) root _ k

theorem RootArrays.of_eq (h : RootArrays root) (heq : ∀ k, root'.canPush k = root.canPush k) : RootArrays root' := by
  unfold RootArrays
  rw [heq, heq, heq]
  exact h

theorem RootArrays.effect {op : StoreOp} (h : RootArrays root) (he : Effect J root op root') : RootArrays root' := by
  refine h.of_eq (fun k => ?_)
  cases he with
  | addGroup => exact Json.canPush_pushAt ..
  | updateGroup _ _ hupd =>
    cases hupd with
    | rename => exact Json.canPush_putAt ..
    | create => exact Json.canPush_pushAt ..
  | joinGroup => exact Json.canPush_putAt ..
  | rejoinGroup hfill => exact hfill.canPush k
  | leaveGroup => exact Json.canPush_putAt ..
  | delGroup => exact Json.canPush_removeAt ..
  | addHost => exact Json.canPush_pushAt ..
  | updateHost _ hupd =>
    cases hupd with
    | keep => exact Json.canPush_putAt ..
    | rename =>
      rw [Json.canPush_putAt, canPush_renameInGroups]
      exact (Json.canPush_adjust (fun v => by cases v <;> rfl) _ _ k).trans (Json.canPush_putAt ..)
    | create => exact Json.canPush_pushAt ..
  | delHost =>
    rw [canPush_delFromGroups]
    exact (Json.canPush_adjust (fun v => by cases v <;> rfl) _ _ k).trans (Json.canPush_removeAt ..)
  | keepSubsys hfill => exact hfill.canPush k
  | setSubsys => exact Json.canPush_putAt ..
  | delSubsys => exact Json.canPush_putAt ..
  | setPortid => exact Json.canPush_putAt ..
  | delPortid => exact Json.canPush_putAt ..
  | setNs => exact Json.canPush_putAt ..
  | delNs => exact Json.canPush_putAt ..
  | addTarget => exact Json.canPush_pushAt ..
  | updateTarget _ hupd =>
    cases hupd with
    | keep => exact Json.canPush_putAt ..
    | rename => rw [Json.canPush_putAt, canPush_renameInGroups, Json.canPush_putAt]
    | create => exact Json.canPush_pushAt ..
  | delTarget => rw [canPush_delFromGroups, Json.canPush_removeAt]
  | setAcl hadd =>
    obtain ⟨i, t, j, s, -, -, -, rfl⟩ := hadd.added
    exact Json.canPush_putAt ..
  | delAcl => exact Json.canPush_putAt ..

theorem RootArrays.run {allowed : Json → StoreOp → Prop} (h : StoreRun J allowed root) : RootArrays root := by
  refine Run.invariant h ⟨rfl, rfl, rfl⟩ ?_
  rintro s op s' hi - ⟨ret, hrun⟩
  rcases run_cases hrun with ⟨-, hfill⟩ | ⟨-, he⟩
  · exact hi.of_eq hfill.canPush
  · exact hi.effect he

/-- An entry more makes another value. -/
theorem pushAt_ne {j : Json} {k : String} (hpush : j.canPush k = true) (x : Json) : j.pushAt k x ≠ j := by
  intro heq
  have hlen := congrArg (fun j => (j.entries k).length) heq
  rw [Json.entries_pushAt_of_canPush hpush] at hlen
  simp at hlen

/-- An entry less makes another value. -/
theorem removeAt_ne {j x : Json} {k : String} {i : Nat} (hx : (j.entries k)[i]? = some x) : j.removeAt k i ≠ j := by
  intro heq
  obtain ⟨hlt, -⟩ := List.getElem?_eq_some_iff.mp hx
  have hlen := congrArg (fun j => (j.entries k).length) heq
  rw [Json.entries_removeAt, List.length_eraseIdx_of_lt hlt] at hlen
  omega

/-- An entry replaced by another makes another value. -/
theorem putAt_ne {j x x' : Json} {k : String} {i : Nat} (hx : (j.entries k)[i]? = some x) (hne : x' ≠ x) : j.putAt k i x' ≠ j := by
  intro heq
  have hget := congrArg (fun j => (j.entries k)[i]?) heq
  rw [Json.entries_putAt, List.getElem?_set_self (List.getElem?_eq_some_iff.mp hx).1, hx] at hget
  exact hne (Option.some.inj hget)

/-- An entry of which none is left was there once. -/
theorem count_of_eraseIdx {β : Type*} [DecidableEq β] {f : Json → Option β} {xs : List Json} {i : Nat} {y : Json} {b : β}
    (hy : xs[i]? = some y) (hf : f y = some b) (hgone : b ∉ (xs.eraseIdx i).filterMap f) : (xs.filterMap f).count b = 1 := by
  obtain ⟨l, r, hxs, -, herase⟩ := Keyed.split_at hy
  rw [herase, List.filterMap_append, ← List.count_eq_zero, List.count_append] at hgone
  rw [hxs, List.filterMap_append, List.filterMap_cons, hf, List.count_append, List.count_cons_self]
  omega

theorem not_again_addGroup {ret : Int} (hrun : (StoreOp.addGroup none).run J root = .ok (ret, root')) : root' ≠ root := by
  obtain ⟨r, hr, -, rfl⟩ := map_step_eq_ok hrun
  rcases addJsonGroup_ok hr with ⟨hne, -⟩ | ⟨-, -, hpush, hroot⟩
  · unfold addJsonGroup at hr
    split at hr
    · cases hr
    · rename_i hfind
      rcases findArrayPtr_ok hfind with ⟨v, hv, -⟩ | ⟨-, hnone⟩
      · cases hv
      · cases hnone
    · split at hr
      · cases hr
      · cases hr
        exact absurd rfl hne
  · rw [hroot]
    exact pushAt_ne hpush _

theorem not_again_addHost {ret : Int} (harrays : RootArrays root) (hrun : (StoreOp.addHost none).run J root = .ok (ret, root')) :
    root' ≠ root := by
  obtain ⟨r, hr, -, rfl⟩ := map_step_eq_ok hrun
  rcases addJsonHost_ok hr with ⟨hne, -⟩ | ⟨-, -, hroot⟩
  · unfold addJsonHost at hr
    split at hr
    · cases hr
    · rename_i hfind
      rcases findArrayPtr_ok hfind with ⟨v, hv, -⟩ | ⟨-, hnone⟩
      · cases hv
      · cases hnone
    · cases hr
      exact absurd rfl hne
  · rw [hroot]
    exact pushAt_ne harrays.2.1 _

theorem not_again_addTarget {ret : Int} (harrays : RootArrays root) (hrun : (StoreOp.addTarget none).run J root = .ok (ret, root')) :
    root' ≠ root := by
  obtain ⟨r, hr, -, rfl⟩ := map_step_eq_ok hrun
  rcases addJsonTarget_ok hr with ⟨hne, -⟩ | ⟨-, -, hroot⟩
  · unfold addJsonTarget at hr
    split at hr
    · cases hr
    · rename_i hfind
      rcases findArrayPtr_ok hfind with ⟨v, hv, -⟩ | ⟨-, hnone⟩
      · cases hv
      · cases hnone
    · cases hr
      exact absurd rfl hne
  · rw [hroot]
    exact pushAt_ne harrays.2.2 _

/-- A group with an empty name is made whatever groups there are. -/
theorem not_again_updateGroup {data name : String} {ret : Int} {r₀ : Reply String} {root₀ : Json}
    (h₀ : updateJsonGroup J root₀ none data name = .ok r₀) (hret₀ : r₀.ret = 0)
    (hempty : (J.loads data).bind (Json.strField tagName) = some "")
    (hrun : (StoreOp.updateGroup none data name).run J root = .ok (ret, root')) : root' ≠ root := by
  obtain ⟨hdata, new, value, newname, hnew, hvalue, hcopy⟩ := updateJsonGroup_given h₀ hret₀
  have hstr : new.strField tagName = some newname := by simp [Json.strField, hvalue, strcpy_ok hcopy]
  rw [hnew, Option.bind_some, hstr] at hempty
  obtain rfl := Option.some.inj hempty
  obtain ⟨r, hr, -, rfl⟩ := map_step_eq_ok hrun
  rcases updateJsonGroup_ok hr with ⟨hne, -⟩ | ⟨-, new', newname', -, -, hupd⟩
  · refine absurd ?_ hne
    unfold updateJsonGroup updateJsonGroupBody at hr
    simp only [if_neg hdata, hnew, hvalue, hcopy] at hr
    rw [if_neg (by simp [looksForName])] at hr
    split at hr
    · cases hr
    · split at hr
      · cases hr
      · cases hr
        rfl
  · generalize r.root = root₁ at hupd
    cases hupd with
    | create hfresh hpush => exact pushAt_ne hpush _

theorem delJsonGroup_again_iff {group : String} (hret : (delJsonGroup root group).ret = 0)
    (hagain : (delJsonGroup (delJsonGroup root group).root group).root = (delJsonGroup root group).root) :
    (root.keys tagGroups tagName).count group = 1 := by
  obtain ⟨-, i, x, hx, hroot⟩ := (delJsonGroup_ok root group).resolve_left (fun hne => hne.1 hret)
  rw [hroot] at hagain
  refine count_of_eraseIdx hx.get hx.key ?_
  rw [← Json.entries_removeAt]
  intro hmem
  obtain ⟨i', hi'⟩ := findArray_of_mem (j := root.removeAt tagGroups i) hmem
  have hfound : (delJsonGroup (root.removeAt tagGroups i) group).ret = 0 := by
    unfold delJsonGroup
    rw [objectGet_of_mem_keys (j := root.removeAt tagGroups i) hmem]
    simp only [hi']
  obtain ⟨-, k, y, hy, hroot'⟩ := (delJsonGroup_ok _ group).resolve_left (fun hne => hne.1 hfound)
  rw [hroot'] at hagain
  exact removeAt_ne hy.get hagain

/-- A port that is moved to another id is made anew the second time, or another one is moved. -/
theorem setJsonPortid_again_iff {data : String} {id : Int} {arg : PortArg} {r r' : Reply PortArg}
    (h : setJsonPortid J root tgt id data arg = .ok r) (hret : r.ret = 0) (hr' : setJsonPortid J r.root tgt id data arg = .ok r')
    (hagain : r'.root = r.root) :
    ∀ new value, J.loads data = some new → new.objectGet tagPortid = some value → value.integerValue = requestPortid id new := by
  obtain ⟨-, i, t, t', new, ht, hnew, hid, hupd, hroot⟩ := (setJsonPortid_ok h).resolve_left (fun hne => hne.1 hret)
  have hdata := setJsonPortid_data ht h hret
  have ht' : TargetAt r.root tgt i t' := by
    rw [hroot]
    exact ht.put _ (by rw [strField_portUpdate hupd, ht.key])
  have hports : ∃ (j : Nat) (p : Json), (t'.entries tagPortids)[j]? = some p := by
    generalize r.out = out at hupd
    cases hupd with
    | @change j p p' _ _ hp =>
      refine ⟨j, p', ?_⟩
      rw [Json.entries_putAt]
      exact List.getElem?_set_self (List.getElem?_eq_some_iff.mp hp).1
    | @create p' _ _ hpush =>
      exact ⟨(t.entries tagPortids).length, p', Json.getElem?_entries_pushAt hpush p'⟩
  obtain ⟨j, p, hp⟩ := hports
  obtain ⟨targets, htargets, hfind, hget⟩ := ht'.lookup
  have harray := jsonGetArray_of_entries hp
  unfold setJsonPortid at hr'
  simp only [htargets, hfind, hget, harray, if_neg hdata, hnew, if_neg hid] at hr'
  obtain ⟨-, t'', hupd', hroot'⟩ := setJsonPortidBody_ok hr' harray
  have hsame : t'' = t' := by
    by_contra hne
    exact putAt_ne ht'.get hne (hroot'.symm.trans hagain)
  rintro new' value hnew' hvalue
  obtain rfl : new = new' := Option.some.inj (hnew.symm.trans hnew')
  generalize r'.out = out' at hupd'
  cases hupd' with
  | @change k q q' _ _ hq hqid hfields =>
    have hkeep : q' = q := by
      by_contra hne
      exact putAt_ne hq hne hsame
    have hint := intField_updatePortFields hfields hqid
    rw [hkeep, hqid, hvalue] at hint
    exact (Option.some.inj hint).symm
  | create _ hpush => exact absurd hsame (pushAt_ne hpush _)

theorem findArrayInt_of_mem {j : Json} {k tag : String} {val : Int} (h : val ∈ j.intKeys k tag) :
    ∃ i, findArrayInt (j.arrayOr k) tag val = some i := by
  cases hfind : findArrayInt (j.arrayOr k) tag val with
  | none =>
    have hnone := findArrayInt_none hfind
    rw [Json.elems_arrayOr] at hnone
    exact absurd h hnone
  | some i => exact ⟨i, rfl⟩

/-- An array in which something is read is there. -/
theorem objectGet_of_entries {j x : Json} {k : String} (h : x ∈ j.entries k) : j.objectGet k = some (j.arrayOr k) := by
  cases hget : j.objectGet k with
  | none => simp [Json.entries, hget] at h
  | some v => rw [arrayOr_of_objectGet hget]

theorem delJsonPortid_again_iff {id : Int} (hret : (delJsonPortid root tgt id).ret = 0)
    (hagain : (delJsonPortid (delJsonPortid root tgt id).root tgt id).root = (delJsonPortid root tgt id).root) :
    ∀ i t, TargetAt root tgt i t → (t.intKeys tagPortids tagPortid).count id = 1 := by
  intro i t ht
  obtain ⟨-, i₁, t₁, j, p, ht₁, -, hp, hid, hroot⟩ := (delJsonPortid_ok root tgt id).resolve_left (fun hne => hne.1 hret)
  obtain ⟨rfl, rfl⟩ := ht.same ht₁
  have ht' := ht.put (t.removeAt tagPortids j) (by rw [Json.strField_removeAt_ne (by decide), ht.key])
  rw [hroot] at hagain
  refine count_of_eraseIdx hp hid ?_
  rw [← Json.entries_removeAt]
  intro hmem
  obtain ⟨k, hk⟩ := findArrayInt_of_mem (j := t.removeAt tagPortids j) hmem
  obtain ⟨q, hq, -⟩ := List.mem_filterMap.mp hmem
  obtain ⟨targets, htargets, hfind, hget⟩ := ht'.lookup
  have hfound : (delJsonPortid (root.putAt tagTargets i (t.removeAt tagPortids j)) tgt id).ret = 0 := by
    unfold delJsonPortid delIntFromArray
    simp only [htargets, hfind, hget, objectGet_of_entries hq, hk]
  obtain ⟨-, i', t', k', q', ht'', -, hq', -, hroot'⟩ := (delJsonPortid_ok _ tgt id).resolve_left (fun hne => hne.1 hfound)
  obtain ⟨rfl, rfl⟩ := ht'.same ht''
  rw [hroot'] at hagain
  exact putAt_ne ht'.get (removeAt_ne hq') hagain

theorem delJsonAcl_again_iff {subnqn host : String} (hret : (delJsonAcl root tgt subnqn host).ret = 0)
    (hagain : (delJsonAcl (delJsonAcl root tgt subnqn host).root tgt subnqn host).root = (delJsonAcl root tgt subnqn host).root) :
    ∀ i t j s, TargetAt root tgt i t → SubsysAt t subnqn j s → (s.strings tagHosts).count host = 1 := by
  intro i t j s ht hs
  obtain ⟨-, i₁, t₁, j₁, s₁, k, ht₁, hs₁, hh, hroot⟩ :=
    (delJsonAcl_ok root tgt subnqn host).resolve_left (fun hne => hne.1 hret)
  obtain ⟨rfl, rfl⟩ := ht.same ht₁
  obtain ⟨rfl, rfl⟩ := hs.same hs₁
  have hs' := hs.put (s.removeAt tagHosts k) (by rw [Json.strField_removeAt_ne (by decide), hs.key])
  have ht' := ht.put (t.putAt tagSubsystems j (s.removeAt tagHosts k)) (by rw [Json.strField_putAt_ne (by decide), ht.key])
  rw [hroot] at hagain
  refine count_of_eraseIdx hh rfl ?_
  rw [← Json.entries_removeAt]
  intro hmem
  obtain ⟨m, hm⟩ := findArrayString_of_mem (j := s.removeAt tagHosts k) hmem
  obtain ⟨q, hq, -⟩ := List.mem_filterMap.mp hmem
  obtain ⟨targets, htargets, hfind, hget⟩ := ht'.lookup
  have hfound :
      (delJsonAcl (root.putAt tagTargets i (t.putAt tagSubsystems j (s.removeAt tagHosts k))) tgt subnqn host).ret = 0 := by
    unfold delJsonAcl
    simp only [htargets, hfind, hget, jsonGetArray_of_entries hs'.get, hs'.find, arrayGet_arrayOr hs'.get, objectGet_of_entries hq, hm]
  obtain ⟨-, i', t', j', s', k', ht'', hs'', hh', hroot'⟩ :=
    (delJsonAcl_ok _ tgt subnqn host).resolve_left (fun hne => hne.1 hfound)
  obtain ⟨rfl, rfl⟩ := ht'.same ht''
  obtain ⟨rfl, rfl⟩ := hs'.same hs''
  rw [hroot'] at hagain
  exact putAt_ne ht'.get (putAt_ne hs'.get (removeAt_ne hh')) hagain

end

end NvmeDem
