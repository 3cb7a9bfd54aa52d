import NvmeDem.Lemmas.Asked
import NvmeDem.Lemmas.Local
import NvmeDem.Lemmas.Refusals
import NvmeDem.Lemmas.Settled

/-!
# A call made again

What the functions on groups, hosts and targets do when they are called a second time with the same arguments, on the store that the
first call left: an entry that was made is found, and refused or set to what it is; an entry that was deleted is not found.
-/

namespace NvmeDem

open Jansson

/-! ## Entries found again -/

section

variable {j x : Json} {k tag val : String}

theorem findArray_of_mem (h : val ∈ j.keys k tag) : ∃ i, findArray (j.arrayOr k) tag val = some i := by
  cases hfind : findArray (j.arrayOr k) tag val with
  | none => exact absurd h (findArray_arrayOr_none hfind)
  | some i => exact ⟨i, rfl⟩

theorem findArray_of_not_mem (h : val ∉ j.keys k tag) : findArray (j.arrayOr k) tag val = none := by
  cases hfind : findArray (j.arrayOr k) tag val with
  | none => rfl
  | some i =>
    obtain ⟨hget, hkey⟩ := findArray_arrayOr_some hfind
    exact absurd (List.mem_filterMap.mpr ⟨_, List.mem_of_getElem? hget, hkey⟩) h

theorem findArrayPtr_of_mem (h : val ∈ j.keys k tag) : ∃ i, findArrayPtr (j.arrayOr k) tag (some val) = .ok (some i) := by
  obtain ⟨i, hi⟩ := findArray_of_mem h
  exact ⟨i, congrArg Except.ok hi⟩

theorem findArrayPtr_of_not_mem (h : val ∉ j.keys k tag) : findArrayPtr (j.arrayOr k) tag (some val) = .ok none :=
  congrArg Except.ok (findArray_of_not_mem h)

/-- An entry that was pushed is known by its name. -/
theorem mem_keys_pushAt_self (hpush : j.canPush k = true) (hx : x.strField tag = some val) : val ∈ (j.pushAt k x).keys k tag := by
  exact List.mem_filterMap.mpr ⟨x, List.mem_of_getElem? (Json.getElem?_entries_pushAt hpush x), hx⟩

theorem mem_strings_pushAt_self (hpush : j.canPush k = true) : val ∈ (j.pushAt k (.string val)).strings k := by
  exact List.mem_filterMap.mpr ⟨_, List.mem_of_getElem? (Json.getElem?_entries_pushAt hpush _), rfl⟩

/-- An array with an entry is there. -/
theorem objectGet_of_mem_keys (h : val ∈ j.keys k tag) : j.objectGet k = some (j.arrayOr k) := by
  cases hget : j.objectGet k with
  | none => simp [Json.keys, Json.entries, hget] at h
  | some v => rw [arrayOr_of_objectGet hget]

theorem ensureArray_of_mem_keys (h : val ∈ j.keys k tag) : j.ensureArray k = j :=
  Json.ensureArray_of_isSome (by rw [objectGet_of_mem_keys h]; rfl)

theorem findArrayString_of_mem (h : val ∈ j.strings k) : ∃ i, findArrayString (j.arrayOr k) val = some i := by
  cases hfind : findArrayString (j.arrayOr k) val with
  | none =>
    have hnone := findArrayString_none hfind
    rw [Json.elems_arrayOr] at hnone
    exact absurd h hnone
  | some i => exact ⟨i, rfl⟩

theorem findArrayString_of_not_mem {array : Json} (h : val ∉ array.elems.filterMap Json.stringValue) :
    findArrayString array val = none := by
  cases hfind : findArrayString array val with
  | none => rfl
  | some i =>
    have hget := findArrayString_some hfind
    have hmem : val ∈ array.elems.filterMap Json.stringValue := List.mem_filterMap.mpr ⟨_, List.mem_of_getElem? hget, rfl⟩
    exact absurd hmem h

theorem ensureArray_of_strings (h : val ∈ j.strings k) : j.ensureArray k = j := by
  obtain ⟨x, hx, -⟩ := List.mem_filterMap.mp h
  obtain ⟨i, hi⟩ := List.getElem?_of_mem hx
  exact Json.ensureArray_of_entries hi

/-- A name that one entry has is gone with the entry. -/
theorem not_mem_eraseIdx {β : Type*} [DecidableEq β] {f : Json → Option β} {xs : List Json} {i : Nat} {y : Json} {b : β}
    (hy : xs[i]? = some y) (hf : f y = some b) (hcount : (xs.filterMap f).count b = 1) : b ∉ (xs.eraseIdx i).filterMap f := by
  obtain ⟨l, r, hxs, -, herase⟩ := Keyed.split_at hy
  rw [hxs, List.filterMap_append, List.filterMap_cons, hf, List.count_append, List.count_cons_self] at hcount
  rw [herase, List.filterMap_append, ← List.count_eq_zero, List.count_append]
  omega

theorem count_of_nodup {β : Type*} [DecidableEq β] {f : Json → Option β} {xs : List Json} {i : Nat} {y : Json} {b : β}
    (hy : xs[i]? = some y) (hf : f y = some b) (hnodup : (xs.filterMap f).Nodup) : (xs.filterMap f).count b = 1 :=
  List.count_eq_one_of_mem hnodup (List.mem_filterMap.mpr ⟨y, List.mem_of_getElem? hy, hf⟩)

end

section

variable {J : JsonLib} {root x : Json} {name : String} {i : Nat}

theorem GroupAt.put (hx : GroupAt root name i x) (x' : Json) (hkey : x'.strField tagName = some name) :
    GroupAt (root.putAt tagGroups i x') name i x' := by
  refine ⟨?_, ?_, hkey⟩
  · rw [Json.entries_putAt]
    exact Keyed.findIdx?_set_self hx.first (decide_eq_true hkey)
  · rw [Json.entries_putAt]
    exact List.getElem?_set_self (List.getElem?_eq_some_iff.mp hx.get).1

theorem GroupAt.lookup (hx : GroupAt root name i x) : ∃ groups, root.objectGet tagGroups = some groups ∧
    findArray groups tagName name = some i ∧ arrayGet groups i = x := by
  have hget := hx.get
  cases h : root.objectGet tagGroups with
  | none =>
    rw [Json.entries, h] at hget
    cases hget
  | some groups =>
    have hfirst := hx.first
    rw [entries_of_objectGet h] at hget hfirst
    exact ⟨groups, rfl, hfirst, by rw [arrayGet, hget, Option.getD_some]⟩

theorem TargetAt.put (hx : TargetAt root name i x) (x' : Json) (hkey : x'.strField tagAlias = some name) :
    TargetAt (root.putAt tagTargets i x') name i x' := by
  refine ⟨findArray_putAt hx.first hkey, ?_, hkey⟩
  rw [Json.entries_putAt]
  exact List.getElem?_set_self (List.getElem?_eq_some_iff.mp hx.get).1

theorem SubsysAt.put {t s : Json} {subnqn : String} {j : Nat} (hs : SubsysAt t subnqn j s) (s' : Json)
    (hkey : s'.strField tagSubnqn = some subnqn) : SubsysAt (t.putAt tagSubsystems j s') subnqn j s' := by
  refine ⟨?_, ?_, hkey⟩
  · rw [Json.entries_putAt]
    exact Keyed.findIdx?_set_self hs.first (decide_eq_true hkey)
  · rw [Json.entries_putAt]
    exact List.getElem?_set_self (List.getElem?_eq_some_iff.mp hs.get).1

/-- An array with an entry is read as it is. -/
theorem jsonGetArray_of_entries {t y : Json} {k : String} {j : Nat} (h : (t.entries k)[j]? = some y) :
    jsonGetArray t k = (t, some (t.arrayOr k)) := by
  have harr := (Bool.and_eq_true_iff.mp (Json.canPush_of_entries h)).2
  have hget : t.objectGet k = some (t.arrayOr k) := by
    cases hg : t.objectGet k with
    | none => simp [Json.entries, hg] at h
    | some v => rw [arrayOr_of_objectGet hg]
  rw [jsonGetArray, Json.ensureArray_of_entries h, hget, Option.filter_some, if_pos harr]

end

/-! ## Groups -/

section

variable {J : JsonLib} {root : Json}

theorem addJsonGroup_again {group : String} {r : Reply Unit} (h : addJsonGroup root (some group) = .ok r) (hret : r.ret = 0) :
    ∃ r', addJsonGroup r.root (some group) = .ok r' ∧ r'.root = r.root := by
  obtain ⟨-, -, hpush, hroot⟩ := (addJsonGroup_ok h).resolve_left (fun hne => hne.1 hret)
  rw [hroot]
  obtain ⟨i, hi⟩ := findArrayPtr_of_mem (@mem_keys_pushAt_self root (newGroup (some group)) tagGroups tagName group hpush rfl)
  unfold addJsonGroup
  rw [hi]
  exact ⟨_, rfl, rfl⟩

/-- An update to a name that a group has is refused. -/
theorem updateJsonGroup_taken {group : Option String} {data name newname : String} {new value : Json} (hdata : data ≠ "")
    (hnew : J.loads data = some new) (hvalue : new.objectGet tagName = some value)
    (hcopy : strcpy maxString value.stringValue = .ok newname) (hlooks : looksForName group newname = true)
    (htaken : newname ∈ root.keys tagGroups tagName) :
    ∃ r, updateJsonGroup J root group data name = .ok r ∧ r.root = root := by
  have hbody : ∀ at?, ∃ r, updateJsonGroupBody J root group at? data name = .ok r ∧ r.root = root := by
    intro at?
    obtain ⟨i, hi⟩ := findArray_of_mem htaken
    unfold updateJsonGroupBody
    simp only [hnew, hvalue, hcopy, hlooks, hi, Option.isSome_some, Bool.and_self, if_true]
    exact ⟨_, rfl, rfl⟩
  unfold updateJsonGroup
  rw [if_neg hdata, ensureArray_of_mem_keys htaken]
  cases group with
  | none => exact hbody none
  | some g =>
    dsimp only
    cases findArray (root.arrayOr tagGroups) tagName g with
    | none => exact ⟨_, rfl, rfl⟩
    | some i => exact hbody (some i)

/-- An update that returns zero has a body that gives a name. -/
theorem updateJsonGroup_given {group : Option String} {data name : String} {r : Reply String}
    (h : updateJsonGroup J root group data name = .ok r) (hret : r.ret = 0) :
    data ≠ "" ∧ ∃ new value newname, J.loads data = some new ∧ new.objectGet tagName = some value ∧
      strcpy maxString value.stringValue = .ok newname := by
  have hbody : ∀ root at?, updateJsonGroupBody J root group at? data name = .ok r →
      ∃ new value newname, J.loads data = some new ∧ new.objectGet tagName = some value ∧
        strcpy maxString value.stringValue = .ok newname := by
    intro root at? h
    unfold updateJsonGroupBody at h
    cases hnew : J.loads data with
    | none =>
      rw [hnew] at h
      cases h
      exact absurd hret einval_ne
    | some new =>
      rw [hnew] at h
      cases hvalue : new.objectGet tagName with
      | none =>
        simp only [hvalue] at h
        cases h
        exact absurd hret einval_ne
      | some value =>
        simp only [hvalue] at h
        cases hcopy : strcpy maxString value.stringValue with
        | error f =>
          rw [hcopy] at h
          cases h
        | ok newname => exact ⟨new, value, newname, rfl, hvalue, hcopy⟩
  unfold updateJsonGroup at h
  split at h
  · cases h
    exact absurd hret einval_ne
  · rename_i hdata
    refine ⟨hdata, ?_⟩
    split at h
    · exact hbody _ _ h
    · split at h
      · cases h
        exact absurd hret enoent_ne
      · exact hbody _ _ h

theorem updateJsonGroup_again {group : Option String} {data name : String} {r : Reply String}
    (h : updateJsonGroup J root group data name = .ok r) (hret : r.ret = 0)
    (hnamed : group = none → (J.loads data).bind (Json.strField tagName) ≠ some "") :
    ∃ r', updateJsonGroup J r.root group data name = .ok r' ∧ r'.root = r.root := by
  obtain ⟨hdata, new, value, newname, hnew, hvalue, hcopy⟩ := updateJsonGroup_given h hret
  have hstr : new.strField tagName = some newname := by simp [Json.strField, hvalue, strcpy_ok hcopy]
  obtain ⟨-, new', newname', hnew', hstr', hupd⟩ := (updateJsonGroup_ok h).resolve_left (fun hne => hne.1 hret)
  obtain rfl : new = new' := Option.some.inj (hnew.symm.trans hnew')
  obtain rfl : newname = newname' := Option.some.inj (hstr.symm.trans hstr')
  rw [hnew, Option.bind_some, hstr] at hnamed
  generalize hroot : r.root = root' at hupd ⊢
  cases hupd with
  | @rename g i x hx hg hfresh =>
    by_cases hsame : g = newname
    · -- the group is given the name that it has
      subst hsame
      have hobj := Json.isObject_of_strField hg
      have hkeep : jsonUpdateString x new tagName = x := by
        simp only [jsonUpdateString, hvalue, if_pos hobj, strcpy_ok hcopy]
        unfold jsonSetString
        rw [Json.objectGet_of_strField hg]
        exact Json.objectSet_objectGet (Json.objectGet_of_strField hg)
      rw [hkeep, Json.putAt_getElem? hx] at hroot ⊢
      exact ⟨r, h, hroot⟩
    · refine updateJsonGroup_taken hdata hnew hvalue hcopy (decide_eq_true hsame) ?_
      rw [Json.keys, Json.entries_putAt]
      exact Keyed.mem_keys_set_self hx (strField_jsonUpdateString_self (by rw [hg]; rfl) hstr)
  | create hfresh hpush =>
    have hlooks : newname ≠ "" := fun heq => hnamed rfl (congrArg some heq)
    exact updateJsonGroup_taken hdata hnew hvalue hcopy (decide_eq_true hlooks) (mem_keys_pushAt_self hpush rfl)

theorem setJsonGroupMember_again {group name out : String} {data : Option String} {kind : Member} {r : Reply String}
    (h : setJsonGroupMember J root group data name kind out = .ok r) (hret : r.ret = 0) :
    ∃ r', setJsonGroupMember J r.root group data name kind out = .ok r' ∧ r'.root = r.root := by
  obtain ⟨-, i, x, member, hx, hmember, -, hknown, hadd⟩ := (setJsonGroupMember_ok h).resolve_left (fun hne => hne.1 hret)
  have hcopy : ∃ newalias, strcpy maxAliasSize (some member) = .ok newalias := by
    cases hc : strcpy maxAliasSize (some member) with
    | ok newalias => exact ⟨newalias, rfl⟩
    | error f =>
      obtain ⟨groups, hgroups, hfind, -⟩ := hx.lookup
      obtain ⟨p, hp⟩ := findArray_of_mem hknown
      simp only [setJsonGroupMember, hgroups, hfind, hmember, objectGet_of_mem_keys hknown, hp, hc] at h
      cases h
  -- a store that the call left as it was
  have hsame : r.root = root → ∃ r', setJsonGroupMember J r.root group data name kind out = .ok r' ∧ r'.root = r.root := by
    intro heq
    exact ⟨r, by rw [heq]; exact h, rfl⟩
  rcases hadd with ⟨hlisted, hroot⟩ | ⟨-, hroot⟩
  · rw [ensureArray_of_strings hlisted, Json.putAt_getElem? hx.get] at hroot
    exact hsame hroot
  · cases hpush : x.canPush kind.parentTag with
    | false =>
      rw [Json.pushAt_of_not_canPush hpush, Json.putAt_getElem? hx.get] at hroot
      exact hsame hroot
    | true =>
      have hlisted : member ∈ (x.pushAt kind.parentTag (.string member)).strings kind.parentTag :=
        mem_strings_pushAt_self hpush
      have hx' := hx.put (x.pushAt kind.parentTag (.string member))
        (by rw [Json.strField_pushAt_ne (by cases kind <;> decide)]; exact hx.key)
      have hknown' : member ∈ (root.putAt tagGroups i (x.pushAt kind.parentTag (.string member))).keys kind.parentTag tagAlias := by
        rw [Json.keys, Json.entries_putAt_ne (by cases kind <;> decide)]
        exact hknown
      obtain ⟨groups, hgroups, hfind, hget⟩ := hx'.lookup
      obtain ⟨p, hp⟩ := findArray_of_mem hknown'
      obtain ⟨newalias, hcopy⟩ := hcopy
      obtain ⟨j, hj⟩ := findArrayString_of_mem hlisted
      rw [hroot]
      simp only [setJsonGroupMember, hgroups, hfind, hmember, objectGet_of_mem_keys hknown', hp, hcopy, hget, hj,
        ensureArray_of_strings hlisted, Json.putAt_getElem? hx'.get]
      exact ⟨_, rfl, rfl⟩

theorem delJsonGroupMember_again {group : String} {member : Option String} {kind : Member} {r : Reply Unit}
    (h : delJsonGroupMember root group member kind = .ok r) (hret : r.ret = 0)
    (hnodup : ∀ x ∈ root.entries tagGroups, (x.strings kind.parentTag).Nodup) :
    ∃ r', delJsonGroupMember r.root group member kind = .ok r' ∧ r'.root = r.root := by
  obtain ⟨-, i, x, j, m, hx, rfl, -, hm, hroot⟩ := (delJsonGroupMember_ok h).resolve_left (fun hne => hne.1 hret)
  have hx' := hx.put (x.removeAt kind.parentTag j)
    (by rw [Json.strField_removeAt_ne (by cases kind <;> decide)]; exact hx.key)
  have hgone : m ∉ ((x.removeAt kind.parentTag j).entries kind.parentTag).filterMap Json.stringValue := by
    rw [Json.entries_removeAt]
    exact not_mem_eraseIdx hm rfl (count_of_nodup hm rfl (hnodup x (List.mem_of_getElem? hx.get)))
  obtain ⟨groups, hgroups, hfind, hget⟩ := hx'.lookup
  rw [hroot]
  unfold delJsonGroupMember
  simp only [hgroups, hfind, hget]
  cases hparent : (x.removeAt kind.parentTag j).objectGet kind.parentTag with
  | none => exact ⟨_, rfl, rfl⟩
  | some parent =>
    rw [entries_of_objectGet hparent] at hgone
    simp only [findArrayStringPtr, findArrayString_of_not_mem hgone]
    exact ⟨_, rfl, rfl⟩

theorem delJsonGroup_again {group : String} (hret : (delJsonGroup root group).ret = 0)
    (hcount : (root.keys tagGroups tagName).count group = 1) :
    (delJsonGroup (delJsonGroup root group).root group).root = (delJsonGroup root group).root := by
  obtain ⟨-, i, x, hx, hroot⟩ := (delJsonGroup_ok root group).resolve_left (fun hne => hne.1 hret)
  rw [hroot]
  rcases delJsonGroup_ok (root.removeAt tagGroups i) group with ⟨-, heq⟩ | ⟨-, i', x', hx', -⟩
  · exact heq
  · have hgone := not_mem_eraseIdx hx.get hx.key hcount
    rw [← Json.entries_removeAt] at hgone
    exact absurd (List.mem_filterMap.mpr ⟨x', List.mem_of_getElem? hx'.get, hx'.key⟩) hgone

end

/-! ## Hosts -/

section

variable {J : JsonLib} {root : Json}

theorem addJsonHost_again {host : String} {r : Reply Unit} (h : addJsonHost root (some host) = .ok r) (hret : r.ret = 0) :
    ∃ r', addJsonHost r.root (some host) = .ok r' ∧ r'.root = r.root := by
  obtain ⟨-, -, hroot⟩ := (addJsonHost_ok h).resolve_left (fun hne => hne.1 hret)
  cases hpush : root.canPush tagHosts with
  | false =>
    rw [Json.pushAt_of_not_canPush hpush] at hroot
    exact ⟨r, by rw [hroot]; exact h, rfl⟩
  | true =>
    rw [hroot]
    obtain ⟨i, hi⟩ := findArrayPtr_of_mem
      (@mem_keys_pushAt_self root (jsonSetStringPtr (.object []) tagAlias (some host)) tagHosts tagAlias host hpush rfl)
    unfold addJsonHost
    rw [hi]
    exact ⟨_, rfl, rfl⟩

/-- A host that is made by an update is refused the second time. -/
theorem updateJsonHost_again_none {data : String} {out : HostOut} {r : Reply HostOut} (h : updateJsonHost J root none data out = .ok r)
    (hret : r.ret = 0) : ∃ r', updateJsonHost J r.root none data out = .ok r' ∧ r'.root = r.root := by
  obtain ⟨-, new, hnew, hupd⟩ := (updateJsonHost_ok h).resolve_left (fun hne => hne.1 hret)
  have hmade : ∃ newalias, new.strField tagAlias = some newalias ∧ newalias ∈ r.root.keys tagHosts tagAlias := by
    generalize r.out = o, r.root = root' at hupd ⊢
    cases hupd with
    | create hbody hfresh hpush hnqn =>
      refine ⟨_, hbody, mem_keys_pushAt_self hpush ?_⟩
      rw [strField_jsonUpdateStringEx_hostnqn hnqn]
      exact strField_jsonSetString_self rfl (Or.inr rfl)
  obtain ⟨newalias, hbody, hknown⟩ := hmade
  obtain ⟨i, hi⟩ := findArray_of_mem hknown
  have hvalue := Json.objectGet_of_strField hbody
  unfold updateJsonHost at h ⊢
  split at h
  · cases h
    exact absurd hret einval_ne
  · rename_i hdata
    rw [if_neg hdata, ensureArray_of_mem_keys hknown]
    unfold updateJsonHostBody at h ⊢
    simp only [hnew, hvalue, Json.stringValue] at h ⊢
    cases hcopy : strcpy maxAliasSize (some newalias) with
    | error f =>
      rw [hcopy] at h
      cases h
    | ok copy =>
      obtain rfl := Option.some.inj (strcpy_ok hcopy)
      simp only [hcopy] at h ⊢
      by_cases hlooks : looksForName none newalias = true
      · simp only [if_pos hlooks, hi, Option.isSome_some, if_true]
        exact ⟨_, rfl, rfl⟩
      · rw [if_neg hlooks] at h
        cases h
        exact absurd hret efault_ne

theorem setText_again (w : Json) (tag res : String) (s : Option String) :
    (setText (setText w tag res s).1 tag res s).1 = (setText w tag res s).1 := by
  cases s with
  | none => rfl
  | some s => exact jsonSetString_again rfl (isObject_jsonSetString w tag s)

theorem updateJsonHost_again {host : Option String} {data : String} {out : HostOut} {r : Reply HostOut}
    (h : updateJsonHost J root host data out = .ok r) (hret : r.ret = 0) :
    ∃ r', updateJsonHost J r.root host data out = .ok r' ∧ r'.root = r.root := by
  cases host with
  | none => exact updateJsonHost_again_none h hret
  | some old =>
    cases hfind : findArray (root.arrayOr tagHosts) tagAlias old with
    | none =>
      unfold updateJsonHost at h
      simp only [hfind] at h
      split at h <;> cases h
      · exact absurd hret einval_ne
      · exact absurd hret enoent_ne
    | some i =>
      obtain ⟨hentry, hold⟩ := findArray_arrayOr_some hfind
      have hobj := Json.isObject_of_strField hold
      rw [updateJsonHost_eq hfind] at h
      cases hasks : hostAsks J old data with
      | none =>
        rw [hasks] at h
        cases h
        exact absurd hret einval_ne
      | some u =>
        rw [hasks, Option.elim_some] at h
        unfold grantHost at h
        cases hrename : u.rename with
        | none =>
          simp only [hrename] at h
          obtain ⟨nqn, hfields, hr⟩ := map_eq_ok h
          subst hr
          have hkey : (setText (arrayGet (root.arrayOr tagHosts) i) tagHostnqn out.nqn nqn).1.strField tagAlias = some old := by
            rw [strField_setText_ne (by decide)]
            exact hold
          have hfind' := findArray_putAt hfind hkey
          have hentry' := (findArray_arrayOr_some hfind').1
          have hget : arrayGet ((root.putAt tagHosts i (setText (arrayGet (root.arrayOr tagHosts) i) tagHostnqn out.nqn nqn).1).arrayOr
              tagHosts) i = (setText (arrayGet (root.arrayOr tagHosts) i) tagHostnqn out.nqn nqn).1 := by
            refine arrayGet_arrayOr ?_
            rw [Json.entries_putAt]
            exact List.getElem?_set_self (List.getElem?_eq_some_iff.mp hentry).1
          rw [hget] at hentry'
          refine ⟨setHostNqn (root.putAt tagHosts i (setText (arrayGet (root.arrayOr tagHosts) i) tagHostnqn out.nqn nqn).1) old i
            { out with newalias := old } nqn, ?_, ?_⟩
          · show updateJsonHost J (root.putAt tagHosts i _) (some old) data out = _
            rw [updateJsonHost_eq hfind', hasks, Option.elim_some]
            unfold grantHost
            simp only [hrename, hfields]
            rfl
          · simp only [setHostNqn]
            rw [hget, setText_again, Json.putAt_getElem? hentry']
        | some newalias =>
          simp only [hrename] at h
          split at h
          · cases h
            exact absurd hret eexist_ne
          · obtain ⟨nqn, hfields, hr⟩ := map_eq_ok h
            have hknown : newalias ∈ r.root.keys tagHosts tagAlias := by
              rw [← hr]
              simp only [setHostNqn]
              rw [Json.keys, entries_hosts_renamed]
              refine Keyed.mem_keys_set_self hentry ?_
              rw [strField_setText_ne (by decide), arrayGet_renamedHosts hentry]
              exact strField_jsonSetString_self hobj (Or.inl (by rw [hold]; rfl))
            obtain ⟨k, hk⟩ := findArray_of_mem hknown
            cases hfind' : findArray (r.root.arrayOr tagHosts) tagAlias old with
            | none =>
              unfold updateJsonHost
              simp only [hfind', ensureArray_of_mem_keys hknown]
              split <;> exact ⟨_, rfl, rfl⟩
            | some i' =>
              rw [updateJsonHost_eq hfind', hasks, Option.elim_some]
              unfold grantHost
              simp only [hrename, hk, Option.isSome_some, if_true]
              exact ⟨_, rfl, rfl⟩

theorem delJsonHost_again {host : Option String} {nqn : String} {r : Reply String} (h : delJsonHost root host nqn = .ok r)
    (hret : r.ret = 0) (hnodup : (root.keys tagHosts tagAlias).Nodup) :
    ∃ r', delJsonHost r.root host nqn = .ok r' ∧ r'.root = r.root := by
  obtain ⟨-, i, x, name, hx, hkey, rfl, hroot⟩ := (delJsonHost_ok h).resolve_left (fun hne => hne.1 hret)
  have hgone : name ∉ r.root.keys tagHosts tagAlias := by
    rw [hroot, Json.keys, entries_delFromGroups_ne (by decide), entries_delFromAllowedHosts_ne (by decide), Json.entries_removeAt]
    exact not_mem_eraseIdx hx hkey (count_of_nodup hx hkey hnodup)
  unfold delJsonHost
  cases hhosts : r.root.objectGet tagHosts with
  | none => exact ⟨_, rfl, rfl⟩
  | some hosts =>
    have hnone := findArrayPtr_of_not_mem hgone
    rw [arrayOr_of_objectGet hhosts] at hnone
    simp only [hnone]
    exact ⟨_, rfl, rfl⟩

end

/-! ## Targets -/

section

variable {J : JsonLib} {root : Json}

theorem addJsonTarget_again {tgt : String} {r : Reply Unit} (h : addJsonTarget root (some tgt) = .ok r) (hret : r.ret = 0) :
    ∃ r', addJsonTarget r.root (some tgt) = .ok r' ∧ r'.root = r.root := by
  obtain ⟨-, -, hroot⟩ := (addJsonTarget_ok h).resolve_left (fun hne => hne.1 hret)
  cases hpush : root.canPush tagTargets with
  | false =>
    rw [Json.pushAt_of_not_canPush hpush] at hroot
    exact ⟨r, by rw [hroot]; exact h, rfl⟩
  | true =>
    rw [hroot]
    obtain ⟨i, hi⟩ := findArrayPtr_of_mem (@mem_keys_pushAt_self root (newTarget (some tgt)) tagTargets tagAlias tgt hpush rfl)
    unfold addJsonTarget
    rw [hi]
    exact ⟨_, rfl, rfl⟩

/-- A target that is made by an update is refused the second time. -/
theorem updateJsonTarget_again_none {data : String} {arg : TargetArg} {r : Reply TargetArg}
    (h : updateJsonTarget J root none data arg = .ok r) (hret : r.ret = 0) :
    ∃ r', updateJsonTarget J r.root none data arg = .ok r' ∧ r'.root = r.root := by
  obtain ⟨-, new, hnew, hupd⟩ := (updateJsonTarget_ok h).resolve_left (fun hne => hne.1 hret)
  have hmade : ∃ buf, new.strField tagAlias = some buf ∧ buf ∈ r.root.keys tagTargets tagAlias := by
    generalize r.out = o, r.root = root' at hupd ⊢
    cases hupd with
    | create hbody hfresh hpush hfields =>
      refine ⟨_, hbody, mem_keys_pushAt_self hpush ?_⟩
      rw [strField_updateTargetFields hfields, strField_newTarget]
  obtain ⟨buf, hbody, hknown⟩ := hmade
  obtain ⟨i, hi⟩ := findArray_of_mem hknown
  have hvalue := Json.objectGet_of_strField hbody
  unfold updateJsonTarget at h ⊢
  split at h
  · cases h
    exact absurd hret einval_ne
  · rename_i hdata
    rw [if_neg hdata, ensureArray_of_mem_keys hknown]
    unfold updateJsonTargetBody at h ⊢
    simp only [hnew, hvalue, Json.stringValue] at h ⊢
    cases hcopy : strcpy maxString (some buf) with
    | error f =>
      rw [hcopy] at h
      cases h
    | ok copy =>
      obtain rfl := Option.some.inj (strcpy_ok hcopy)
      simp only [hcopy] at h ⊢
      by_cases hlooks : looksForName none buf = true
      · simp only [if_pos hlooks, hi, Option.isSome_some, if_true]
        exact ⟨_, rfl, rfl⟩
      · rw [if_neg hlooks] at h
        cases h
        exact absurd hret efault_ne

theorem setTargetFields_again {iter iter' new : Json} {target target' : TargetArg} {f : TargetWish} {name : String}
    (hkey : iter.strField tagAlias = some name) (hf : targetFields new = .ok f)
    (h : setTargetFields iter target f = .ok (iter', target')) :
    setTargetFields iter' target f = .ok (iter', target') ∧ iter'.strField tagAlias = some name := by
  have hobj := Json.isObject_of_strField hkey
  have hset : updateTargetFields iter new target = .ok (iter', target') := by
    rw [updateTargetFields_eq hobj, hf]
    exact h
  have hkey' : iter'.strField tagAlias = some name := by
    rw [strField_updateTargetFields hset, hkey]
  have hagain := updateTargetFields_again hobj hset
  rw [updateTargetFields_eq (Json.isObject_of_strField hkey'), hf] at hagain
  exact ⟨hagain, hkey'⟩

theorem updateJsonTarget_again {tgt : Option String} {data : String} {arg : TargetArg} {r : Reply TargetArg}
    (h : updateJsonTarget J root tgt data arg = .ok r) (hret : r.ret = 0) :
    ∃ r', updateJsonTarget J r.root tgt data arg = .ok r' ∧ r'.root = r.root := by
  cases tgt with
  | none => exact updateJsonTarget_again_none h hret
  | some old =>
    cases hfind : findArray (root.arrayOr tagTargets) tagAlias old with
    | none =>
      unfold updateJsonTarget at h
      simp only [hfind] at h
      split at h <;> cases h
      · exact absurd hret einval_ne
      · exact absurd hret enoent_ne
    | some i =>
      obtain ⟨hentry, hold⟩ := findArray_arrayOr_some hfind
      have hobj := Json.isObject_of_strField hold
      rw [updateJsonTarget_eq hfind] at h
      cases hasks : targetAsks J old data with
      | none =>
        rw [hasks] at h
        cases h
        exact absurd hret einval_ne
      | some u =>
        rw [hasks, Option.elim_some] at h
        unfold grantTarget at h
        cases hrename : u.rename with
        | none =>
          simp only [hrename] at h
          obtain ⟨f, hfields, hset⟩ := bind_eq_ok h
          obtain ⟨new, hnew⟩ := asks_fields hasks hfields
          unfold setTarget at hset
          obtain ⟨⟨iter, target⟩, hiter, hr⟩ := map_eq_ok hset
          subst hr
          obtain ⟨hagain, hkey⟩ := setTargetFields_again hold hnew hiter
          have hfind' := findArray_putAt hfind hkey
          have hentry' : ((root.putAt tagTargets i iter).entries tagTargets)[i]? = some iter := by
            rw [Json.entries_putAt]
            exact List.getElem?_set_self (List.getElem?_eq_some_iff.mp hentry).1
          refine ⟨⟨0, s!"{tagTarget} '{old}' {addedOrUpdated (some old)}", root.putAt tagTargets i iter, target⟩, ?_, rfl⟩
          show updateJsonTarget J (root.putAt tagTargets i iter) (some old) data arg = _
          rw [updateJsonTarget_eq hfind', hasks, Option.elim_some]
          unfold grantTarget
          simp only [hrename, hfields, Except.bind]
          unfold setTarget
          rw [arrayGet_arrayOr hentry', hagain, Except.map, Json.putAt_getElem? hentry']
        | some buf =>
          simp only [hrename] at h
          split at h
          · cases h
            exact absurd hret eexist_ne
          · obtain ⟨f, hfields, hset⟩ := bind_eq_ok h
            obtain ⟨new, hnew⟩ := asks_fields hasks hfields
            unfold setTarget at hset
            obtain ⟨⟨iter, target⟩, hiter, hr⟩ := map_eq_ok hset
            rw [arrayGet_renamedTargets hentry] at hiter
            obtain ⟨-, hkey⟩ := setTargetFields_again
              (strField_jsonSetString_self (z := buf) hobj (Or.inl (by rw [hold]; rfl))) hnew hiter
            have hknown : buf ∈ r.root.keys tagTargets tagAlias := by
              rw [← hr, Json.keys, entries_targets_renamed]
              exact Keyed.mem_keys_set_self hentry hkey
            obtain ⟨k, hk⟩ := findArray_of_mem hknown
            cases hfind' : findArray (r.root.arrayOr tagTargets) tagAlias old with
            | none =>
              unfold updateJsonTarget
              simp only [hfind', ensureArray_of_mem_keys hknown]
              split <;> exact ⟨_, rfl, rfl⟩
            | some i' =>
              rw [updateJsonTarget_eq hfind', hasks, Option.elim_some]
              unfold grantTarget
              simp only [hrename, hk, Option.isSome_some, if_true]
              exact ⟨_, rfl, rfl⟩

theorem delJsonTarget_again {tgt : Option String} {r : Reply Unit} (h : delJsonTarget root tgt = .ok r) (hret : r.ret = 0)
    (hnodup : (root.keys tagTargets tagAlias).Nodup) : ∃ r', delJsonTarget r.root tgt = .ok r' ∧ r'.root = r.root := by
  obtain ⟨-, i, t, name, ht, rfl, hroot⟩ := (delJsonTarget_ok h).resolve_left (fun hne => hne.1 hret)
  have hgone : name ∉ r.root.keys tagTargets tagAlias := by
    rw [hroot, Json.keys, entries_delFromGroups_ne (by decide), Json.entries_removeAt]
    exact not_mem_eraseIdx ht.get ht.key (count_of_nodup ht.get ht.key hnodup)
  unfold delJsonTarget
  cases htargets : r.root.objectGet tagTargets with
  | none => exact ⟨_, rfl, rfl⟩
  | some targets =>
    have hnone := findArrayPtr_of_not_mem hgone
    rw [arrayOr_of_objectGet htargets] at hnone
    simp only [hnone]
    exact ⟨_, rfl, rfl⟩

end

end NvmeDem
