import NvmeDem.Theorems.Names

/-!
# Lists of names that refer to a table

A group lists aliases of hosts and of targets, a subsystem aliases of hosts. `Refers` says that such a list has no alias twice
and that each alias is one of the names it may refer to. The walks that follow a rename or a deletion fix only the first mention
in a list: no duplicates makes that enough.
-/

namespace NvmeDem

open Jansson

/-- The list under a key has no name twice, and only names from `names`. -/
structure Refers (j : Json) (k : String) (names : List String) : Prop where
  nodup : (j.strings k).Nodup
  known : ∀ m ∈ j.strings k, m ∈ names

namespace Refers

variable {j j' : Json} {k : String} {names names' : List String}

theorem of_nil (h : j.entries k = []) : Refers j k names :=
  ⟨by simp [Json.strings, h], by simp [Json.strings, h]⟩

theorem of_entries (hr : Refers j k names) (h : j'.entries k = j.entries k) : Refers j' k names := by
  unfold Json.entries at h
  exact ⟨by simpa only [Json.strings, Json.entries, h] using hr.nodup,
    by simpa only [Json.strings, Json.entries, h] using hr.known⟩

theorem of_fills (hr : Refers j k names) (h : Json.Fills j j') : Refers j' k names :=
  ⟨by rw [h.strings]; exact hr.nodup, by rw [h.strings]; exact hr.known⟩

/-- A list may refer to more names. -/
theorem mono (hr : Refers j k names) (h : ∀ m ∈ j.strings k, m ∈ names → m ∈ names') : Refers j k names' :=
  ⟨hr.nodup, fun m hm => h m hm (hr.known m hm)⟩

theorem pushAt {m : String} (hr : Refers j k names) (hfresh : m ∉ j.strings k) (hknown : m ∈ names) :
    Refers (j.pushAt k (.string m)) k names := by
  rcases Json.entries_pushAt j k (.string m) with h | h
  · have hs : (j.pushAt k (.string m)).strings k = j.strings k ++ [m] := by
      simp [Json.strings, h, List.filterMap_append, Json.stringValue]
    refine ⟨?_, ?_⟩
    · rw [hs]
      exact List.nodup_append.mpr ⟨hr.nodup, List.nodup_singleton m, fun a ha b hb =>
        by rw [List.mem_singleton.mp hb]; rintro rfl; exact hfresh ha⟩
    · rw [hs]
      exact Keyed.forall_mem_concat hr.known hknown
  · exact hr.of_entries h

theorem removeAt (hr : Refers j k names) (i : Nat) : Refers (j.removeAt k i) k names := by
  have hsub : ((j.removeAt k i).strings k).Sublist (j.strings k) := by
    rw [Json.strings, Json.entries_removeAt]
    exact (List.eraseIdx_sublist _ _).filterMap _
  exact ⟨hr.nodup.sublist hsub, fun m hm => hr.known m (hsub.subset hm)⟩

/-- What `adjust` leaves of the entries under the key it edits. -/
theorem entries_adjust (j : Json) (k : String) (f : Json → Json) (hf : (f (.array [])).elems = []) :
    (j.adjust k f).entries k = (f (j.arrayOr k)).elems := by
  unfold Json.adjust
  split
  · rename_i hnone
    simp [Json.entries, Json.arrayOr, hnone, hf]
  · rename_i v hv
    rw [Json.entries_objectSet_self, if_pos (Json.isObject_of_objectGet hv), arrayOr_of_objectGet hv]

/-- A list after the first mention of a name was renamed: the name is in it no more, the others are as they were. -/
theorem rename {old new : String} (hr : Refers j k names) (hnew : new ∉ names) (hn : new ∈ names')
    (hmono : ∀ m ∈ names, m ≠ old → m ∈ names') : Refers (j.adjust k (renameFirst old new)) k names' := by
  have hentries := entries_adjust j k (renameFirst old new) rfl
  cases hfind : findArrayString (j.arrayOr k) old with
  | none =>
    have hsame : (j.adjust k (renameFirst old new)).entries k = j.entries k := by
      rw [hentries]
      simp only [renameFirst, hfind, Json.elems_arrayOr]
    have hold := findArrayString_none hfind
    rw [Json.elems_arrayOr] at hold
    refine (hr.of_entries hsame).mono (fun m hm hknown => hmono m hknown ?_)
    rintro rfl
    rw [Json.strings, hsame] at hm
    exact hold hm
  | some i =>
    have hi := findArrayString_some hfind
    rw [Json.elems_arrayOr] at hi
    have hset : (j.adjust k (renameFirst old new)).strings k
        = ((j.entries k).set i (.string new)).filterMap Json.stringValue := by
      rw [Json.strings, hentries]
      simp only [renameFirst, hfind, Json.elems_arraySet, Json.elems_arrayOr]
    refine ⟨?_, ?_⟩
    · rw [hset]
      exact Keyed.nodup_keys_set_of_fresh hi rfl (fun h => hnew (hr.known new h)) hr.nodup
    · rw [hset]
      intro m hm
      obtain ⟨l, r, hxs, hlr, herase⟩ := Keyed.split_at hi
      -- what is left of the list besides the new name is the list without the old one
      have hrest : m ∈ (j.entries k).filterMap Json.stringValue ∧ m ≠ old ∨ m = new := by
        have hgone := Keyed.not_mem_keys_eraseIdx (f := Json.stringValue) hi rfl hr.nodup
        rw [hlr, List.filterMap_append, List.filterMap_cons] at hm
        rw [herase, List.filterMap_append] at hgone
        simp only [Json.stringValue, List.mem_append, List.mem_cons] at hm hgone
        rw [hxs, List.filterMap_append, List.filterMap_cons]
        simp only [Json.stringValue, List.mem_append, List.mem_cons]
        rcases hm with hm | rfl | hm
        · exact Or.inl ⟨Or.inl hm, by rintro rfl; exact hgone (Or.inl hm)⟩
        · exact Or.inr rfl
        · exact Or.inl ⟨Or.inr (Or.inr hm), by rintro rfl; exact hgone (Or.inr hm)⟩
      rcases hrest with ⟨hm, hne⟩ | rfl
      · exact hmono m (hr.known m hm) hne
      · exact hn

/-- A list after the first mention of a name was removed: the name is in it no more. -/
theorem without {name : String} (hr : Refers j k names) (hmono : ∀ m ∈ names, m ≠ name → m ∈ names') :
    Refers (j.adjust k (removeFirst name)) k names' := by
  have hentries := entries_adjust j k (removeFirst name) rfl
  cases hfind : findArrayString (j.arrayOr k) name with
  | none =>
    have hsame : (j.adjust k (removeFirst name)).entries k = j.entries k := by
      rw [hentries]
      simp only [removeFirst, hfind, Json.elems_arrayOr]
    have hold := findArrayString_none hfind
    rw [Json.elems_arrayOr] at hold
    refine (hr.of_entries hsame).mono (fun m hm hknown => hmono m hknown ?_)
    rintro rfl
    rw [Json.strings, hsame] at hm
    exact hold hm
  | some i =>
    have hi := findArrayString_some hfind
    rw [Json.elems_arrayOr] at hi
    have herase : (j.adjust k (removeFirst name)).strings k
        = ((j.entries k).eraseIdx i).filterMap Json.stringValue := by
      rw [Json.strings, hentries]
      simp only [removeFirst, hfind, Json.elems_arrayRemove, Json.elems_arrayOr]
    have hgone := Keyed.not_mem_keys_eraseIdx (f := Json.stringValue) hi rfl hr.nodup
    have hsub : (((j.entries k).eraseIdx i).filterMap Json.stringValue).Sublist (j.strings k) :=
      (List.eraseIdx_sublist _ _).filterMap _
    refine ⟨by rw [herase]; exact hr.nodup.sublist hsub, ?_⟩
    rw [herase]
    intro m hm
    exact hmono m (hr.known m (hsub.subset hm)) (by rintro rfl; exact hgone hm)

end Refers

/-! ## The texts of a list after a rename -/

theorem isArray_renameFirst (old new : String) (array : Json) : (renameFirst old new array).isArray = array.isArray := by
  unfold renameFirst
  split
  · exact Json.isArray_arraySet array _ _
  · rfl

theorem isArray_removeFirst (name : String) (array : Json) : (removeFirst name array).isArray = array.isArray := by
  unfold removeFirst
  split
  · exact Json.isArray_arrayRemove array _
  · rfl

@[simp] theorem canPush_groupWithout (tag member : String) (group : Json) (k : String) :
    (groupWithout tag member group).canPush k = group.canPush k := Json.canPush_adjust (isArray_removeFirst member) group tag k

/-- A group that does not list a member loses nothing. -/
theorem strings_groupWithout {tag member : String} {group : Json} (h : member ∉ group.strings tag) :
    (groupWithout tag member group).strings tag = group.strings tag := by
  have hfind : findArrayString (group.arrayOr tag) member = none := by
    rw [findArrayString, List.findIdx?_eq_none_iff, Json.elems_arrayOr]
    intro v hv
    refine decide_eq_false (fun hval => h (List.mem_filterMap.mpr ⟨v, hv, hval⟩))
  rw [Json.strings, groupWithout, Refers.entries_adjust group tag (removeFirst member) rfl]
  simp only [removeFirst, hfind, Json.elems_arrayOr, Json.strings]

/-- A list after the first mention of a name was renamed: the others are still there, and the new name if the old one was. -/
theorem mem_strings_renameFirst {j : Json} {k old : String} (new : String) :
    (∀ m ∈ j.strings k, m ≠ old → m ∈ (j.adjust k (renameFirst old new)).strings k) ∧
      (old ∈ j.strings k → new ∈ (j.adjust k (renameFirst old new)).strings k) := by
  have hentries := Refers.entries_adjust j k (renameFirst old new) rfl
  cases hfind : findArrayString (j.arrayOr k) old with
  | none =>
    have hsame : (j.adjust k (renameFirst old new)).strings k = j.strings k := by
      rw [Json.strings, hentries]
      simp only [renameFirst, hfind, Json.elems_arrayOr, Json.strings]
    have hold := findArrayString_none hfind
    rw [Json.elems_arrayOr] at hold
    rw [hsame]
    exact ⟨fun m hm _ => hm, fun h => absurd h hold⟩
  | some i =>
    have hi := findArrayString_some hfind
    rw [Json.elems_arrayOr] at hi
    have hset : (j.adjust k (renameFirst old new)).strings k
        = ((j.entries k).set i (.string new)).filterMap Json.stringValue := by
      rw [Json.strings, hentries]
      simp only [renameFirst, hfind, Json.elems_arraySet, Json.elems_arrayOr]
    rw [hset]
    refine ⟨fun m hm hne => Keyed.mem_keys_set hi hm (fun heq => hne (Option.some.inj heq).symm), fun _ => ?_⟩
    exact Keyed.mem_keys_set_self hi rfl

/-! ## The names after an edit of a table -/

theorem keys_of_entries {root root' : Json} {k : String} (tag : String) (h : root'.entries k = root.entries k) :
    root'.keys k tag = root.keys k tag := by
  simp only [Json.keys, h]

/-- Names that are there stay there when an entry is added. -/
theorem mem_keys_pushAt {root x : Json} {k tag m : String} (h : m ∈ root.keys k tag) : m ∈ (root.pushAt k x).keys k tag := by
  rcases Json.entries_pushAt root k x with he | he
  · rw [Json.keys, he, List.filterMap_append]
    exact List.mem_append_left _ h
  · rw [keys_of_entries tag he]
    exact h

/-- The aliases of the hosts after one was renamed. -/
theorem mem_keys_renamed {root root' x x' : Json} {k tag old new : String} {i : Nat}
    (hx : (root.entries k)[i]? = some x) (hold : x.strField tag = some old) (hnew : x'.strField tag = some new)
    (hset : root'.entries k = (root.entries k).set i x') :
    new ∈ root'.keys k tag ∧ ∀ m ∈ root.keys k tag, m ≠ old → m ∈ root'.keys k tag := by
  refine ⟨?_, ?_⟩
  · rw [Json.keys, hset]
    exact Keyed.mem_keys_set_self hx hnew
  · intro m hm hne
    rw [Json.keys, hset]
    exact Keyed.mem_keys_set hx hm (by rw [hold]; rintro ⟨⟩; exact hne rfl)

/-- The aliases of a table after one entry was removed. -/
theorem mem_keys_removed {root root' x : Json} {k tag old : String} {i : Nat}
    (hx : (root.entries k)[i]? = some x) (hold : x.strField tag = some old)
    (herase : root'.entries k = (root.entries k).eraseIdx i) : ∀ m ∈ root.keys k tag, m ≠ old → m ∈ root'.keys k tag := by
  intro m hm hne
  rw [Json.keys, herase]
  exact Keyed.mem_keys_eraseIdx hx hm (by rw [hold]; rintro ⟨⟩; exact hne rfl)

end NvmeDem
