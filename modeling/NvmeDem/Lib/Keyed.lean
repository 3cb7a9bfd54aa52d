import Mathlib.Data.List.Basic
import Mathlib.Data.List.Forall2
import Mathlib.Data.List.Nodup

/-!
# Lists of records that are looked up by a key

A table is a list of records with a partial key `f : α → Option β` (a record may have none), read by first match. The
statements say what replacing one record, removing one, appending one or mapping all of them does to the list of keys
`xs.filterMap f`, and when the keys stay pairwise distinct.
-/

namespace Keyed

variable {α β : Type*}

/-! ## One place of a list -/

/-- A list around one of its places: what replacing the record there and removing it give. -/
theorem split_at {xs : List α} {i : Nat} {y : α} (h : xs[i]? = some y) :
    ∃ l r, xs = l ++ y :: r ∧ (∀ x, xs.set i x = l ++ x :: r) ∧ xs.eraseIdx i = l ++ r := by
  obtain ⟨hi, rfl⟩ := List.getElem?_eq_some_iff.mp h
  refine ⟨xs.take i, xs.drop (i + 1), ?_, ?_, ?_⟩
  · rw [← List.drop_eq_getElem_cons hi, List.take_append_drop]
  · intro x
    rw [List.set_eq_take_append_cons_drop, if_pos hi]
  · rw [List.eraseIdx_eq_take_drop_succ]

/-- The record a first-match search finds is there and matches. -/
theorem getElem?_of_findIdx? {p : α → Bool} {xs : List α} {i : Nat} (h : xs.findIdx? p = some i) :
    ∃ x, xs[i]? = some x ∧ p x = true := by
  obtain ⟨hi, hp, -⟩ := List.findIdx?_eq_some_iff_getElem.mp h
  exact ⟨xs[i], List.getElem?_eq_getElem hi, hp⟩

/-- The record that a first-match search finds, found by its place. -/
theorem find?_of_findIdx? {p : α → Bool} {xs : List α} {i : Nat} {y : α} (hi : xs.findIdx? p = some i) (hy : xs[i]? = some y) :
    xs.find? p = some y := by
  rw [List.find?_eq_bind_findIdx?_getElem?, hi, Option.bind_some, hy]

/-- A record put in the place of the first match is found there, if it matches. -/
theorem findIdx?_set_self {p : α → Bool} {xs : List α} {i : Nat} {y : α} (hi : xs.findIdx? p = some i) (hp : p y = true) :
    (xs.set i y).findIdx? p = some i := by
  obtain ⟨hlt, -, hbefore⟩ := List.findIdx?_eq_some_iff_getElem.mp hi
  refine List.findIdx?_eq_some_iff_getElem.mpr ⟨by simpa using hlt, by simpa using hp, ?_⟩
  intro j hj
  rw [List.getElem_set_ne (by omega)]
  exact hbefore j hj

/-- A record put in the place of the first match is the first match, if it matches. -/
theorem find?_set_of_findIdx? {p : α → Bool} {xs : List α} {i : Nat} {y : α} (hi : xs.findIdx? p = some i) (hp : p y = true) :
    (xs.set i y).find? p = some y := by
  obtain ⟨hlt, -, -⟩ := List.findIdx?_eq_some_iff_getElem.mp hi
  exact find?_of_findIdx? (findIdx?_set_self hi hp) (by simp [hlt])

/-- A record appended under a key that no record has is found at the end. -/
theorem findIdx?_concat_fresh [DecidableEq β] {f : α → Option β} {xs : List α} {y : α} {b : β} (hb : b ∉ xs.filterMap f)
    (hy : f y = some b) : (xs ++ [y]).findIdx? (fun x => decide (f x = some b)) = some xs.length := by
  have hnone : xs.findIdx? (fun x => decide (f x = some b)) = none := by
    rw [List.findIdx?_eq_none_iff]
    intro x hx
    exact decide_eq_false (fun hfx => hb (List.mem_filterMap.mpr ⟨x, hx, hfx⟩))
  simp [List.findIdx?_append, hnone, hy]

/-- A record replaced keeps what every record has, if the new one has it. -/
theorem forall_mem_set {P : α → Prop} {xs : List α} {i : Nat} {x : α} (h : ∀ y ∈ xs, P y) (hx : P x) :
    ∀ y ∈ xs.set i x, P y := by
  intro y hy
  rcases List.mem_or_eq_of_mem_set hy with hy | rfl
  · exact h y hy
  · exact hx

/-- A record appended keeps what every record has, if the new one has it. -/
theorem forall_mem_concat {P : α → Prop} {xs : List α} {x : α} (h : ∀ y ∈ xs, P y) (hx : P x) :
    ∀ y ∈ xs ++ [x], P y := by
  intro y hy
  rcases List.mem_append.mp hy with hy | hy
  · exact h y hy
  · rw [List.mem_singleton] at hy
    exact hy ▸ hx

/-- A record removed keeps what every record has. -/
theorem forall_mem_eraseIdx {P : α → Prop} {xs : List α} {i : Nat} (h : ∀ y ∈ xs, P y) :
    ∀ y ∈ xs.eraseIdx i, P y := fun y hy => h y (List.mem_of_mem_eraseIdx hy)

/-- A list whose record was replaced by a related one is related to the list, record by record. -/
theorem forall₂_set {P : α → α → Prop} {xs : List α} {i : Nat} {x x' : α} (hrefl : ∀ y, P y y) (hx : xs[i]? = some x)
    (hP : P x x') : List.Forall₂ P xs (xs.set i x') := by
  obtain ⟨l, r, hxs, hset, -⟩ := split_at hx
  rw [hset, hxs]
  exact List.rel_append (List.forall₂_same.mpr (fun y _ => hrefl y))
    (.cons hP (List.forall₂_same.mpr (fun y _ => hrefl y)))

theorem forall₂_trans {P : α → α → Prop} (htrans : ∀ x y z, P x y → P y z → P x z) {xs ys zs : List α}
    (h : List.Forall₂ P xs ys) (h' : List.Forall₂ P ys zs) : List.Forall₂ P xs zs := by
  induction h generalizing zs with
  | nil =>
    cases h'
    exact .nil
  | cons hx _ ih =>
    cases h' with
    | cons hy h' => exact .cons (htrans _ _ _ hx hy) (ih h')

/-- Related lists after the first related pair that matches was removed. -/
theorem forall₂_eraseP {γ : Type*} {P : α → γ → Prop} {p : α → Bool} {q : γ → Bool} {xs : List α} {ys : List γ}
    (h : List.Forall₂ P xs ys) (hpq : ∀ x y, P x y → p x = q y) : List.Forall₂ P (xs.eraseP p) (ys.eraseP q) := by
  induction h with
  | nil => exact .nil
  | @cons x y xs ys hxy htail ih =>
    have hq := hpq x y hxy
    by_cases hp : p x = true
    · rw [List.eraseP_cons_of_pos hp, List.eraseP_cons_of_pos (hq ▸ hp)]
      exact htail
    · rw [List.eraseP_cons_of_neg hp, List.eraseP_cons_of_neg (hq ▸ hp)]
      exact .cons hxy ih

theorem forall₂_mem_left {γ : Type*} {P : α → γ → Prop} {xs : List α} {ys : List γ} (h : List.Forall₂ P xs ys) {x : α}
    (hx : x ∈ xs) : ∃ y ∈ ys, P x y := by
  obtain ⟨i, hi, rfl⟩ := List.getElem_of_mem hx
  obtain ⟨hlen, hget⟩ := List.forall₂_iff_get.mp h
  exact ⟨_, List.getElem_mem (hlen ▸ hi), hget i hi (hlen ▸ hi)⟩

theorem forall₂_mem_right {γ : Type*} {P : α → γ → Prop} {xs : List α} {ys : List γ} (h : List.Forall₂ P xs ys) {y : γ}
    (hy : y ∈ ys) : ∃ x ∈ xs, P x y :=
  forall₂_mem_left h.flip hy

/-- Related lists are related by what follows for the elements of the first. -/
theorem forall₂_imp_of_mem {γ : Type*} {P Q : α → γ → Prop} {xs : List α} {ys : List γ} (h : List.Forall₂ P xs ys)
    (hPQ : ∀ x y, x ∈ xs → P x y → Q x y) : List.Forall₂ Q xs ys := by
  induction h with
  | nil => exact .nil
  | cons hxy _ ih =>
    exact .cons (hPQ _ _ List.mem_cons_self hxy) (ih (fun x y hx => hPQ x y (List.mem_cons_of_mem _ hx)))

/-- A record with a new key at the end keeps the keys distinct. -/
theorem nodup_map_concat {key : α → β} {xs : List α} {x : α} (hn : (xs.map key).Nodup) (hx : key x ∉ xs.map key) :
    ((xs ++ [x]).map key).Nodup := by
  rw [List.map_append, List.map_singleton, List.nodup_append]
  refine ⟨hn, List.nodup_singleton _, fun a ha b hb => ?_⟩
  rw [List.mem_singleton.mp hb]
  rintro rfl
  exact hx ha

/-! ## The keys after an edit -/

variable {f : α → Option β}

/-- A record replaced by one with the same key leaves the keys as they were. -/
theorem keys_set_of_eq {xs : List α} {i : Nat} {x y : α} (hy : xs[i]? = some y) (hf : f x = f y) :
    (xs.set i x).filterMap f = xs.filterMap f := by
  obtain ⟨l, r, hxs, hset, -⟩ := split_at hy
  rw [hset, hxs]
  simp only [List.filterMap_append, List.filterMap_cons, hf]

/-- A record replaced by one with another key, that no record has, keeps the keys distinct. -/
theorem nodup_keys_set_of_fresh {xs : List α} {i : Nat} {x y : α} {b : β} (hy : xs[i]? = some y) (hf : f x = some b)
    (hb : b ∉ xs.filterMap f) (hn : (xs.filterMap f).Nodup) : ((xs.set i x).filterMap f).Nodup := by
  obtain ⟨l, r, hxs, hset, -⟩ := split_at hy
  rw [hset]
  have hsub : (l.filterMap f ++ r.filterMap f).Sublist (xs.filterMap f) := by
    rw [hxs, List.filterMap_append]
    exact (List.Sublist.refl _).append ((List.sublist_cons_self y r).filterMap f)
  have hperm : ((l ++ x :: r).filterMap f).Perm (b :: (l.filterMap f ++ r.filterMap f)) := by
    rw [List.filterMap_append, List.filterMap_cons, hf]
    exact List.perm_middle
  rw [hperm.nodup_iff, List.nodup_cons]
  exact ⟨fun h => hb (hsub.subset h), hn.sublist hsub⟩

/-- A record appended with a key that no record has keeps the keys distinct. -/
theorem nodup_keys_concat {xs : List α} {x : α} (hx : ∀ b, f x = some b → b ∉ xs.filterMap f)
    (hn : (xs.filterMap f).Nodup) : ((xs ++ [x]).filterMap f).Nodup := by
  rw [List.filterMap_append]
  cases hf : f x with
  | none => simpa [hf] using hn
  | some b =>
    simp only [List.filterMap_cons, hf, List.filterMap_nil]
    exact List.nodup_append.mpr ⟨hn, List.nodup_singleton b, fun a ha c hc =>
      by rw [List.mem_singleton.mp hc]; rintro rfl; exact hx a hf ha⟩

/-- Removing a record keeps the keys distinct. -/
theorem nodup_keys_eraseIdx {xs : List α} {i : Nat} (hn : (xs.filterMap f).Nodup) :
    ((xs.eraseIdx i).filterMap f).Nodup :=
  hn.sublist ((List.eraseIdx_sublist xs i).filterMap f)

/-- The keys a replaced record leaves: those of the others and its own. -/
theorem mem_keys_set {xs : List α} {i : Nat} {x y : α} {a : β} (hy : xs[i]? = some y) (ha : a ∈ xs.filterMap f)
    (hne : f y ≠ some a) : a ∈ (xs.set i x).filterMap f := by
  obtain ⟨l, r, hxs, hset, -⟩ := split_at hy
  rw [hset]
  rw [hxs] at ha
  simp only [List.filterMap_append, List.filterMap_cons, List.mem_append] at ha ⊢
  rcases ha with ha | ha
  · exact Or.inl ha
  · right
    cases hfy : f y with
    | none =>
      simp only [hfy] at ha
      cases f x <;> simp [ha]
    | some b =>
      simp only [hfy, List.mem_cons] at ha
      rcases ha with rfl | ha
      · exact absurd hfy hne
      · cases f x <;> simp [ha]

/-- The key of a replaced record is there. -/
theorem mem_keys_set_self {xs : List α} {i : Nat} {x y : α} {b : β} (hy : xs[i]? = some y) (hf : f x = some b) :
    b ∈ (xs.set i x).filterMap f := by
  obtain ⟨l, r, -, hset, -⟩ := split_at hy
  rw [hset]
  simp [List.filterMap_append, hf]

/-- The keys a removed record leaves: all but its own. -/
theorem mem_keys_eraseIdx {xs : List α} {i : Nat} {y : α} {a : β} (hy : xs[i]? = some y) (ha : a ∈ xs.filterMap f)
    (hne : f y ≠ some a) : a ∈ (xs.eraseIdx i).filterMap f := by
  obtain ⟨l, r, hxs, -, herase⟩ := split_at hy
  rw [herase]
  rw [hxs] at ha
  simp only [List.filterMap_append, List.filterMap_cons, List.mem_append] at ha ⊢
  rcases ha with ha | ha
  · exact Or.inl ha
  · right
    cases hfy : f y with
    | none => simpa only [hfy] using ha
    | some b =>
      simp only [hfy, List.mem_cons] at ha
      rcases ha with rfl | ha
      · exact absurd hfy hne
      · exact ha

/-- When keys are distinct, the key of a removed record is gone. -/
theorem not_mem_keys_eraseIdx {xs : List α} {i : Nat} {y : α} {a : β} (hy : xs[i]? = some y) (hf : f y = some a)
    (hn : (xs.filterMap f).Nodup) : a ∉ (xs.eraseIdx i).filterMap f := by
  obtain ⟨l, r, hxs, -, herase⟩ := split_at hy
  rw [herase]
  rw [hxs, List.filterMap_append, List.filterMap_cons, hf] at hn
  have := (List.perm_middle.nodup_iff.mp hn)
  rw [List.nodup_cons] at this
  simpa [List.filterMap_append] using this.1

/-- When keys are distinct, what is left when a record is removed are the records with another key or none. -/
theorem eraseIdx_eq_filter [DecidableEq β] {xs : List α} {i : Nat} {y : α} {b : β} (hy : xs[i]? = some y) (hf : f y = some b)
    (hn : (xs.filterMap f).Nodup) : xs.eraseIdx i = xs.filter (fun x => decide (f x ≠ some b)) := by
  have hgone := not_mem_keys_eraseIdx hy hf hn
  obtain ⟨l, r, rfl, -, herase⟩ := split_at hy
  rw [herase] at hgone ⊢
  have hkeep : ∀ x ∈ l ++ r, decide (f x ≠ some b) = true := fun x hx =>
    decide_eq_true (fun he => hgone (List.mem_filterMap.mpr ⟨x, hx, he⟩))
  rw [List.filter_append, List.filter_cons_of_neg (by simp [hf]), ← List.filter_append, List.filter_eq_self.mpr hkeep]

/-- When keys are distinct, editing a record is editing all that have its key. -/
theorem set_eq_map [DecidableEq β] {xs : List α} {i : Nat} {y : α} {b : β} (g : α → α) (hy : xs[i]? = some y)
    (hf : f y = some b) (hn : (xs.filterMap f).Nodup) : xs.set i (g y) = xs.map (fun x => if f x = some b then g x else x) := by
  have hgone := not_mem_keys_eraseIdx hy hf hn
  obtain ⟨l, r, rfl, hset, herase⟩ := split_at hy
  rw [herase] at hgone
  have hkeep : ∀ x ∈ l ++ r, (if f x = some b then g x else x) = x := fun x hx =>
    if_neg (fun he => hgone (List.mem_filterMap.mpr ⟨x, hx, he⟩))
  rw [hset, List.map_append, List.map_cons, if_pos hf,
    List.map_congr_left (fun x hx => hkeep x (List.mem_append_left _ hx)), List.map_id',
    List.map_congr_left (fun x hx => hkeep x (List.mem_append_right _ hx)), List.map_id']

/-- Mapping the records without changing a key leaves the keys as they were. -/
theorem keys_map_of_eq {xs : List α} {g : α → α} (h : ∀ x ∈ xs, f (g x) = f x) :
    (xs.map g).filterMap f = xs.filterMap f := by
  rw [List.filterMap_map]
  exact List.filterMap_congr h

theorem keys_mapIdx_of_eq {xs : List α} {g : Nat → α → α} (h : ∀ i, ∀ x ∈ xs, f (g i x) = f x) :
    (xs.mapIdx g).filterMap f = xs.filterMap f := by
  induction xs generalizing g with
  | nil => rfl
  | cons x xs ih =>
    rw [List.mapIdx_cons, List.filterMap_cons, List.filterMap_cons, h 0 x (List.mem_cons_self ..),
      ih (fun i y hy => h (i + 1) y (List.mem_cons_of_mem x hy))]

/-- Two records with one key that is there once are the same. -/
theorem eq_of_count_le_one [DecidableEq β] {xs : List α} {x y : α} {b : β} (hc : (xs.filterMap f).count b ≤ 1)
    (hx : x ∈ xs) (hy : y ∈ xs) (hfx : f x = some b) (hfy : f y = some b) : x = y := by
  induction xs with
  | nil => cases hx
  | cons z xs ih =>
    -- The key of the head is counted together with that of a record of the tail.
    have htail : ∀ u ∈ xs, f u = some b → f z ≠ some b := by
      intro u hu hfu hfz
      rw [List.filterMap_cons_some hfz, List.count_cons_self] at hc
      have := List.count_pos_iff.mpr (List.mem_filterMap.mpr ⟨u, hu, hfu⟩)
      omega
    rcases List.mem_cons.mp hx with hxz | hx
    · rcases List.mem_cons.mp hy with hyz | hy
      · rw [hxz, hyz]
      · exact absurd (hxz ▸ hfx) (htail y hy hfy)
    · rcases List.mem_cons.mp hy with hyz | hy
      · exact absurd (hyz ▸ hfy) (htail x hx hfx)
      · exact ih (Nat.le_trans (((List.sublist_cons_self z xs).filterMap f).count_le b) hc) hx hy

/-! ## The first record that matches -/

/-- The first record that matches is changed. -/
def modifyFirst (p : α → Bool) (g : α → α) : List α → List α
  | [] => []
  | x :: xs => if p x then g x :: xs else x :: modifyFirst p g xs

/-- The record that is changed is the one that a search finds, and the others are those that an erasure leaves. -/
theorem mem_modifyFirst_eraseP {p : α → Bool} {g : α → α} {xs : List α} {y : α} (h : y ∈ modifyFirst p g xs) :
    y ∈ xs.eraseP p ∨ ∃ x ∈ xs, xs.find? p = some x ∧ y = g x := by
  induction xs with
  | nil => cases h
  | cons x xs ih =>
    unfold modifyFirst at h
    split at h
    · rename_i hp
      rw [List.eraseP_cons_of_pos hp]
      rcases List.mem_cons.mp h with rfl | h
      · exact Or.inr ⟨x, List.mem_cons_self, List.find?_cons_of_pos hp, rfl⟩
      · exact Or.inl h
    · rename_i hp
      rw [List.eraseP_cons_of_neg hp]
      rcases List.mem_cons.mp h with rfl | h
      · exact Or.inl List.mem_cons_self
      · rcases ih h with h | ⟨z, hz, hfind, rfl⟩
        · exact Or.inl (List.mem_cons_of_mem x h)
        · exact Or.inr ⟨z, List.mem_cons_of_mem x hz, by rw [List.find?_cons_of_neg hp, hfind], rfl⟩

theorem mem_modifyFirst_find {p : α → Bool} {g : α → α} {xs : List α} {y : α} (h : y ∈ modifyFirst p g xs) :
    y ∈ xs ∨ ∃ x ∈ xs, xs.find? p = some x ∧ y = g x :=
  (mem_modifyFirst_eraseP h).imp_left List.mem_of_mem_eraseP

/-- The records after the one that a search finds was changed: the others and the new one. -/
theorem mem_modifyFirst_iff {p : α → Bool} {g : α → α} {xs : List α} {x y : α} (h : xs.find? p = some x) :
    y ∈ modifyFirst p g xs ↔ y ∈ xs.eraseP p ∨ y = g x := by
  induction xs with
  | nil => cases h
  | cons z xs ih =>
    by_cases hp : p z = true
    · rw [List.find?_cons_of_pos hp] at h
      obtain rfl := Option.some.inj h
      rw [modifyFirst, if_pos hp, List.eraseP_cons_of_pos hp, List.mem_cons, or_comm]
    · rw [List.find?_cons_of_neg hp] at h
      rw [modifyFirst, if_neg hp, List.eraseP_cons_of_neg hp, List.mem_cons, List.mem_cons, ih h, or_assoc]

theorem mem_iff_of_find {p : α → Bool} {xs : List α} {x y : α} (h : xs.find? p = some x) : y ∈ xs ↔ y ∈ xs.eraseP p ∨ y = x := by
  induction xs with
  | nil => cases h
  | cons z xs ih =>
    by_cases hp : p z = true
    · rw [List.find?_cons_of_pos hp] at h
      obtain rfl := Option.some.inj h
      rw [List.eraseP_cons_of_pos hp, List.mem_cons, or_comm]
    · rw [List.find?_cons_of_neg hp] at h
      rw [List.eraseP_cons_of_neg hp, List.mem_cons, List.mem_cons, ih h, or_assoc]

theorem mem_modifyFirst {p : α → Bool} {g : α → α} {xs : List α} {y : α} (h : y ∈ modifyFirst p g xs) :
    y ∈ xs ∨ ∃ x ∈ xs, p x = true ∧ y = g x :=
  (mem_modifyFirst_find h).imp_right (fun ⟨x, hx, hfind, hy⟩ => ⟨x, hx, List.find?_some hfind, hy⟩)

/-- A search for a key stops at the first record if that has it, and goes on otherwise. -/
theorem findIdx?_cons_cases [DecidableEq β] {x : α} {xs : List α} {i : Nat} {b : β}
    (hi : (x :: xs).findIdx? (fun x => decide (f x = some b)) = some i) :
    (f x = some b ∧ i = 0) ∨ (f x ≠ some b ∧ ∃ j, xs.findIdx? (fun x => decide (f x = some b)) = some j ∧ i = j + 1) := by
  rw [List.findIdx?_cons] at hi
  by_cases hx : f x = some b
  · rw [if_pos (decide_eq_true hx)] at hi
    exact Or.inl ⟨hx, (Option.some.inj hi).symm⟩
  · rw [if_neg (by simpa using hx)] at hi
    obtain ⟨j, hj, rfl⟩ := Option.map_eq_some_iff.mp hi
    exact Or.inr ⟨hx, j, hj, rfl⟩

/-- The keys after the first record with a key was given another one. -/
theorem keys_set_first [DecidableEq β] {xs : List α} {i : Nat} {x' : α} {b c : β}
    (hi : xs.findIdx? (fun x => decide (f x = some b)) = some i) (hf : f x' = some c) :
    (xs.set i x').filterMap f = modifyFirst (fun k => k == b) (fun _ => c) (xs.filterMap f) := by
  induction xs generalizing i with
  | nil => cases hi
  | cons x xs ih =>
    rcases findIdx?_cons_cases hi with ⟨hx, rfl⟩ | ⟨hx, j, hj, rfl⟩
    · rw [List.set_cons_zero, List.filterMap_cons_some hf, List.filterMap_cons_some hx, modifyFirst, if_pos (beq_self_eq_true b)]
    · rw [List.set_cons_succ]
      cases hk : f x with
      | none => rw [List.filterMap_cons_none hk, List.filterMap_cons_none hk, ih hj]
      | some k =>
        have hne : ¬(k == b) = true := fun heq => hx (hk.trans (congrArg some (beq_iff_eq.mp heq)))
        rw [List.filterMap_cons_some hk, List.filterMap_cons_some hk, modifyFirst, if_neg hne, ih hj]

/-- The keys after the first record with a key was removed. -/
theorem keys_eraseIdx_first [DecidableEq β] {xs : List α} {i : Nat} {b : β}
    (hi : xs.findIdx? (fun x => decide (f x = some b)) = some i) :
    (xs.eraseIdx i).filterMap f = (xs.filterMap f).eraseP (fun k => k == b) := by
  induction xs generalizing i with
  | nil => cases hi
  | cons x xs ih =>
    rcases findIdx?_cons_cases hi with ⟨hx, rfl⟩ | ⟨hx, j, hj, rfl⟩
    · rw [List.eraseIdx_cons_zero, List.filterMap_cons_some hx,
        List.eraseP_cons_of_pos (p := fun k => k == b) (beq_self_eq_true b)]
    · rw [List.eraseIdx_cons_succ]
      cases hk : f x with
      | none => rw [List.filterMap_cons_none hk, List.filterMap_cons_none hk, ih hj]
      | some k =>
        have hne : ¬(k == b) = true := fun heq => hx (hk.trans (congrArg some (beq_iff_eq.mp heq)))
        rw [List.filterMap_cons_some hk, List.filterMap_cons_some hk,
          List.eraseP_cons_of_neg (p := fun k => k == b) hne, ih hj]

/-- What is read of the records does not depend on what the new record is read as otherwise. -/
theorem modifyFirst_id {p : α → Bool} (xs : List α) : modifyFirst p id xs = xs := by
  induction xs with
  | nil => rfl
  | cons x xs ih =>
    unfold modifyFirst
    split
    · rfl
    · rw [ih]

/-- An edit under the record's own key leaves the keys as they were. -/
theorem map_modifyFirst_same {γ : Type*} {p : α → Bool} {g : α → α} {r : α → γ} (h : ∀ x, r (g x) = r x) (xs : List α) :
    (modifyFirst p g xs).map r = xs.map r := by
  induction xs with
  | nil => rfl
  | cons x xs ih =>
    unfold modifyFirst
    split
    · rw [List.map_cons, h, List.map_cons]
    · rw [List.map_cons, ih, List.map_cons]

/-- A record is changed and another one erased. -/
theorem eraseP_modifyFirst_comm {p q : α → Bool} {g : α → α} {xs : List α}
    (h : ∀ x ∈ xs, p x = true → q x = false ∧ q (g x) = false) :
    (modifyFirst p g xs).eraseP q = modifyFirst p g (xs.eraseP q) := by
  induction xs with
  | nil => rfl
  | cons x xs ih =>
    have hrest := ih (fun y hy => h y (List.mem_cons_of_mem x hy))
    by_cases hp : p x = true
    · obtain ⟨hq, hqg⟩ := h x List.mem_cons_self hp
      rw [modifyFirst, if_pos hp, List.eraseP_cons_of_neg (by simp [hqg]), List.eraseP_cons_of_neg (by simp [hq]), modifyFirst,
        if_pos hp]
    · rw [modifyFirst, if_neg hp]
      by_cases hq : q x = true
      · rw [List.eraseP_cons_of_pos hq, List.eraseP_cons_of_pos hq]
      · rw [List.eraseP_cons_of_neg hq, List.eraseP_cons_of_neg hq, modifyFirst, if_neg hp, hrest]

/-- Records that are read as others: the same one is changed. -/
theorem modifyFirst_map {γ : Type*} {p : α → Bool} {q : γ → Bool} {g : α → α} {g' : γ → γ} {r : α → γ} (hp : ∀ x, p x = q (r x))
    (hg : ∀ x, r (g x) = g' (r x)) (xs : List α) : (modifyFirst p g xs).map r = modifyFirst q g' (xs.map r) := by
  induction xs with
  | nil => rfl
  | cons x xs ih =>
    rw [List.map_cons]
    by_cases hx : p x = true
    · rw [modifyFirst, modifyFirst, if_pos hx, if_pos (hp x ▸ hx), List.map_cons, hg]
    · rw [modifyFirst, modifyFirst, if_neg hx, if_neg (hp x ▸ hx), List.map_cons, ih]

theorem map_modifyFirst_const {γ : Type*} {p : α → Bool} {r : α → γ} {u v : α} (h : r u = r v) (xs : List α) :
    (modifyFirst p (fun _ => u) xs).map r = (modifyFirst p (fun _ => v) xs).map r := by
  induction xs with
  | nil => rfl
  | cons x xs ih =>
    unfold modifyFirst
    split
    · rw [List.map_cons, List.map_cons, h]
    · rw [List.map_cons, List.map_cons, ih]

/-- The last record is the first that matches. -/
theorem modifyFirst_concat {p : α → Bool} {g : α → α} {xs : List α} {y : α} (h : ∀ x ∈ xs, p x = false) (hy : p y = true) :
    modifyFirst p g (xs ++ [y]) = xs ++ [g y] := by
  induction xs with
  | nil => simp [modifyFirst, hy]
  | cons x xs ih =>
    simp [modifyFirst, h x List.mem_cons_self, ih (fun z hz => h z (List.mem_cons_of_mem x hz))]

/-- When nothing matches, nothing is changed. -/
theorem modifyFirst_of_forall_not {p : α → Bool} {g : α → α} {xs : List α} (h : ∀ x ∈ xs, p x = false) :
    modifyFirst p g xs = xs := by
  induction xs with
  | nil => rfl
  | cons x xs ih =>
    simp [modifyFirst, h x List.mem_cons_self, ih (fun y hy => h y (List.mem_cons_of_mem x hy))]

/-- When the record that a search finds stays as it is, nothing is changed. -/
theorem modifyFirst_of_find_same {p : α → Bool} {g : α → α} {xs : List α} (h : ∀ y, xs.find? p = some y → g y = y) :
    modifyFirst p g xs = xs := by
  induction xs with
  | nil => rfl
  | cons x xs ih =>
    unfold modifyFirst
    split
    · rename_i hx
      rw [h x (List.find?_cons_of_pos hx)]
    · rename_i hx
      rw [ih (fun y hy => h y ((List.find?_cons_of_neg hx).trans hy))]

/-- A search finds the record that was changed, if it still matches. -/
theorem find?_modifyFirst {p : α → Bool} {g : α → α} {xs : List α} (h : ∀ x ∈ xs, p x = true → p (g x) = true) :
    (modifyFirst p g xs).find? p = (xs.find? p).map g := by
  induction xs with
  | nil => rfl
  | cons x xs ih =>
    unfold modifyFirst
    split
    · rename_i hx
      rw [List.find?_cons_of_pos (h x List.mem_cons_self hx), List.find?_cons_of_pos hx, Option.map_some]
    · rename_i hx
      rw [List.find?_cons_of_neg hx, List.find?_cons_of_neg hx, ih (fun y hy => h y (List.mem_cons_of_mem x hy))]

/-- A search for something else finds what it found before. -/
theorem find?_modifyFirst_of_not {p q : α → Bool} {g : α → α} {xs : List α}
    (h : ∀ x ∈ xs, p x = true → q x = false ∧ q (g x) = false) : (modifyFirst p g xs).find? q = xs.find? q := by
  induction xs with
  | nil => rfl
  | cons x xs ih =>
    unfold modifyFirst
    split
    · rename_i hx
      obtain ⟨hq, hqg⟩ := h x List.mem_cons_self hx
      rw [List.find?_cons_of_neg (by simp [hqg]), List.find?_cons_of_neg (by simp [hq])]
    · rw [List.find?_cons, List.find?_cons, ih (fun y hy => h y (List.mem_cons_of_mem x hy))]

theorem find?_eraseP_of_not {p q : α → Bool} {xs : List α} (h : ∀ x ∈ xs, p x = true → q x = false) :
    (xs.eraseP p).find? q = xs.find? q := by
  induction xs with
  | nil => rfl
  | cons x xs ih =>
    by_cases hx : p x = true
    · rw [List.eraseP_cons_of_pos hx, List.find?_cons_of_neg (by simp [h x List.mem_cons_self hx])]
    · rw [List.eraseP_cons_of_neg hx, List.find?_cons, List.find?_cons, ih (fun y hy => h y (List.mem_cons_of_mem x hy))]

section

variable [DecidableEq β] {key : α → β} {b : β} {g : α → α}

theorem map_modifyFirst {xs : List α} {c : β} (hg : ∀ x ∈ xs, key x = b → key (g x) = c) :
    (modifyFirst (fun x => key x == b) g xs).map key = modifyFirst (fun k => k == b) (fun _ => c) (xs.map key) := by
  induction xs with
  | nil => rfl
  | cons x xs ih =>
    rw [List.map_cons]
    by_cases hx : key x = b
    · rw [modifyFirst, modifyFirst, if_pos (beq_iff_eq.mpr hx), if_pos (beq_iff_eq.mpr hx), List.map_cons,
        hg x List.mem_cons_self hx]
    · have hne : ¬(key x == b) = true := fun h => hx (beq_iff_eq.mp h)
      rw [modifyFirst, modifyFirst, if_neg hne, if_neg hne, List.map_cons,
        ih (fun y hy => hg y (List.mem_cons_of_mem x hy))]

/-- When keys are distinct, a search for the key of a record finds it. -/
theorem find?_of_mem {xs : List α} {x : α} (hn : (xs.map key).Nodup) (hx : x ∈ xs) :
    xs.find? (fun y => key y == key x) = some x := by
  cases hfind : xs.find? (fun y => key y == key x) with
  | none =>
    have hnot := List.find?_eq_none.mp hfind x hx
    exact absurd (beq_self_eq_true (key x)) hnot
  | some y =>
    have hp := List.find?_some hfind
    exact congrArg some (List.inj_on_of_nodup_map hn (List.mem_of_find?_eq_some hfind) hx (beq_iff_eq.mp hp))

/-- When keys are distinct, the record that a search finds is the first one with its key. -/
theorem modifyFirst_of_find {xs : List α} {p : α → Bool} {y : α} (hn : (xs.map key).Nodup) (hy : xs.find? p = some y) :
    modifyFirst (fun x => key x == key y) g xs = modifyFirst p g xs := by
  induction xs with
  | nil => rfl
  | cons x xs ih =>
    rw [List.map_cons, List.nodup_cons] at hn
    by_cases hp : p x = true
    · rw [List.find?_cons_of_pos hp] at hy
      obtain rfl := Option.some.inj hy
      rw [modifyFirst, modifyFirst, if_pos (beq_self_eq_true _), if_pos hp]
    · rw [List.find?_cons_of_neg hp] at hy
      have hne : ¬(key x == key y) = true := by
        rw [beq_iff_eq]
        intro heq
        exact hn.1 (List.mem_map.mpr ⟨y, List.mem_of_find?_eq_some hy, heq.symm⟩)
      rw [modifyFirst, modifyFirst, if_neg hne, if_neg hp, ih hn.2 hy]

/-- When keys are distinct, the record with a key is the only one that is changed. -/
theorem mem_modifyFirst_of_nodup {xs : List α} {y : α} (hn : (xs.map key).Nodup)
    (h : y ∈ modifyFirst (fun x => key x == b) g xs) : (y ∈ xs ∧ key y ≠ b) ∨ ∃ x ∈ xs, key x = b ∧ y = g x := by
  induction xs with
  | nil => cases h
  | cons x xs ih =>
    rw [List.map_cons, List.nodup_cons] at hn
    unfold modifyFirst at h
    split at h
    · rename_i hx
      obtain rfl : key x = b := beq_iff_eq.mp hx
      rcases List.mem_cons.mp h with rfl | h
      · exact Or.inr ⟨x, List.mem_cons_self, rfl, rfl⟩
      · exact Or.inl ⟨List.mem_cons_of_mem x h, fun hk => hn.1 (List.mem_map.mpr ⟨y, h, hk⟩)⟩
    · rename_i hx
      rcases List.mem_cons.mp h with rfl | h
      · exact Or.inl ⟨List.mem_cons_self, fun hk => hx (beq_iff_eq.mpr hk)⟩
      · rcases ih hn.2 h with ⟨h, hk⟩ | ⟨z, hz, hk, rfl⟩
        · exact Or.inl ⟨List.mem_cons_of_mem x h, hk⟩
        · exact Or.inr ⟨z, List.mem_cons_of_mem x hz, hk, rfl⟩

/-- When keys are distinct, a change of the first record with a key is a change of every one that has it. -/
theorem modifyFirst_eq_map {xs : List α} (hn : (xs.map key).Nodup) :
    modifyFirst (fun x => key x == b) g xs = xs.map (fun x => if key x = b then g x else x) := by
  induction xs with
  | nil => rfl
  | cons x xs ih =>
    rw [List.map_cons, List.nodup_cons] at hn
    rw [modifyFirst, List.map_cons]
    by_cases hx : key x = b
    · have hrest : ∀ y ∈ xs, key y ≠ b := fun y hy hk => hn.1 (List.mem_map.mpr ⟨y, hy, hk.trans hx.symm⟩)
      rw [if_pos (beq_iff_eq.mpr hx), if_pos hx]
      congr 1
      rw [← List.map_id xs, List.map_map]
      exact (List.map_congr_left (fun y hy => if_neg (hrest y hy))).symm
    · rw [if_neg (fun h => hx (beq_iff_eq.mp h)), if_neg hx, ih hn.2]

/-- A record changed to a key that no other has keeps the keys distinct. -/
theorem nodup_modifyFirst {xs : List α} {c : β} (hn : (xs.map key).Nodup) (hg : ∀ x, key (g x) = c)
    (hc : c = b ∨ c ∉ xs.map key) : ((modifyFirst (fun x => key x == b) g xs).map key).Nodup := by
  induction xs with
  | nil => exact hn
  | cons x xs ih =>
    rw [List.map_cons, List.nodup_cons] at hn
    unfold modifyFirst
    split
    · rename_i hx
      rw [List.map_cons, hg, List.nodup_cons]
      refine ⟨?_, hn.2⟩
      rcases hc with rfl | hc
      · rw [← beq_iff_eq.mp hx]
        exact hn.1
      · exact fun hm => hc (List.mem_cons_of_mem _ hm)
    · rename_i hx
      rw [List.map_cons, List.nodup_cons]
      refine ⟨fun hm => ?_, ih hn.2 (hc.imp_right (fun hc hm => hc (List.mem_cons_of_mem _ hm)))⟩
      obtain ⟨y, hy, hk⟩ := List.mem_map.mp hm
      rcases mem_modifyFirst hy with hy | ⟨z, -, -, rfl⟩
      · exact hn.1 (List.mem_map.mpr ⟨y, hy, hk⟩)
      · rw [hg] at hk
        rcases hc with rfl | hc
        · exact hx (beq_iff_eq.mpr hk.symm)
        · exact hc (hk ▸ List.mem_cons_self)

/-- When keys are distinct, no record with a key is left after the first was removed. -/
theorem mem_eraseP_of_nodup {xs : List α} {y : α} (hn : (xs.map key).Nodup)
    (h : y ∈ xs.eraseP (fun x => key x == b)) : y ∈ xs ∧ key y ≠ b := by
  induction xs with
  | nil => cases h
  | cons x xs ih =>
    rw [List.map_cons, List.nodup_cons] at hn
    by_cases hx : key x = b
    · rw [List.eraseP_cons_of_pos (p := fun x => key x == b) (beq_iff_eq.mpr hx)] at h
      exact ⟨List.mem_cons_of_mem x h, fun hk => hn.1 (List.mem_map.mpr ⟨y, h, hk.trans hx.symm⟩)⟩
    · rw [List.eraseP_cons_of_neg (p := fun x => key x == b) (fun h => hx (beq_iff_eq.mp h))] at h
      rcases List.mem_cons.mp h with rfl | h
      · exact ⟨List.mem_cons_self, hx⟩
      · obtain ⟨h, hk⟩ := ih hn.2 h
        exact ⟨List.mem_cons_of_mem x h, hk⟩

/-- When only one record can match, none is left after the first match was removed. -/
theorem mem_eraseP_of_unique {p : α → Bool} {xs : List α} {y : α} (hn : xs.Nodup)
    (hu : ∀ x ∈ xs, ∀ x' ∈ xs, p x = true → p x' = true → x = x') : y ∈ xs.eraseP p ↔ y ∈ xs ∧ ¬p y = true := by
  constructor
  · intro hy
    have hmem := List.mem_of_mem_eraseP hy
    refine ⟨hmem, fun hp => ?_⟩
    obtain ⟨x, l, r, -, hx, hxs, herase⟩ := List.exists_of_eraseP hmem hp
    obtain rfl := hu x (by simp [hxs]) y hmem hx hp
    rw [hxs, List.nodup_middle, List.nodup_cons] at hn
    exact hn.1 (herase ▸ hy)
  · rintro ⟨hy, hp⟩
    exact (List.mem_eraseP_of_neg hp).mpr hy

end

end Keyed
