import NvmeDem.Lib.Keyed
import Mathlib.Data.List.Forall2

/-!
# A table that is kept twice

Two lists of records that stand for one another, pair by pair and in one order: the records of a pair have the same key. A
search for the first record with a key then finds a pair, so that an edit of the record that is found on one side and an edit
of the record that is found on the other keep the lists paired, whether keys are distinct or not.
-/

namespace Keyed

variable {α β κ : Type*} {f : α → Option κ} {key : β → κ} {R S : α → β → Prop} {xs : List α} {ys : List β}

/-- The records of two lists, pair by pair: each pair has one key and is related by `R`. -/
def Pairs (f : α → Option κ) (key : β → κ) (R : α → β → Prop) (xs : List α) (ys : List β) : Prop :=
  List.Forall₂ (fun x y => f x = some (key y) ∧ R x y) xs ys

namespace Pairs

theorem imp (h : Pairs f key R xs ys) (hR : ∀ x y, R x y → S x y) : Pairs f key S xs ys :=
  List.Forall₂.imp (fun _ _ hxy => ⟨hxy.1, hR _ _ hxy.2⟩) h

theorem keys (h : Pairs f key R xs ys) : xs.filterMap f = ys.map key := by
  induction h with
  | nil => rfl
  | cons hxy _ ih => rw [List.filterMap_cons_some hxy.1, List.map_cons, ih]

/-- The second list, where a record of it is made of its record of the first. -/
theorem filterMap_eq {g : α → Option β} (h : Pairs f key (fun x y => g x = some y) xs ys) : xs.filterMap g = ys := by
  induction h with
  | nil => rfl
  | cons hxy _ ih => rw [List.filterMap_cons_some hxy.2, ih]

/-- A record of the second list has a record of the first. -/
theorem of_mem (h : Pairs f key R xs ys) {y : β} (hy : y ∈ ys) : ∃ x ∈ xs, f x = some (key y) ∧ R x y := by
  induction h with
  | nil => cases hy
  | @cons x y' xs ys hxy _ ih =>
    rcases List.mem_cons.mp hy with rfl | hy
    · exact ⟨x, List.mem_cons_self, hxy⟩
    · obtain ⟨x', hx', hrel⟩ := ih hy
      exact ⟨x', List.mem_cons_of_mem x hx', hrel⟩

theorem concat (h : Pairs f key R xs ys) {x : α} {y : β} (hf : f x = some (key y)) (hR : R x y) :
    Pairs f key R (xs ++ [x]) (ys ++ [y]) :=
  List.rel_append h (.cons ⟨hf, hR⟩ .nil)

/-- The records of the second list changed, each under its own key. -/
theorem map_right (h : Pairs f key R xs ys) {g : β → β} (hkey : ∀ y, key (g y) = key y) (hR : ∀ x y, R x y → S x (g y)) :
    Pairs f key S xs (ys.map g) := by
  refine List.forall₂_map_right_iff.mpr (List.Forall₂.imp (fun x y hxy => ?_) h)
  rw [hkey]
  exact ⟨hxy.1, hR x y hxy.2⟩

/-- The first record of the second list that matches changed under its own key. -/
theorem modify_right (h : Pairs f key R xs ys) {p : β → Bool} {g : β → β} (hkey : ∀ y, key (g y) = key y)
    (hR : ∀ x y, R x y → R x (g y)) : Pairs f key R xs (modifyFirst p g ys) := by
  induction h with
  | nil => exact .nil
  | @cons x y xs ys hxy htail ih =>
    unfold modifyFirst
    split
    · exact .cons ⟨by rw [hkey, hxy.1], hR x y hxy.2⟩ htail
    · exact .cons hxy ih

/-- The records of the first list changed one by one, each under its own key. -/
theorem of_left {P : α → α → Prop} {xs' : List α} (hP : List.Forall₂ P xs xs') (h : Pairs f key R xs ys)
    (hf : ∀ {x x'}, P x x' → f x' = f x) (hR : ∀ {x x' y}, P x x' → R x y → R x' y) : Pairs f key R xs' ys := by
  induction hP generalizing ys with
  | nil =>
    cases h
    exact .nil
  | cons hx _ ih =>
    cases h with
    | cons hxy h => exact .cons ⟨(hf hx).trans hxy.1, hR hx hxy.2⟩ (ih h)

/-- Every record changed on both sides. -/
theorem map_both {P : α → α → Prop} {xs' : List α} {g : β → β} (hP : List.Forall₂ P xs xs') (h : Pairs f key R xs ys)
    (hg : ∀ x x' y, y ∈ ys → P x x' → f x = some (key y) → R x y → f x' = some (key (g y)) ∧ S x' (g y)) :
    Pairs f key S xs' (ys.map g) := by
  induction hP generalizing ys with
  | nil =>
    cases h
    exact .nil
  | cons hx _ ih =>
    cases h with
    | @cons _ y _ ys hxy h =>
      exact .cons (hg _ _ y List.mem_cons_self hx hxy.1 hxy.2)
        (ih h (fun x x' y hy => hg x x' y (List.mem_cons_of_mem _ hy)))

variable [DecidableEq κ] {b : κ} {i : Nat}

/-- A search stops at the first pair if that has the key, and goes on otherwise. -/
theorem findIdx_cons {x : α} {y : β} (hxy : f x = some (key y))
    (hi : (x :: xs).findIdx? (fun x => decide (f x = some b)) = some i) :
    (key y = b ∧ i = 0) ∨ (key y ≠ b ∧ ∃ j, xs.findIdx? (fun x => decide (f x = some b)) = some j ∧ i = j + 1) := by
  have hcases := findIdx?_cons_cases hi
  simpa only [hxy, ne_eq, Option.some.injEq] using hcases

/-- What a search finds on both sides is a pair. -/
theorem find (h : Pairs f key R xs ys) (hi : xs.findIdx? (fun x => decide (f x = some b)) = some i) :
    ∃ x y, xs[i]? = some x ∧ ys.find? (fun y => key y == b) = some y ∧ key y = b ∧ R x y := by
  induction h generalizing i with
  | nil => cases hi
  | @cons x y xs ys hxy _ ih =>
    rcases findIdx_cons hxy.1 hi with ⟨hb, rfl⟩ | ⟨hb, j, hj, rfl⟩
    · exact ⟨x, y, rfl, List.find?_cons_of_pos (beq_iff_eq.mpr hb), hb, hxy.2⟩
    · obtain ⟨x', y', hx', hy', hrest⟩ := ih hj
      exact ⟨x', y', by simpa using hx', by rwa [List.find?_cons_of_neg (by simpa using hb)], hrest⟩

/-- What is not found on the one side is not found on the other. -/
theorem find_none (h : Pairs f key R xs ys) (hi : xs.findIdx? (fun x => decide (f x = some b)) = none) :
    ys.find? (fun y => key y == b) = none := by
  rw [List.find?_eq_none]
  intro y hy
  obtain ⟨x, hx, hf, -⟩ := h.of_mem hy
  have hne := of_decide_eq_false (List.findIdx?_eq_none_iff.mp hi x hx)
  rw [hf] at hne
  simpa using hne

/-- The pair that a search finds is changed. -/
theorem modify (h : Pairs f key R xs ys) (hi : xs.findIdx? (fun x => decide (f x = some b)) = some i) {x' : α} {g : β → β}
    (hg : ∀ x y, xs[i]? = some x → ys.find? (fun y => key y == b) = some y → key y = b → R x y →
      f x' = some (key (g y)) ∧ R x' (g y)) :
    Pairs f key R (xs.set i x') (modifyFirst (fun y => key y == b) g ys) := by
  induction h generalizing i with
  | nil => cases hi
  | @cons x y xs ys hxy htail ih =>
    rcases findIdx_cons hxy.1 hi with ⟨hb, rfl⟩ | ⟨hb, j, hj, rfl⟩
    · rw [modifyFirst, if_pos (beq_iff_eq.mpr hb), List.set_cons_zero]
      exact .cons (hg x y rfl (List.find?_cons_of_pos (beq_iff_eq.mpr hb)) hb hxy.2) htail
    · rw [modifyFirst, if_neg (by simpa using hb), List.set_cons_succ]
      refine .cons hxy (ih hj (fun z w hz hw => hg z w (by simpa using hz) ?_))
      rwa [List.find?_cons_of_neg (by simpa using hb)]

/-- The pair that a search finds is removed. -/
theorem erase (h : Pairs f key R xs ys) (hi : xs.findIdx? (fun x => decide (f x = some b)) = some i) :
    Pairs f key R (xs.eraseIdx i) (ys.eraseP (fun y => key y == b)) := by
  induction h generalizing i with
  | nil => cases hi
  | @cons x y xs ys hxy htail ih =>
    rcases findIdx_cons hxy.1 hi with ⟨hb, rfl⟩ | ⟨hb, j, hj, rfl⟩
    · rw [List.eraseP_cons_of_pos (p := fun y => key y == b) (beq_iff_eq.mpr hb), List.eraseIdx_cons_zero]
      exact htail
    · rw [List.eraseP_cons_of_neg (p := fun y => key y == b) (by simpa using hb), List.eraseIdx_cons_succ]
      exact .cons hxy (ih hj)

end Pairs

end Keyed
