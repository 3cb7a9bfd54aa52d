import Mathlib.Data.List.Basic
import Mathlib.Data.Nat.ModEq

/-!
# A ring of slots

A queue in a ring of `n` slots is addressed by two counters that only grow: the values queued so far and the values taken so far.
The `k`-th value stands in the slot `place n k`, and the program keeps the two places alone. As long as fewer than `n` values are
queued and not taken, no two of them share a slot, and the two places are the same only when all values are taken: one slot is
always free.
-/

namespace Ring

variable {α : Type*} {n : Nat}

/-- The slot of a value. -/
def place (n k : Nat) : Nat := k % n

theorem place_lt (hn : 0 < n) (k : Nat) : place n k < n := Nat.mod_lt k hn

/-- The slot after the one of a value is the slot of the next value. -/
theorem place_succ (n k : Nat) : (place n k + 1) % n = place n (k + 1) := Nat.mod_add_mod k n 1

/-- Two values that are less than a round apart stand in different slots. -/
theorem place_ne {j k : Nat} (hlt : j < k) (hk : k < j + n) : place n j ≠ place n k := by
  intro heq
  have hdvd : n ∣ k - j := (Nat.modEq_iff_dvd' (Nat.le_of_lt hlt)).mp heq
  have hle : n ≤ k - j := Nat.le_of_dvd (Nat.sub_pos_of_lt hlt) hdvd
  omega

/-- The slots hold the values from the `r`-th on. -/
def Holds (n : Nat) (slots : List (Option α)) (xs : List α) (r : Nat) : Prop :=
  ∀ k x, r ≤ k → xs[k]? = some x → slots[place n k]? = some (some x)

namespace Holds

variable {slots : List (Option α)} {xs : List α} {r : Nat}

theorem mono (h : Holds n slots xs r) {r' : Nat} (hr : r ≤ r') : Holds n slots xs r' :=
  fun k x hk hx => h k x (Nat.le_trans hr hk) hx

theorem of_length_le (h : xs.length ≤ r) : Holds n slots xs r := by
  intro k x hk hx
  rw [List.getElem?_eq_none (Nat.le_trans h hk)] at hx
  cases hx

/-- The free slot is written. -/
theorem store (h : Holds n slots xs r) (hroom : xs.length < r + n) (v : Option α) :
    Holds n (slots.set (place n xs.length) v) xs r := by
  intro k x hk hx
  have hlt := (List.getElem?_eq_some_iff.mp hx).1
  rw [List.getElem?_set_ne (place_ne hlt (by omega)).symm]
  exact h k x hk hx

/-- The value in the free slot counts. -/
theorem push {x : α} (h : Holds n slots xs r) (hx : slots[place n xs.length]? = some (some x)) :
    Holds n slots (xs ++ [x]) r := by
  intro k y hk hy
  rcases Nat.lt_or_ge k xs.length with hlt | hge
  · rw [List.getElem?_append_left hlt] at hy
    exact h k y hk hy
  · rw [List.getElem?_append_right hge, List.getElem?_singleton] at hy
    split at hy
    · rename_i hzero
      obtain rfl : k = xs.length := by omega
      cases hy
      exact hx
    · cases hy

/-- The slot of the first value that is held is written: the others stay. -/
theorem clear (h : Holds n slots xs r) (hroom : xs.length < r + n) (v : Option α) :
    Holds n (slots.set (place n r) v) xs (r + 1) := by
  intro k x hk hx
  have hlt := (List.getElem?_eq_some_iff.mp hx).1
  rw [List.getElem?_set_ne (place_ne (show r < k by omega) (by omega))]
  exact h k x (by omega) hx

end Holds

end Ring
