import Mathlib.Data.List.Basic
import Mathlib.Tactic.Ring

/-!
# Bytes in memory

A piece of memory is a byte at each offset, whatever was there before. A write changes the bytes of its range and no other, and a
read gives the bytes of its range in order. Numbers are kept with the low byte first.
-/

/-! ## Numbers -/

/-- The low `n` bytes of a number, the lowest first. -/
def leBytes : Nat → Nat → List UInt8
  | 0, _ => []
  | n + 1, v => UInt8.ofNat v :: leBytes n (v / 256)

/-- The number that bytes stand for. -/
def ofLe : List UInt8 → Nat
  | [] => 0
  | b :: bs => b.toNat + 256 * ofLe bs

@[simp] theorem length_leBytes (n v : Nat) : (leBytes n v).length = n := by
  induction n generalizing v with
  | zero => rfl
  | succ n ih => simp [leBytes, ih]

theorem ofLe_leBytes (n v : Nat) : ofLe (leBytes n v) = v % 256 ^ n := by
  induction n generalizing v with
  | zero => simp [leBytes, ofLe, Nat.mod_one]
  | succ n ih =>
    have hlow : (UInt8.ofNat v).toNat = v % 256 := rfl
    rw [leBytes, ofLe, ih, hlow, pow_succ', Nat.mod_mul]

theorem ofLe_leBytes_of_lt {n v : Nat} (h : v < 256 ^ n) : ofLe (leBytes n v) = v := by
  rw [ofLe_leBytes, Nat.mod_eq_of_lt h]

theorem ofLe_lt (bytes : List UInt8) : ofLe bytes < 256 ^ bytes.length := by
  induction bytes with
  | nil => exact Nat.one_pos
  | cons b bytes ih =>
    have hb := b.toNat_lt
    rw [ofLe, List.length_cons, pow_succ]
    omega

/-! ## Memory -/

/-- The byte at each offset. -/
def Mem : Type := Nat → UInt8

namespace Mem

/-- Memory that holds one byte everywhere. -/
def filled (b : UInt8) : Mem := fun _ => b

/-- The `n` bytes from an offset on. -/
def read (m : Mem) (off n : Nat) : List UInt8 := (List.range n).map (fun i => m (off + i))

def write (m : Mem) (off : Nat) (bytes : List UInt8) : Mem :=
  fun i => if off ≤ i then (bytes[i - off]?).getD (m i) else m i

variable {m m' : Mem} {off off' n k i : Nat} {bytes : List UInt8}

@[simp] theorem length_read : (m.read off n).length = n := by simp [read]

theorem getElem?_read (h : i < n) : (m.read off n)[i]? = some (m (off + i)) := by
  simp [read, List.getElem?_range h]

theorem read_congr (h : ∀ i, i < n → m (off + i) = m' (off' + i)) : m.read off n = m'.read off' n := by
  refine List.map_congr_left (fun i hi => ?_)
  exact h i (List.mem_range.mp hi)

/-- Two reads with the same bytes saw the same memory. -/
theorem eq_of_read (h : m.read off n = m'.read off n) (hi : i < n) : m (off + i) = m' (off + i) := by
  have hget := congrArg (fun l => l[i]?) h
  simp only [getElem?_read hi, Option.some.injEq] at hget
  exact hget

theorem read_add (m : Mem) (off n k : Nat) : m.read off (n + k) = m.read off n ++ m.read (off + n) k := by
  unfold read
  rw [List.range_add, List.map_append, List.map_map]
  congr 1
  refine List.map_congr_left (fun i _ => ?_)
  exact congrArg m (Nat.add_assoc off n i).symm

theorem take_read (h : k ≤ n) : (m.read off n).take k = m.read off k := by
  obtain ⟨d, rfl⟩ := Nat.exists_eq_add_of_le h
  rw [read_add, List.take_left' length_read]

theorem drop_read (h : k ≤ n) : (m.read off n).drop k = m.read (off + k) (n - k) := by
  obtain ⟨d, rfl⟩ := Nat.exists_eq_add_of_le h
  rw [read_add, List.drop_left' length_read, Nat.add_sub_cancel_left]

/-! ## Writes -/

theorem write_before (h : i < off) : m.write off bytes i = m i := if_neg (Nat.not_le.mpr h)

theorem write_after (h : off + bytes.length ≤ i) : m.write off bytes i = m i := by
  have hnone : bytes[i - off]? = none := List.getElem?_eq_none (by omega)
  simp only [write, hnone, Option.getD_none, ite_self]

theorem write_at (h : i < bytes.length) : m.write off bytes (off + i) = bytes[i] := by
  have hsub : off + i - off = i := by omega
  simp only [write, if_pos (Nat.le_add_right off i), hsub, List.getElem?_eq_getElem h, Option.getD_some]

theorem read_write_self (m : Mem) (off : Nat) (bytes : List UInt8) : (m.write off bytes).read off bytes.length = bytes := by
  refine List.ext_getElem length_read (fun i _ hi => ?_)
  simp only [read, List.getElem_map, List.getElem_range]
  exact write_at hi

/-- What is read where a write put it. -/
theorem read_write_eq (h : bytes.length = n) : (m.write off bytes).read off n = bytes := by
  rw [← h]
  exact read_write_self m off bytes

/-- A read before what was written sees what was there. -/
theorem read_write_before (h : off' + n ≤ off) : (m.write off bytes).read off' n = m.read off' n :=
  read_congr (fun _ hi => write_before (by omega))

/-- A read behind what was written sees what was there. -/
theorem read_write_after (h : off + bytes.length ≤ off') : (m.write off bytes).read off' n = m.read off' n :=
  read_congr (fun _ _ => write_after (by omega))

end Mem
