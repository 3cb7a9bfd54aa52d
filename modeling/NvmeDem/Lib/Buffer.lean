import Mathlib.Data.List.Infix
import Mathlib.Tactic.Ring

/-!
# Texts that are written into a block of memory

A text is copied to a place of a block and a terminator goes behind it. A copy is refused when it, or its terminator, would end outside.
Texts that are copied one behind the other all fit when the terminator of the last one does (`puts_isSome_iff`).

A block can also be made larger by a fixed step whenever the next text, without its terminator, would not fit (`append`). Then a text that
ends where the block ends is not noticed: the appending of texts, each no longer than a step, goes wrong when they add up to a whole number
of steps at some point and the block could be made that large (`appendAll_overflow_iff`).
-/

namespace Buffer

/-- A block of memory: how many cells it has and what they hold. -/
structure Block (α : Type*) where
  size : Nat
  cell : Nat → α

variable {α : Type*} {z : α}

/-! ## Texts one behind the other -/

/-- Copy a text and the terminator `z` to a place. -/
def Block.put (z : α) (b : Block α) (p : Nat) (text : List α) : Option (Block α) :=
  if p + text.length < b.size then
    some { b with cell := fun i => if i < p then b.cell i else if i = p + text.length then z else text.getD (i - p) (b.cell i) }
  else none

/-- A block of another size with the cells that both have. What else it has comes with the memory. -/
def Block.resize (b : Block α) (size : Nat) (fresh : Nat → α) : Block α :=
  { size := size, cell := fun i => if i < b.size then b.cell i else fresh i }

/-- Copy texts one behind the other. With the block comes where the last one ends. -/
def Block.puts (z : α) (b : Block α) : List (List α) → Nat → Option (Nat × Block α)
  | [], p => some (p, b)
  | text :: texts, p => (b.put z p text).bind (fun b => b.puts z texts (p + text.length))

/-- How long texts are together. -/
def total (texts : List (List α)) : Nat := (texts.map List.length).sum

@[simp] theorem total_nil : total ([] : List (List α)) = 0 := rfl

@[simp] theorem total_cons (text : List α) (texts : List (List α)) : total (text :: texts) = text.length + total texts := by
  simp [total]

@[simp] theorem total_append (texts texts' : List (List α)) : total (texts ++ texts') = total texts + total texts' := by
  simp [total]

@[simp] theorem size_resize (b : Block α) (size : Nat) (fresh : Nat → α) : (b.resize size fresh).size = size := rfl

theorem put_eq_none_iff {b : Block α} {p : Nat} {text : List α} : b.put z p text = none ↔ b.size ≤ p + text.length := by
  simp [Block.put]

theorem put_eq_some {b b' : Block α} {p : Nat} {text : List α} (h : b.put z p text = some b') :
    p + text.length < b.size ∧ b'.size = b.size := by
  unfold Block.put at h
  split at h
  · exact ⟨‹_›, by rw [← Option.some.inj h]⟩
  · cases h

theorem puts_append (texts texts' : List (List α)) (p : Nat) (b : Block α) :
    b.puts z (texts ++ texts') p = (b.puts z texts p).bind (fun x => x.2.puts z texts' x.1) := by
  induction texts generalizing p b with
  | nil => rfl
  | cons text texts ih =>
    rw [List.cons_append, Block.puts, Block.puts, Option.bind_assoc]
    exact Option.bind_congr (fun b' _ => ih (p + text.length) b')

/-- Texts that are copied end behind the last one, in a block of the same size. -/
theorem puts_eq_some {texts : List (List α)} {p p' : Nat} {b b' : Block α} (h : b.puts z texts p = some (p', b')) :
    p' = p + total texts ∧ b'.size = b.size := by
  induction texts generalizing p b with
  | nil =>
    obtain ⟨rfl, rfl⟩ := Prod.mk.inj (Option.some.inj h)
    exact ⟨rfl, rfl⟩
  | cons text texts ih =>
    obtain ⟨b₁, hput, hputs⟩ := Option.bind_eq_some_iff.mp h
    obtain ⟨hp, hsize⟩ := ih hputs
    rw [total_cons, hp, hsize, (put_eq_some hput).2, Nat.add_assoc]
    exact ⟨rfl, rfl⟩

/-- Texts fit when the terminator of the last one does. -/
theorem puts_isSome_iff {texts : List (List α)} {p : Nat} {b : Block α} :
    (b.puts z texts p).isSome = true ↔ texts = [] ∨ p + total texts < b.size := by
  induction texts generalizing p b with
  | nil => simp [Block.puts]
  | cons text texts ih =>
    rw [Block.puts, total_cons]
    rcases hput : b.put z p text with _ | b₁
    · have hfull : b.size ≤ p + text.length := put_eq_none_iff.mp hput
      simp only [Option.bind_none, Option.isSome_none, reduceCtorEq, false_or, false_iff]
      omega
    · obtain ⟨hfit, hsize⟩ := put_eq_some hput
      rw [Option.bind_some, ih, hsize]
      constructor
      · rintro (rfl | h)
        · exact Or.inr (by rwa [total_nil, Nat.add_zero])
        · exact Or.inr (by omega)
      · rintro (h | h)
        · cases h
        · exact Or.inr (by omega)

/-! ## What a block holds -/

/-- The first cells of a block. -/
def Block.front (b : Block α) (n : Nat) : List α := (List.range n).map b.cell

/-- The text at the beginning of a block: its cells before the first that holds the terminator. -/
def Block.text [DecidableEq α] (z : α) (b : Block α) : List α := (b.front b.size).takeWhile (· ≠ z)

theorem put_front {b b' : Block α} {p : Nat} {text : List α} (h : b.put z p text = some b') :
    b'.front (p + text.length) = b.front p ++ text ∧ b'.cell (p + text.length) = z := by
  unfold Block.put at h
  split at h
  · obtain rfl := Option.some.inj h
    refine ⟨?_, by simp⟩
    refine List.ext_getElem (by simp [Block.front]) (fun i hi hi' => ?_)
    have hlt : i < p + text.length := by simpa [Block.front] using hi
    rcases Nat.lt_or_ge i p with hip | hip
    · rw [List.getElem_append_left (by simpa [Block.front] using hip)]
      simp [Block.front, hip]
    · rw [List.getElem_append_right (by simpa [Block.front] using hip)]
      have hne : i ≠ p + text.length := Nat.ne_of_lt hlt
      have hlen : i - p < text.length := by omega
      simp [Block.front, Nat.not_lt.mpr hip, hne, hlen]
  · cases h

theorem puts_front {texts : List (List α)} {p p' : Nat} {b b' : Block α} (h : b.puts z texts p = some (p', b')) :
    b'.front p' = b.front p ++ texts.flatten ∧ (texts ≠ [] → b'.cell p' = z) := by
  induction texts generalizing p b with
  | nil =>
    obtain ⟨rfl, rfl⟩ := Prod.mk.inj (Option.some.inj h)
    exact ⟨by simp, fun hne => absurd rfl hne⟩
  | cons text texts ih =>
    obtain ⟨b₁, hput, hputs⟩ := Option.bind_eq_some_iff.mp h
    obtain ⟨hfront, hcell⟩ := put_front hput
    obtain ⟨hfront', hcell'⟩ := ih hputs
    refine ⟨by rw [hfront', hfront, List.flatten_cons, List.append_assoc], fun _ => ?_⟩
    rcases texts with _ | ⟨text', texts⟩
    · obtain ⟨rfl, rfl⟩ := Prod.mk.inj (Option.some.inj hputs)
      exact hcell
    · exact hcell' (List.cons_ne_nil _ _)

theorem resize_front (b : Block α) {p size : Nat} {fresh : Nat → α} (h : p ≤ b.size) :
    (b.resize size fresh).front p = b.front p := by
  refine List.map_congr_left (fun i hi => ?_)
  exact if_pos (Nat.lt_of_lt_of_le (List.mem_range.mp hi) h)

/-- The text ends at the first terminator. -/
theorem text_eq [DecidableEq α] {b : Block α} {p : Nat} (hp : p < b.size) (hcell : b.cell p = z) :
    b.text z = (b.front p).takeWhile (· ≠ z) := by
  obtain ⟨n, hn⟩ := Nat.exists_eq_add_of_lt hp
  have hfront : b.front b.size = b.front p ++ z :: (List.range n).map (fun i => b.cell (p + 1 + i)) := by
    unfold Block.front
    rw [hn, Nat.add_right_comm, List.range_add, List.range_succ]
    simp [hcell, Function.comp_def]
  unfold Block.text
  rw [hfront, List.takeWhile_append]
  split
  · rename_i hlen
    rw [(List.takeWhile_prefix _).eq_of_length hlen]
    simp
  · rfl

/-! ## A block that grows by a step -/

/-- A text in a block that grows: its length, the size the block should have, and how often it was made larger. -/
structure Growing (α : Type*) where
  block : Block α
  len : Nat
  bytes : Nat
  grown : Nat

/-- Why the appending ends early: there is no memory, or a copy would end outside. -/
inductive Halt where
  | noMemory
  | overflow
  deriving DecidableEq, Repr

variable {step : Nat} {memory : Nat → Option (Nat → α)} {s s' : Growing α} {text : List α} {texts : List (List α)}

/-- Make the block larger by a step when a text of this length would end behind it. `memory` says what the next request for memory
gives. -/
def Growing.reserve (step : Nat) (memory : Nat → Option (Nat → α)) (s : Growing α) (n : Nat) : Except Halt (Growing α) :=
  if s.bytes < s.len + n then
    match memory s.grown with
    | none => .error .noMemory
    | some fresh =>
      .ok { s with block := s.block.resize (s.bytes + step) fresh, bytes := s.bytes + step, grown := s.grown + 1 }
  else .ok s

def Growing.append (z : α) (step : Nat) (memory : Nat → Option (Nat → α)) (s : Growing α) (text : List α) :
    Except Halt (Growing α) := do
  let s ← s.reserve step memory text.length
  match s.block.put z s.len text with
  | none => .error .overflow
  | some block => .ok { s with block := block, len := s.len + text.length }

def Growing.appendAll (z : α) (step : Nat) (memory : Nat → Option (Nat → α)) (s : Growing α) :
    List (List α) → Except Halt (Growing α)
  | [] => .ok s
  | text :: texts => (s.append z step memory text).bind (fun s => s.appendAll z step memory texts)

/-- The block is as large as it should be, and was not made larger without need. -/
structure Growing.Tight (step : Nat) (s : Growing α) : Prop where
  size : s.block.size = s.bytes
  bytes : s.bytes = step * s.grown + step
  low : s.grown = 0 ∨ step * s.grown < s.len
  high : s.len < s.bytes

namespace Growing

theorem appendAll_append (texts texts' : List (List α)) :
    s.appendAll z step memory (texts ++ texts') =
      (s.appendAll z step memory texts).bind (fun s => s.appendAll z step memory texts') := by
  induction texts generalizing s with
  | nil => rfl
  | cons text texts ih =>
    rw [List.cons_append, appendAll, appendAll]
    rcases s.append z step memory text with halt | s₁
    · rfl
    · exact ih

theorem append_of_put {s₁ : Growing α} {block : Block α} (hreserve : s.reserve step memory text.length = .ok s₁)
    (hput : s₁.block.put z s₁.len text = some block) :
    s.append z step memory text = .ok { s₁ with block := block, len := s₁.len + text.length } := by
  unfold append
  rw [hreserve]
  show (match s₁.block.put z s₁.len text with | none => _ | some block => _) = _
  rw [hput]

theorem append_of_full {s₁ : Growing α} (hreserve : s.reserve step memory text.length = .ok s₁)
    (hput : s₁.block.size ≤ s₁.len + text.length) : s.append z step memory text = .error .overflow := by
  unfold append
  rw [hreserve]
  show (match s₁.block.put z s₁.len text with | none => _ | some block => _) = _
  rw [put_eq_none_iff.mpr hput]

theorem exists_put {b : Block α} {p : Nat} (h : p + text.length < b.size) : ∃ block, b.put z p text = some block :=
  Option.ne_none_iff_exists'.mp (fun hnone => Nat.not_le.mpr h (put_eq_none_iff.mp hnone))

/-- What appending a text can do: it fits, the block has to be made larger and there is memory or not, or it ends where the block
ends. -/
theorem append_cases (h : s.Tight step) (htext : text.length ≤ step) :
    (s.len + text.length < s.bytes ∧ ∃ s' : Growing α, s.append z step memory text = .ok s' ∧ s'.Tight step ∧
        s'.len = s.len + text.length ∧ s'.grown = s.grown) ∨
      (s.bytes < s.len + text.length ∧ (memory s.grown).isSome = true ∧
        ∃ s' : Growing α, s.append z step memory text = .ok s' ∧ s'.Tight step ∧ s'.len = s.len + text.length ∧
          s'.grown = s.grown + 1) ∨
      (s.bytes < s.len + text.length ∧ memory s.grown = none ∧ s.append z step memory text = .error .noMemory) ∨
      (s.len + text.length = s.bytes ∧ s.append z step memory text = .error .overflow) := by
  have hsize := h.size
  have hbytes := h.bytes
  have hlow := h.low
  have hhigh := h.high
  rcases Nat.lt_trichotomy (s.len + text.length) s.bytes with hlt | heq | hgt
  · have hreserve : s.reserve step memory text.length = .ok s := if_neg (by omega)
    obtain ⟨block, hput⟩ := exists_put (z := z) (hsize ▸ hlt)
    have htight : Tight step { s with block := block, len := s.len + text.length } :=
      ⟨(put_eq_some hput).2.trans hsize, hbytes, hlow.imp_right (Nat.lt_add_right _), hlt⟩
    exact Or.inl ⟨hlt, _, append_of_put hreserve hput, htight, rfl, rfl⟩
  · have hreserve : s.reserve step memory text.length = .ok s := if_neg (by omega)
    exact Or.inr (Or.inr (Or.inr ⟨heq, append_of_full hreserve (by omega)⟩))
  · rcases hmemory : memory s.grown with _ | fresh
    · refine Or.inr (Or.inr (Or.inl ⟨hgt, rfl, ?_⟩))
      have hreserve : s.reserve step memory text.length = .error .noMemory := by
        unfold reserve
        rw [if_pos hgt, hmemory]
      unfold append
      rw [hreserve]
      rfl
    · let s₁ : Growing α :=
        { s with block := s.block.resize (s.bytes + step) fresh, bytes := s.bytes + step, grown := s.grown + 1 }
      have hreserve : s.reserve step memory text.length = .ok s₁ := by
        unfold reserve
        rw [if_pos hgt, hmemory]
      have hroom : s.len + text.length < s.bytes + step := by omega
      obtain ⟨block, hput⟩ := @exists_put _ z _ s₁.block s₁.len hroom
      have hgrown : s.bytes + step = step * (s.grown + 1) + step := by rw [hbytes, Nat.mul_add_one]
      have hlow' : step * (s.grown + 1) < s.len + text.length := by rwa [Nat.mul_add_one, ← hbytes]
      have htight : Tight step { s₁ with block := block, len := s₁.len + text.length } :=
        ⟨(put_eq_some hput).2, hgrown, Or.inr hlow', hroom⟩
      exact Or.inr (Or.inl ⟨hgt, rfl, _, append_of_put hreserve hput, htight, rfl, rfl⟩)

/-- What is written ends inside the block after any texts that could be appended. -/
theorem Tight.appendAll_ok (h : s.Tight step) (htexts : ∀ text ∈ texts, text.length ≤ step)
    (hok : s.appendAll z step memory texts = .ok s') : s'.Tight step := by
  induction texts generalizing s with
  | nil =>
    obtain rfl : s = s' := Except.ok.inj hok
    exact h
  | cons text texts ih =>
    have hrest : ∀ text ∈ texts, text.length ≤ step := fun text ht => htexts text (List.mem_cons_of_mem _ ht)
    rw [appendAll] at hok
    rcases @append_cases α z step memory s text h (htexts text List.mem_cons_self) with ⟨-, s₁, happend, htight, -⟩ |
      ⟨-, -, s₁, happend, htight, -⟩ | ⟨-, -, happend⟩ | ⟨-, happend⟩
    · rw [happend] at hok
      exact ih htight hrest hok
    · rw [happend] at hok
      exact ih htight hrest hok
    · rw [happend] at hok
      cases hok
    · rw [happend] at hok
      cases hok

/-- The texts add up to a whole number of steps at some point, and the block could be made that large. -/
def Exact (step : Nat) (memory : Nat → Option (Nat → α)) (s : Growing α) (texts : List (List α)) : Prop :=
  ∃ (pre : List (List α)) (j : Nat), pre <+: texts ∧ s.len + total pre = step * (j + 1) ∧
    ∀ i, s.grown ≤ i → i < j → (memory i).isSome = true

theorem Tight.grown_le (h : s.Tight step) {n j : Nat} (hj : s.len + n = step * (j + 1)) : s.grown ≤ j := by
  rcases h.low with hzero | hlow
  · exact hzero ▸ Nat.zero_le j
  · have hlt : step * s.grown < step * (j + 1) := hj ▸ Nat.lt_add_right _ hlow
    exact Nat.le_of_lt_succ (Nat.lt_of_mul_lt_mul_left hlt)

/-- The text that is there ends inside the block. -/
theorem Tight.not_exact_nil (h : s.Tight step) : ¬Exact step memory s [] := by
  rintro ⟨pre, j, hpre, hlen, -⟩
  obtain rfl := List.prefix_nil.mp hpre
  have hgrown : s.grown ≤ j := h.grown_le hlen
  have hhigh : s.len < step * (s.grown + 1) := by
    rw [Nat.mul_add_one, ← h.bytes]
    exact h.high
  have hmul : step * (s.grown + 1) ≤ step * (j + 1) := Nat.mul_le_mul_left step (Nat.succ_le_succ hgrown)
  rw [total_nil, Nat.add_zero] at hlen
  omega

theorem Tight.exact_cons_iff (h : s.Tight step) :
    Exact step memory s (text :: texts) ↔ ∃ (pre : List (List α)) (j : Nat), pre <+: texts ∧
      s.len + text.length + total pre = step * (j + 1) ∧ ∀ i, s.grown ≤ i → i < j → (memory i).isSome = true := by
  constructor
  · rintro ⟨pre, j, hpre, hlen, hmemory⟩
    rcases pre with _ | ⟨text', pre⟩
    · exact absurd ⟨[], j, List.prefix_rfl, hlen, hmemory⟩ h.not_exact_nil
    · obtain ⟨rfl, hpre'⟩ := List.cons_prefix_cons.mp hpre
      exact ⟨pre, j, hpre', by rwa [total_cons, ← Nat.add_assoc] at hlen, hmemory⟩
  · rintro ⟨pre, j, hpre, hlen, hmemory⟩
    exact ⟨text :: pre, j, List.cons_prefix_cons.mpr ⟨rfl, hpre⟩, by rwa [total_cons, ← Nat.add_assoc], hmemory⟩

/-- The appending of texts goes wrong when they end where a block that can be had ends. -/
theorem Tight.appendAll_overflow_iff (h : s.Tight step) (htexts : ∀ text ∈ texts, text.length ≤ step) :
    s.appendAll z step memory texts = .error .overflow ↔ Exact step memory s texts := by
  induction texts generalizing s with
  | nil => exact iff_of_false nofun h.not_exact_nil
  | cons text texts ih =>
    have htext : text.length ≤ step := htexts text List.mem_cons_self
    have ih := fun {s : Growing α} (h : s.Tight step) => ih h (fun text ht => htexts text (List.mem_cons_of_mem _ ht))
    rw [appendAll, h.exact_cons_iff]
    rcases @append_cases α z step memory s text h htext with ⟨-, s', happend, htight, hlen, hgrown⟩ |
      ⟨hgt, hmem, s', happend, htight, hlen, hgrown⟩ | ⟨hgt, hmem, happend⟩ | ⟨heq, happend⟩
    · rw [happend, ← hlen, ← hgrown]
      exact ih htight
    · rw [happend]
      refine (ih htight).trans ?_
      unfold Exact
      rw [hlen, hgrown]
      constructor
      · rintro ⟨pre, j, hpre, hj, hmemory⟩
        refine ⟨pre, j, hpre, hj, fun i hi hij => ?_⟩
        rcases Nat.eq_or_lt_of_le hi with rfl | hi
        · exact hmem
        · exact hmemory i hi hij
      · rintro ⟨pre, j, hpre, hj, hmemory⟩
        exact ⟨pre, j, hpre, hj, fun i hi hij => hmemory i (Nat.le_of_succ_le hi) hij⟩
    · rw [happend]
      refine iff_of_false nofun ?_
      rintro ⟨pre, j, -, hj, hmemory⟩
      -- The block would have to be made larger at least once, and there is no memory for that.
      have hlt : step * (s.grown + 1) < step * (j + 1) := by
        rw [Nat.mul_add_one, ← h.bytes, ← hj]
        exact Nat.lt_add_right _ hgt
      have hgrown : s.grown < j := Nat.lt_of_succ_lt_succ (Nat.lt_of_mul_lt_mul_left hlt)
      have hsome := hmemory s.grown Nat.le.refl hgrown
      rw [hmem] at hsome
      cases hsome
    · rw [happend]
      refine iff_of_true rfl ⟨[], s.grown, List.nil_prefix, ?_, fun i hi hij => absurd hij (Nat.not_lt.mpr hi)⟩
      rw [total_nil, Nat.add_zero, heq, h.bytes, Nat.mul_add_one]

/-- Nothing is written yet. -/
theorem tight_empty (block : Block α) (hsize : block.size = step) (hstep : 0 < step) :
    Tight step { block := block, len := 0, bytes := step, grown := 0 } :=
  ⟨hsize, by simp, Or.inl rfl, hstep⟩

end Growing

end Buffer
