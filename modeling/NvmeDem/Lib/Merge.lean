import NvmeDem.Lib.Keyed

/-!
# Tables that are filled from a stream

The records of a stream go into a table by their keys, and the table keeps one record for each. A table that a record goes into over the
one with its key has the last record of each key in the end (`putLast`); a table that takes no record when it has one with the key has
the first (`putFirst`). When a stream is spread over several tables that have names, each is filled as from the part of the stream
that is meant for it (`foldl_route`).
-/

namespace Merge

open Keyed

/-! ## What a stream has of a key -/

section

variable {α κ : Type*} (key : α → κ)

/-- A record of the stream that no later one has the key of. -/
def IsLast (log : List α) (x : α) : Prop := ∃ before after, log = before ++ x :: after ∧ key x ∉ after.map key

/-- A record of the stream that no earlier one has the key of. -/
def IsFirst (log : List α) (x : α) : Prop := ∃ before after, log = before ++ x :: after ∧ key x ∉ before.map key

variable {key} {log : List α} {x y : α}

theorem IsLast.mem (h : IsLast key log x) : x ∈ log := by
  obtain ⟨before, after, rfl, -⟩ := h
  exact List.mem_append_right before List.mem_cons_self

theorem IsFirst.mem (h : IsFirst key log x) : x ∈ log := by
  obtain ⟨before, after, rfl, -⟩ := h
  exact List.mem_append_right before List.mem_cons_self

theorem not_isLast_nil : ¬IsLast key [] x := fun h => List.not_mem_nil h.mem

theorem not_isFirst_nil : ¬IsFirst key [] x := fun h => List.not_mem_nil h.mem

theorem isLast_cons : IsLast key (y :: log) x ↔ IsLast key log x ∨ (x = y ∧ key x ∉ log.map key) := by
  constructor
  · rintro ⟨before, after, heq, hafter⟩
    rcases before with _ | ⟨z, before⟩
    · obtain ⟨rfl, rfl⟩ := List.cons.inj heq
      exact Or.inr ⟨rfl, hafter⟩
    · obtain ⟨rfl, rfl⟩ := List.cons.inj heq
      exact Or.inl ⟨before, after, rfl, hafter⟩
  · rintro (⟨before, after, rfl, hafter⟩ | ⟨rfl, hlog⟩)
    · exact ⟨y :: before, after, rfl, hafter⟩
    · exact ⟨[], log, rfl, hlog⟩

theorem isFirst_cons : IsFirst key (y :: log) x ↔ x = y ∨ (IsFirst key log x ∧ key x ≠ key y) := by
  constructor
  · rintro ⟨before, after, heq, hbefore⟩
    rcases before with _ | ⟨z, before⟩
    · exact Or.inl (List.cons.inj heq).1.symm
    · obtain ⟨rfl, rfl⟩ := List.cons.inj heq
      rw [List.map_cons, List.mem_cons, not_or] at hbefore
      exact Or.inr ⟨⟨before, after, rfl, hbefore.2⟩, hbefore.1⟩
  · rintro (rfl | ⟨⟨before, after, rfl, hbefore⟩, hne⟩)
    · exact ⟨[], log, rfl, List.not_mem_nil⟩
    · refine ⟨y :: before, after, rfl, ?_⟩
      rw [List.map_cons, List.mem_cons, not_or]
      exact ⟨hne, hbefore⟩

end

/-! ## One table -/

section

variable {α κ : Type*} [DecidableEq κ] (key : α → κ)

/-- The record goes into the place of the first with its key, or to the end. -/
def putLast (xs : List α) (x : α) : List α :=
  if xs.any (fun y => key y == key x) then modifyFirst (fun y => key y == key x) (fun _ => x) xs else xs ++ [x]

/-- The record goes to the end, unless there is one with its key. -/
def putFirst (xs : List α) (x : α) : List α := if xs.any (fun y => key y == key x) then xs else xs ++ [x]

variable {key} {xs log : List α} {x y : α}

theorem any_key_iff : xs.any (fun y => key y == key x) = true ↔ key x ∈ xs.map key := by
  simp only [List.any_eq_true, beq_iff_eq, List.mem_map]

theorem nodup_putLast (hn : (xs.map key).Nodup) : ((putLast key xs x).map key).Nodup := by
  unfold putLast
  split
  · exact nodup_modifyFirst hn (fun _ => rfl) (Or.inl rfl)
  · rename_i h
    exact nodup_map_concat hn (fun hm => h (any_key_iff.mpr hm))

theorem nodup_putFirst (hn : (xs.map key).Nodup) : ((putFirst key xs x).map key).Nodup := by
  unfold putFirst
  split
  · exact hn
  · rename_i h
    exact nodup_map_concat hn (fun hm => h (any_key_iff.mpr hm))

theorem mem_putLast (hn : (xs.map key).Nodup) : y ∈ putLast key xs x ↔ y = x ∨ (y ∈ xs ∧ key y ≠ key x) := by
  unfold putLast
  split
  · rename_i h
    obtain ⟨z, hz, hk⟩ := List.mem_map.mp (any_key_iff.mp h)
    rw [modifyFirst_eq_map hn, List.mem_map]
    constructor
    · rintro ⟨w, hw, rfl⟩
      split
      · exact Or.inl rfl
      · rename_i hne
        exact Or.inr ⟨hw, hne⟩
    · rintro (rfl | ⟨hy, hne⟩)
      · exact ⟨z, hz, if_pos hk⟩
      · exact ⟨y, hy, if_neg hne⟩
  · rename_i h
    rw [List.mem_append, List.mem_singleton, or_comm]
    refine or_congr_right (iff_self_and.mpr (fun hy hk => h (any_key_iff.mpr ?_)))
    exact List.mem_map.mpr ⟨y, hy, hk⟩

theorem mem_putFirst : y ∈ putFirst key xs x ↔ y ∈ xs ∨ (y = x ∧ key x ∉ xs.map key) := by
  unfold putFirst
  split
  · rename_i h
    have hmem := any_key_iff.mp h
    exact (or_iff_left (fun hy => hy.2 hmem)).symm
  · rename_i h
    have hnot : key x ∉ xs.map key := fun hm => h (any_key_iff.mpr hm)
    rw [List.mem_append, List.mem_singleton, and_iff_left hnot]

theorem nodup_foldl_putLast (log : List α) (hn : (xs.map key).Nodup) : ((log.foldl (putLast key) xs).map key).Nodup := by
  induction log generalizing xs with
  | nil => exact hn
  | cons x log ih => exact ih (nodup_putLast hn)

theorem nodup_foldl_putFirst (log : List α) (hn : (xs.map key).Nodup) : ((log.foldl (putFirst key) xs).map key).Nodup := by
  induction log generalizing xs with
  | nil => exact hn
  | cons x log ih => exact ih (nodup_putFirst hn)

/-- What the stream leaves: the last record of each of its keys, and the records of the other keys. -/
theorem mem_foldl_putLast (log : List α) (hn : (xs.map key).Nodup) :
    y ∈ log.foldl (putLast key) xs ↔ IsLast key log y ∨ (y ∈ xs ∧ key y ∉ log.map key) := by
  induction log generalizing xs with
  | nil => simp [not_isLast_nil]
  | cons x log ih =>
    rw [List.foldl_cons, ih (nodup_putLast hn), mem_putLast hn, isLast_cons, List.map_cons, List.mem_cons, not_or,
      or_and_right, and_assoc, or_assoc]

/-- What the stream leaves: what was there, and the first record of each of its other keys. -/
theorem mem_foldl_putFirst (log : List α) :
    y ∈ log.foldl (putFirst key) xs ↔ y ∈ xs ∨ (IsFirst key log y ∧ key y ∉ xs.map key) := by
  induction log generalizing xs with
  | nil => simp [not_isFirst_nil]
  | cons x log ih =>
    have hkeys : key y ∉ (putFirst key xs x).map key ↔ key y ∉ xs.map key ∧ key y ≠ key x := by
      rw [← not_or, not_iff_not, List.mem_map]
      constructor
      · rintro ⟨z, hz, hk⟩
        rcases mem_putFirst.mp hz with hz | ⟨rfl, -⟩
        · exact Or.inl (List.mem_map.mpr ⟨z, hz, hk⟩)
        · exact Or.inr hk.symm
      · rintro (hm | hk)
        · obtain ⟨z, hz, hk⟩ := List.mem_map.mp hm
          exact ⟨z, mem_putFirst.mpr (Or.inl hz), hk⟩
        · by_cases hx : key x ∈ xs.map key
          · obtain ⟨z, hz, hzk⟩ := List.mem_map.mp hx
            exact ⟨z, mem_putFirst.mpr (Or.inl hz), hzk.trans hk.symm⟩
          · exact ⟨x, mem_putFirst.mpr (Or.inr ⟨rfl, hx⟩), hk.symm⟩
    rw [List.foldl_cons, ih, mem_putFirst, isFirst_cons, hkeys]
    constructor
    · rintro ((hy | ⟨rfl, hx⟩) | ⟨hfirst, hnot, hne⟩)
      · exact Or.inl hy
      · exact Or.inr ⟨Or.inl rfl, hx⟩
      · exact Or.inr ⟨Or.inr ⟨hfirst, hne⟩, hnot⟩
    · rintro (hy | ⟨rfl | ⟨hfirst, hne⟩, hnot⟩)
      · exact Or.inl (Or.inl hy)
      · exact Or.inl (Or.inr ⟨rfl, hnot⟩)
      · exact Or.inr ⟨hfirst, hnot, hne⟩

end

/-! ## Several tables -/

section

variable {σ α ν : Type*} [DecidableEq ν] (name : σ → ν) (dest : α → ν) (put : σ → α → σ)

/-- The record goes into the first table with the name it is meant for. -/
def route (tables : List σ) (x : α) : List σ := modifyFirst (fun t => name t == dest x) (fun t => put t x) tables

variable {name dest put} {tables : List σ}

theorem names_route (hname : ∀ t x, name (put t x) = name t) (tables : List σ) (x : α) :
    (route name dest put tables x).map name = tables.map name :=
  map_modifyFirst_same (fun t => hname t x) tables

/-- Each table is filled from the records that are meant for it. -/
theorem foldl_route (hn : (tables.map name).Nodup) (hname : ∀ t x, name (put t x) = name t) (log : List α) :
    log.foldl (route name dest put) tables =
      tables.map (fun t => (log.filter (fun x => name t == dest x)).foldl put t) := by
  induction log generalizing tables with
  | nil => simp
  | cons x log ih =>
    rw [List.foldl_cons, ih (by rw [names_route hname]; exact hn), route, modifyFirst_eq_map hn, List.map_map]
    apply List.map_congr_left
    intro t _
    dsimp only [Function.comp_apply]
    by_cases ht : name t = dest x
    · rw [if_pos ht, List.filter_cons_of_pos (by rw [beq_iff_eq]; exact ht), List.foldl_cons, hname]
    · rw [if_neg ht, List.filter_cons_of_neg (by rw [beq_iff_eq]; exact ht)]

end

end Merge
