import NvmeDem.Lib.Json

/-!
# Tables in a tree

An array under a key whose entries have distinct names and each of which keeps a condition of its own. The condition may again
be a table, so that one statement covers a tree of named things. The rules say which edits keep a table: an entry replaced under
its own name or under a name that no entry has, an entry added under a new name, entries removed, and all entries mapped.
-/

namespace Jansson

variable {β : Type*} {f : Json → Option β} {P Q : Json → Prop} {j j' x x' : Json} {k : String} {i : Nat}

/-- The entries under a key have distinct names, read by `f`, and all of them have `P`. -/
structure Table (j : Json) (k : String) (f : Json → Option β) (P : Json → Prop) : Prop where
  nodup : ((j.entries k).filterMap f).Nodup
  all : ∀ x ∈ j.entries k, P x

namespace Table

/-- An array without entries is a table. -/
theorem of_nil (h : j.entries k = []) : Table j k f P :=
  ⟨by simp [h], by simp [h]⟩

theorem of_entries (ht : Table j k f P) (h : j'.entries k = j.entries k) : Table j' k f P :=
  ⟨by rw [h]; exact ht.nodup, by rw [h]; exact ht.all⟩

theorem of_sublist (ht : Table j k f P) (h : (j'.entries k).Sublist (j.entries k)) : Table j' k f P :=
  ⟨ht.nodup.sublist (h.filterMap f), fun x hx => ht.all x (h.subset hx)⟩

theorem imp (ht : Table j k f P) (h : ∀ x ∈ j.entries k, P x → Q x) : Table j k f Q :=
  ⟨ht.nodup, fun x hx => h x hx (ht.all x hx)⟩

/-- A value that was filled is a table if it was one. -/
theorem of_fills (ht : Table j k f P) (hf : ∀ {x x'}, Json.Fills x x' → f x' = f x)
    (hP : ∀ {x x'}, Json.Fills x x' → P x → P x') (h : Json.Fills j j') : Table j' k f P := by
  refine ⟨?_, ?_⟩
  · rw [h.filterMap_entries hf k]
    exact ht.nodup
  · intro x' hx'
    obtain ⟨x, hx, hfill⟩ := h.mem_entries hx'
    exact hP hfill (ht.all x hx)

/-- An entry replaced under its own name. -/
theorem putAt_same (ht : Table j k f P) (hx : (j.entries k)[i]? = some x) (hf : f x' = f x) (hP : P x') :
    Table (j.putAt k i x') k f P := by
  refine ⟨?_, ?_⟩
  · rw [Json.entries_putAt, Keyed.keys_set_of_eq hx hf]
    exact ht.nodup
  · rw [Json.entries_putAt]
    exact Keyed.forall_mem_set ht.all hP

/-- An entry replaced under a name that no entry has. -/
theorem putAt_fresh {b : β} (ht : Table j k f P) (hx : (j.entries k)[i]? = some x) (hf : f x' = some b)
    (hb : b ∉ (j.entries k).filterMap f) (hP : P x') : Table (j.putAt k i x') k f P := by
  refine ⟨?_, ?_⟩
  · rw [Json.entries_putAt]
    exact Keyed.nodup_keys_set_of_fresh hx hf hb ht.nodup
  · rw [Json.entries_putAt]
    exact Keyed.forall_mem_set ht.all hP

/-- An entry added under a name that no entry has, or under none. -/
theorem pushAt (ht : Table j k f P) (hb : ∀ b, f x = some b → b ∉ (j.entries k).filterMap f) (hP : P x) :
    Table (j.pushAt k x) k f P := by
  rcases Json.entries_pushAt j k x with h | h
  · refine ⟨?_, ?_⟩
    · rw [h]
      exact Keyed.nodup_keys_concat hb ht.nodup
    · rw [h]
      exact Keyed.forall_mem_concat ht.all hP
  · exact ht.of_entries h

theorem removeAt (ht : Table j k f P) (i : Nat) : Table (j.removeAt k i) k f P := by
  refine ht.of_sublist ?_
  rw [Json.entries_removeAt]
  exact List.eraseIdx_sublist _ _

/-- All entries mapped, each under its own name. -/
theorem map {g : Json → Json} (ht : Table j k f P) (h : j'.entries k = (j.entries k).map g)
    (hf : ∀ x ∈ j.entries k, f (g x) = f x) (hP : ∀ x ∈ j.entries k, P x → Q (g x)) : Table j' k f Q := by
  refine ⟨?_, ?_⟩
  · rw [h, Keyed.keys_map_of_eq hf]
    exact ht.nodup
  · rw [h]
    intro y hy
    obtain ⟨x, hx, rfl⟩ := List.mem_map.mp hy
    exact hP x hx (ht.all x hx)

/-- All entries mapped, each under its own name, by a map that depends on the place. -/
theorem mapIdx {g : Nat → Json → Json} (ht : Table j k f P) (h : j'.entries k = (j.entries k).mapIdx g)
    (hf : ∀ i, ∀ x ∈ j.entries k, f (g i x) = f x) (hP : ∀ i, ∀ x ∈ j.entries k, P x → Q (g i x)) :
    Table j' k f Q := by
  refine ⟨?_, ?_⟩
  · rw [h, Keyed.keys_mapIdx_of_eq hf]
    exact ht.nodup
  · rw [h]
    intro y hy
    obtain ⟨i, hi, rfl⟩ := List.mem_mapIdx.mp hy
    exact hP i _ (List.getElem_mem hi) (ht.all _ (List.getElem_mem hi))

end Table

end Jansson
