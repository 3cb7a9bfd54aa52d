import NvmeDem.Theorems.Watch

/-!
# One item under many changes

What becomes of a single item of a configuration under a list of changes: it stays when none of them takes it or writes over it,
it is there when it was put and spared by the rest, and it is not there when it was taken and not put again.
-/

namespace NvmeDem

open Upsert

/-- A change that leaves an item there. -/
def Change.Spares (a : Item) : Change → Prop
  | .reset => False
  | .put b => b.key = a.key → b = a
  | .delete deleted => deleted.takes a = false

section

variable {a : Item} {c : Change} {cs : List Change} {config : Finset Item}

theorem mem_applyChange_of_spares (h : c.Spares a) (ha : a ∈ config) : a ∈ applyChange config c := by
  cases c with
  | reset => exact h.elim
  | put b =>
    refine mem_upsert.2 ?_
    by_cases hk : b.key = a.key
    · exact Or.inl (h hk).symm
    · exact Or.inr ⟨ha, fun heq => hk heq.symm⟩
  | delete deleted => exact Finset.mem_filter.2 ⟨ha, h⟩

theorem mem_foldl_of_spares (h : ∀ c ∈ cs, c.Spares a) (ha : a ∈ config) : a ∈ cs.foldl applyChange config := by
  induction cs generalizing config with
  | nil => exact ha
  | cons c cs ih =>
    have hfirst := mem_applyChange_of_spares (h c List.mem_cons_self) ha
    exact ih (fun c hc => h c (List.mem_cons_of_mem _ hc)) hfirst

/-- An item that was put and that no change takes. -/
theorem mem_foldl_of_put (h : ∀ c ∈ cs, c.Spares a) (hput : .put a ∈ cs) : a ∈ cs.foldl applyChange config := by
  obtain ⟨before, behind, rfl⟩ := List.append_of_mem hput
  rw [List.foldl_append, List.foldl_cons]
  have hthere : a ∈ applyChange (before.foldl applyChange config) (.put a) := mem_upsert.2 (Or.inl rfl)
  exact mem_foldl_of_spares (fun c hc => h c (List.mem_append_right _ (List.mem_cons_of_mem _ hc))) hthere

/-- An item that no change puts. -/
theorem not_mem_foldl_of_not_put (h : .put a ∉ cs) (ha : a ∉ config) : a ∉ cs.foldl applyChange config := by
  induction cs generalizing config with
  | nil => exact ha
  | cons c cs ih =>
    rw [List.mem_cons, not_or] at h
    refine ih h.2 ?_
    cases c with
    | reset => exact Finset.notMem_empty a
    | put b =>
      rintro hmem
      rcases mem_upsert.1 hmem with rfl | ⟨hmem, -⟩
      · exact h.1 rfl
      · exact ha hmem
    | delete deleted => exact fun hmem => ha (Finset.mem_filter.1 hmem).1

/-- An item that a change takes and no change puts. -/
theorem not_mem_foldl_of_taken {deleted : Deleted} (h : .put a ∉ cs) (htaken : .delete deleted ∈ cs) (ha : deleted.takes a = true) :
    a ∉ cs.foldl applyChange config := by
  obtain ⟨before, behind, rfl⟩ := List.append_of_mem htaken
  rw [List.foldl_append, List.foldl_cons]
  refine not_mem_foldl_of_not_put (fun hb => h (List.mem_append_right _ (List.mem_cons_of_mem _ hb))) (fun hmem => ?_)
  have hspared := (Finset.mem_filter.1 hmem).2
  rw [ha] at hspared
  cases hspared

end

/-! ## Items of one kind -/

/-- A change that takes no item of a kind. -/
def Change.Leaves (p : Item → Bool) : Change → Prop
  | .reset => False
  | .put _ => True
  | .delete deleted => ∀ a, p a = true → deleted.takes a = false

/-- What a change puts. -/
def Change.item? : Change → Option Item
  | .put b => some b
  | _ => none

/-- The items of a kind that the key decides, when none of them is taken: those that were there, written over by those put. -/
theorem filter_foldl_changes {p : Item → Bool} {cs : List Change} (config : Finset Item)
    (hp : ∀ a b, Item.key a = Item.key b → p a = p b) (h : ∀ c ∈ cs, c.Leaves p) :
    (cs.foldl applyChange config).filter (fun a => p a = true) =
      upserts Item.key (config.filter (fun a => p a = true)) ((cs.filterMap Change.item?).filter p) := by
  induction cs generalizing config with
  | nil => rfl
  | cons c cs ih =>
    have hrest := ih (applyChange config c) (fun c hc => h c (List.mem_cons_of_mem _ hc))
    rw [List.foldl_cons, hrest]
    have hc := h c List.mem_cons_self
    cases c with
    | reset => exact hc.elim
    | put b =>
      have hone : (applyChange config (.put b)).filter (fun a => p a = true) =
          upserts Item.key (config.filter (fun a => p a = true)) ([b].filter p) := filter_upserts [b] hp
      have hitems : (((Change.put b) :: cs).filterMap Change.item?).filter p = [b].filter p ++ (cs.filterMap Change.item?).filter p :=
        List.filter_append [b] (cs.filterMap Change.item?)
      rw [hone, hitems, upserts_append]
    | delete deleted =>
      have hsame : (applyChange config (.delete deleted)).filter (fun a => p a = true) = config.filter (fun a => p a = true) := by
        ext a
        simp only [applyChange, Finset.mem_filter]
        constructor
        · rintro ⟨⟨ha, -⟩, hpa⟩
          exact ⟨ha, hpa⟩
        · rintro ⟨ha, hpa⟩
          exact ⟨⟨ha, hc a hpa⟩, hpa⟩
      rw [hsame]
      rfl

end NvmeDem
