import Mathlib.Data.Set.Insert
import NvmeDem.Common.LinkedList

/-!
# The functions on linked lists

A family is a set of heads, each with the list of its entries, that are disjoint rings in one memory. The functions do to the lists what their
names say and leave the other lists of the family as they are. The safe loop needs no link of an entry once its body has removed it, so it
comes through the list also when the record of the entry is given back and its memory used for something else.
-/

namespace NvmeDem.LinkedList

open Rings

variable {α : Type}

/-- The lists of some heads, which have no node in common. -/
structure Family (m : Heap α) (heads : Set α) (lists : α → List α) : Prop where
  ring : ∀ h ∈ heads, Ring m h (lists h)
  disjoint : ∀ h ∈ heads, ∀ h' ∈ heads, h ≠ h' → List.Disjoint (h :: lists h) (h' :: lists h')

variable [DecidableEq α] {m : Heap α} {heads : Set α} {lists : α → List α} {h e : α}

/-- One list of a family is replaced by one of its own nodes and of new ones, and the links of the others stay. -/
theorem Family.update {m' : Heap α} {xs : List α} (hfam : Family m heads lists) (hh : h ∈ heads) (hring : Ring m' h xs)
    (hnew : ∀ a ∈ xs, a ∈ lists h ∨ ∀ h' ∈ heads, a ∉ h' :: lists h')
    (hframe : ∀ h' ∈ heads, h' ≠ h → ∀ a ∈ h' :: lists h', m'.next a = m.next a ∧ m'.prev a = m.prev a) :
    Family m' heads (Function.update lists h xs) := by
  have hself : ∀ h' ∈ heads, h' ≠ h → List.Disjoint (h :: xs) (h' :: lists h') := by
    intro h' hh' hne a ha ha'
    rcases List.mem_cons.mp ha with rfl | ha
    · exact hfam.disjoint a hh h' hh' hne.symm List.mem_cons_self ha'
    · rcases hnew a ha with hold | hfresh
      · exact hfam.disjoint h hh h' hh' hne.symm (List.mem_cons_of_mem _ hold) ha'
      · exact hfresh h' hh' ha'
  constructor
  · intro h' hh'
    by_cases hne : h' = h
    · subst hne
      rw [Function.update_self]
      exact hring
    · rw [Function.update_of_ne hne]
      exact (hfam.ring h' hh').congr (fun a ha => (hframe h' hh' hne a ha).1) (fun a ha => (hframe h' hh' hne a ha).2)
  · intro h₁ hh₁ h₂ hh₂ hne
    by_cases h₁' : h₁ = h
    · subst h₁'
      rw [Function.update_self, Function.update_of_ne hne.symm]
      exact hself h₂ hh₂ hne.symm
    · rw [Function.update_of_ne h₁']
      by_cases h₂' : h₂ = h
      · subst h₂'
        rw [Function.update_self]
        exact fun a ha ha' => hself h₁ hh₁ hne ha' ha
      · rw [Function.update_of_ne h₂']
        exact hfam.disjoint h₁ hh₁ h₂ hh₂ hne

/-- A new entry is put in at any place of a list. -/
theorem Family.insert {m' : Heap α} {xs ys u v : List α} {p n : α} (hfam : Family m heads lists) (hh : h ∈ heads)
    (hxs : lists h = xs ++ ys) (he : ∀ h' ∈ heads, e ∉ h' :: lists h') (hu : h :: xs = u ++ [p]) (hn : ys ++ [h] = n :: v)
    (hm : Inserted m m' p e n) : Family m' heads (Function.update lists h (xs ++ e :: ys)) := by
  have hring := hfam.ring h hh
  have heh := he h hh
  obtain ⟨hp, hn'⟩ := mem_of_place hu hn
  rw [hxs] at hring heh
  refine hfam.update hh (hring.insert hu hn heh hm) ?_ ?_
  · intro a ha
    rw [hxs]
    rcases List.mem_append.mp ha with ha | ha
    · exact .inl (List.mem_append_left _ ha)
    · rcases List.mem_cons.mp ha with rfl | ha
      · exact .inr he
      · exact .inl (List.mem_append_right _ ha)
  · intro h' hh' hne a ha
    have hdisj := hfam.disjoint h hh h' hh' hne.symm
    rw [hxs] at hdisj
    have hae : a ≠ e := fun hae => he h' hh' (hae ▸ ha)
    exact ⟨hm.next a (fun hap => hdisj hp (hap ▸ ha)) hae, hm.prev a (fun han => hdisj hn' (han ▸ ha)) hae⟩

/-- An entry is taken out of a list. -/
theorem Family.remove {m' : Heap α} {xs ys u v : List α} {p n : α} (hfam : Family m heads lists) (hh : h ∈ heads)
    (hxs : lists h = xs ++ e :: ys) (hu : h :: xs = u ++ [p]) (hn : ys ++ [h] = n :: v) (hm : Removed m m' p e n) :
    Family m' heads (Function.update lists h (xs ++ ys)) := by
  have hring := hfam.ring h hh
  obtain ⟨hp, hn'⟩ := mem_of_place hu hn
  rw [hxs] at hring
  have hsub : ∀ a ∈ h :: (xs ++ ys), a ∈ h :: (xs ++ e :: ys) := by
    intro a ha
    rcases List.mem_cons.mp ha with rfl | ha
    · exact List.mem_cons_self
    · refine List.mem_cons_of_mem _ ?_
      rcases List.mem_append.mp ha with ha | ha
      · exact List.mem_append_left _ ha
      · exact List.mem_append_right _ (List.mem_cons_of_mem _ ha)
  refine hfam.update hh (hring.remove hu hn hm) ?_ ?_
  · intro a ha
    rw [hxs]
    rcases List.mem_append.mp ha with ha | ha
    · exact .inl (List.mem_append_left _ ha)
    · exact .inl (List.mem_append_right _ (List.mem_cons_of_mem _ ha))
  · intro h' hh' hne a ha
    have hdisj := hfam.disjoint h hh h' hh' hne.symm
    rw [hxs] at hdisj
    have hae : a ≠ e := fun hae => hdisj (List.mem_cons_of_mem _ (List.mem_append_right _ List.mem_cons_self)) (hae ▸ ha)
    exact ⟨hm.next a (fun hap => hdisj (hsub _ hp) (hap ▸ ha)) hae, hm.prev a (fun han => hdisj (hsub _ hn') (han ▸ ha)) hae⟩

/-! ## The functions -/

/-- A list begins as a new head that is linked with itself. -/
theorem family_initLinkedList (hfam : Family m heads lists) (he : ∀ h' ∈ heads, e ∉ h' :: lists h') :
    Family (initLinkedList m e) (insert e heads) (Function.update lists e []) := by
  have hne : ∀ h' ∈ heads, h' ≠ e := fun h' hh' heq => he h' hh' (heq ▸ List.mem_cons_self)
  constructor
  · intro h' hh'
    rcases hh' with rfl | hh'
    · rw [Function.update_self]
      constructor
      · simp [Heap.Linked, initLinkedList, setNext, setPrev]
      · exact List.nodup_singleton h'
    · rw [Function.update_of_ne (hne h' hh')]
      have hother : ∀ a ∈ h' :: lists h', a ≠ e := fun a ha heq => he h' hh' (heq ▸ ha)
      refine (hfam.ring h' hh').congr ?_ ?_
      · intro a ha
        simp [initLinkedList, setNext, setPrev, hother a ha]
      · intro a ha
        simp [initLinkedList, setNext, setPrev, hother a ha]
  · intro h₁ hh₁ h₂ hh₂ hdiff
    rcases hh₁ with rfl | hh₁
    · rcases hh₂ with rfl | hh₂
      · exact absurd rfl hdiff
      · rw [Function.update_self, Function.update_of_ne (hne h₂ hh₂), List.singleton_disjoint]
        exact he h₂ hh₂
    · rcases hh₂ with rfl | hh₂
      · rw [Function.update_self, Function.update_of_ne (hne h₁ hh₁), List.disjoint_singleton]
        exact he h₁ hh₁
      · rw [Function.update_of_ne (hne h₁ hh₁), Function.update_of_ne (hne h₂ hh₂)]
        exact hfam.disjoint h₁ hh₁ h₂ hh₂ hdiff

theorem family_listAdd (hfam : Family m heads lists) (hh : h ∈ heads) (he : ∀ h' ∈ heads, e ∉ h' :: lists h') :
    Family (listAdd m e h) heads (Function.update lists h (e :: lists h)) := by
  obtain ⟨-, -, n, v, -, hn⟩ := exists_place h [] (lists h)
  have hu : h :: ([] : List α) = [] ++ [h] := rfl
  obtain ⟨-, ⟨hnext, -⟩, -⟩ := @Ring.at_place α m h n h [] (lists h) [] v (hfam.ring h hh) hu hn
  have hne : e ≠ h ∧ e ≠ n := by
    have heh := he h hh
    constructor
    · rintro rfl
      exact heh List.mem_cons_self
    · rintro rfl
      exact heh (mem_of_place hu hn).2
  have hm : Inserted m (listAdd m e h) h e n := by
    rw [listAdd, hnext]
    exact inserted_listAddBetween hne.1 hne.2
  exact hfam.insert hh rfl he hu hn hm

theorem family_listAddTail (hfam : Family m heads lists) (hh : h ∈ heads) (he : ∀ h' ∈ heads, e ∉ h' :: lists h') :
    Family (listAddTail m e h) heads (Function.update lists h (lists h ++ [e])) := by
  obtain ⟨u, p, -, -, hu, -⟩ := exists_place h (lists h) []
  have hn : [] ++ [h] = h :: ([] : List α) := rfl
  have hxs : lists h = lists h ++ [] := (List.append_nil _).symm
  obtain ⟨-, ⟨-, hprev⟩, -⟩ := Ring.at_place (hxs ▸ hfam.ring h hh) hu hn
  have hne : e ≠ p ∧ e ≠ h := by
    have heh := he h hh
    constructor
    · rintro rfl
      rw [hxs] at heh
      exact heh (mem_of_place hu hn).1
    · rintro rfl
      exact heh List.mem_cons_self
  have hm : Inserted m (listAddTail m e h) p e h := by
    rw [listAddTail, hprev]
    exact inserted_listAddBetween hne.1 hne.2
  exact hfam.insert hh hxs he hu hn hm

/-- A removal, whatever becomes of the links of the entry. -/
theorem family_removed {m' : Heap α} {xs ys : List α} (hfam : Family m heads lists) (hh : h ∈ heads) (hxs : lists h = xs ++ e :: ys)
    (hdel : ∀ a, a ≠ e → m'.next a = (listDel m e).next a ∧ m'.prev a = (listDel m e).prev a) :
    Family m' heads (Function.update lists h (xs ++ ys)) := by
  obtain ⟨u, p, n, v, hu, hn⟩ := exists_place h xs ys
  have hring := hfam.ring h hh
  rw [hxs] at hring
  obtain ⟨-, hp, hn', -⟩ := hring.at_node hu hn
  obtain ⟨hpm, hnm⟩ := mem_of_place hu hn
  have he := hring.nodup_remove.1
  have hne : p ≠ e ∧ n ≠ e := ⟨fun hpe => he (hpe ▸ hpm), fun hne => he (hne ▸ hnm)⟩
  have hm := removed_listDel hp hn' hne.2
  refine hfam.remove hh hxs hu hn ⟨⟨?_, ?_⟩, ?_, ?_⟩
  · rw [(hdel p hne.1).1]
    exact hm.closed.1
  · rw [(hdel n hne.2).2]
    exact hm.closed.2
  · intro a hap hae
    rw [(hdel a hae).1, hm.next a hap hae]
  · intro a han hae
    rw [(hdel a hae).2, hm.prev a han hae]

theorem family_listDel (hfam : Family m heads lists) (hh : h ∈ heads) (he : e ∈ lists h) :
    Family (listDel m e) heads (Function.update lists h ((lists h).erase e)) := by
  obtain ⟨xs, ys, hxs, hnot⟩ := List.eq_append_cons_of_mem he
  have herase : (lists h).erase e = xs ++ ys := by
    rw [hxs, List.erase_append_right _ hnot, List.erase_cons_head]
  rw [herase]
  exact family_removed hfam hh hxs (fun _ _ => ⟨rfl, rfl⟩)

/-! ## The loops -/

/-- A body that removes the entry it is at: nothing else changes, except what the record of the entry holds then. -/
def Removes (body : α → Heap α → Heap α) : Prop :=
  ∀ e m a, a ≠ e → (body e m).next a = (listDel m e).next a ∧ (body e m).prev a = (listDel m e).prev a

/-- The loop goes on in the memory that the body left: what it kept to go on from is the first entry of what is left of the list. -/
theorem safe_loop {body : α → Heap α → Heap α} (hbody : Removes body) (hh : h ∈ heads) (xs : List α) :
    ∀ (m : Heap α) (lists : α → List α) (turns : ℕ), Family m heads lists → lists h = xs → xs.length < turns →
      ∃ m', listForEachEntrySafe body h turns m = some (xs, m') ∧ Family m' heads (Function.update lists h []) := by
  induction xs with
  | nil =>
    intro m lists turns hfam hxs hturns
    obtain ⟨turns, rfl⟩ := Nat.exists_eq_succ_of_ne_zero (Nat.ne_of_gt hturns)
    have hempty : m.next h = h := (hfam.ring h hh).next_head_iff.mpr hxs
    refine ⟨m, ?_, ?_⟩
    · rw [listForEachEntrySafe, safeTurns, if_pos hempty]
    · rwa [← hxs, Function.update_eq_self]
  | cons x xs ih =>
    intro m lists turns hfam hxs hturns
    obtain ⟨turns, rfl⟩ := Nat.exists_eq_succ_of_ne_zero (Nat.ne_of_gt (Nat.zero_lt_of_lt hturns))
    have hring := hfam.ring h hh
    rw [hxs] at hring
    obtain ⟨hfirst, hne, hafter⟩ := hring.next_first
    have hfam' : Family (body x m) heads (Function.update lists h xs) :=
      @family_removed _ _ m heads lists h x _ [] xs hfam hh hxs (hbody x m)
    have hring' := hfam'.ring h hh
    rw [Function.update_self] at hring'
    obtain ⟨m', hloop, hfam''⟩ := ih (body x m) (Function.update lists h xs) turns hfam' (Function.update_self h xs lists)
      (Nat.lt_of_succ_lt_succ hturns)
    refine ⟨m', ?_, ?_⟩
    · rw [listForEachEntrySafe, hafter _ hring'] at hloop
      simp only [listForEachEntrySafe, safeTurns, hfirst, if_neg hne, hloop, Option.map_some]
    · rwa [Function.update_idem] at hfam''

/-- A loop that changes no link visits what is behind a node, to the end of the list. -/
theorem each_loop (xs : List α) : ∀ (p : α) (turns : ℕ), (p :: (xs ++ [h])).IsChain m.Linked → h ∉ xs → xs.length < turns →
    listForEachEntry m h turns (m.next p) = some xs := by
  induction xs with
  | nil =>
    intro p turns hchain _ hturns
    obtain ⟨turns, rfl⟩ := Nat.exists_eq_succ_of_ne_zero (Nat.ne_of_gt hturns)
    rw [listForEachEntry, if_pos (List.isChain_cons_cons.mp hchain).1.1]
  | cons x xs ih =>
    intro p turns hchain hh hturns
    obtain ⟨turns, rfl⟩ := Nat.exists_eq_succ_of_ne_zero (Nat.ne_of_gt (Nat.zero_lt_of_lt hturns))
    rw [List.cons_append, List.isChain_cons_cons] at hchain
    have hne : x ≠ h := fun hx => hh (hx ▸ List.mem_cons_self)
    have hrest := ih x turns hchain.2 (fun hmem => hh (List.mem_cons_of_mem _ hmem)) (Nat.lt_of_succ_lt_succ hturns)
    rw [listForEachEntry, hchain.1.1, if_neg hne, hrest, Option.map_some]

/-- The functions on lists do to a family of lists what they are for, and the safe loop visits a list whose entries its body removes. -/
theorem list_functions {α : Type} [DecidableEq α] (m : Heap α) (heads : Set α) (lists : α → List α) (hfam : Family m heads lists) :
    (∀ h ∈ heads, ∀ e, (∀ h' ∈ heads, e ∉ h' :: lists h') →
      Family (listAdd m e h) heads (Function.update lists h (e :: lists h)) ∧
      Family (listAddTail m e h) heads (Function.update lists h (lists h ++ [e]))) ∧
    (∀ h ∈ heads, ∀ e ∈ lists h, Family (listDel m e) heads (Function.update lists h ((lists h).erase e))) ∧
    (∀ h ∈ heads, listEmpty m h = true ↔ lists h = []) ∧
    (∀ h ∈ heads, ∀ turns, (lists h).length < turns → listForEachEntry m h turns (m.next h) = some (lists h)) ∧
    (∀ h ∈ heads, ∀ body, Removes body → ∀ turns, (lists h).length < turns →
      ∃ m', listForEachEntrySafe body h turns m = some (lists h, m') ∧ Family m' heads (Function.update lists h [])) := by
  refine ⟨?_, ?_, ?_, ?_, ?_⟩
  · intro h hh e he
    exact ⟨family_listAdd hfam hh he, family_listAddTail hfam hh he⟩
  · intro h hh e he
    exact family_listDel hfam hh he
  · intro h hh
    rw [listEmpty, decide_eq_true_iff]
    exact (hfam.ring h hh).next_head_iff
  · intro h hh turns hturns
    have hring := hfam.ring h hh
    exact each_loop (lists h) h turns hring.chain (List.nodup_cons.mp hring.nodup).1 hturns
  · intro h hh body hbody turns hturns
    exact safe_loop hbody hh (lists h) m lists turns hfam rfl hturns

/-- Two lists, one of them empty, built from nodes that no link leads to. -/
def twoLists : Heap ℕ :=
  listAddTail (listAddTail (initLinkedList (initLinkedList { next := id, prev := id } 5) 0) 1 0) 2 0

theorem family_twoLists : Family twoLists (insert 0 (insert 5 ∅)) (Function.update (fun _ => []) 0 [1, 2]) := by
  have hnone : Family ({ next := id, prev := id } : Heap ℕ) ∅ (fun _ => []) := ⟨by simp, by simp⟩
  have hone := @family_initLinkedList _ _ _ _ _ 5 hnone (by simp)
  have htwo := @family_initLinkedList _ _ _ _ _ 0 hone (by simp)
  have hfirst := @family_listAddTail _ _ _ _ _ 0 1 htwo (by simp) (by simp)
  have hsecond := @family_listAddTail _ _ _ _ _ 0 2 hfirst (by simp) (by simp)
  simpa [twoLists] using hsecond

/-- The first list of the two is emptied by the safe loop, and the other one is empty as it was. -/
theorem list_functions_twoLists :
    listEmpty twoLists 0 = false ∧ listEmpty twoLists 5 = true ∧
    ∃ m', listForEachEntrySafe (fun e m => listDel m e) 0 3 twoLists = some ([1, 2], m') ∧
      Family m' (insert 0 (insert 5 ∅)) (Function.update (Function.update (fun _ => []) 0 [1, 2]) 0 []) := by
  obtain ⟨-, -, hempty, -, hloop⟩ :=
    list_functions twoLists (insert 0 (insert 5 ∅)) (Function.update (fun _ => []) 0 [1, 2]) family_twoLists
  refine ⟨?_, ?_, ?_⟩
  · rw [← Bool.not_eq_true, hempty 0 (by simp)]
    simp
  · rw [hempty 5 (by simp)]
    simp
  · exact hloop 0 (by simp) (fun e m => listDel m e) (fun e m a _ => ⟨rfl, rfl⟩) 3 (by simp)

end NvmeDem.LinkedList
