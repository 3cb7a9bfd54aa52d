import Mathlib.Data.List.Chain
import Mathlib.Data.List.Nodup

/-!
# Doubly linked rings

Memory is a map from nodes to two links each. A ring is a node, its head, with a list of other nodes: from the head the links lead through
the list in order and to the head again, and back. Where the head is the only node it is linked with itself.

What an insertion or a removal does to memory is said by `Inserted` and `Removed`, whatever the assignments are by which it is done: the links
of two neighbours and of the node between them, and no other. A removal may leave anything in the links of the node that is gone.
-/

namespace Rings

variable {α : Type}

/-- The links of each node. -/
structure Heap (α : Type) where
  next : α → α
  prev : α → α

/-- `b` is behind `a`, and `a` in front of `b`. -/
def Heap.Linked (m : Heap α) (a b : α) : Prop := m.next a = b ∧ m.prev b = a

/-- The head and the list are a ring. -/
structure Ring (m : Heap α) (h : α) (xs : List α) : Prop where
  chain : (h :: (xs ++ [h])).IsChain m.Linked
  nodup : (h :: xs).Nodup

/-- What becomes of memory when `e` comes between `p` and `n`. -/
structure Inserted (m m' : Heap α) (p e n : α) : Prop where
  front : m'.Linked p e
  behind : m'.Linked e n
  next : ∀ a, a ≠ p → a ≠ e → m'.next a = m.next a
  prev : ∀ a, a ≠ n → a ≠ e → m'.prev a = m.prev a

/-- What becomes of memory when `e` goes from between `p` and `n`. -/
structure Removed (m m' : Heap α) (p e n : α) : Prop where
  closed : m'.Linked p n
  next : ∀ a, a ≠ p → a ≠ e → m'.next a = m.next a
  prev : ∀ a, a ≠ n → a ≠ e → m'.prev a = m.prev a

variable {m m' : Heap α} {p e n h : α} {xs ys : List α}

/-- A chain depends on the links that are in it. -/
theorem chain_congr {l : List α} (hl : l.IsChain m.Linked) (hnext : ∀ a ∈ l.dropLast, m'.next a = m.next a)
    (hprev : ∀ a ∈ l.tail, m'.prev a = m.prev a) : l.IsChain m'.Linked := by
  induction l with
  | nil => exact .nil
  | cons a l ih =>
    cases l with
    | nil => exact .singleton a
    | cons b l =>
      rw [List.isChain_cons_cons] at hl ⊢
      refine ⟨⟨?_, ?_⟩, ih hl.2 ?_ ?_⟩
      · rw [hnext a (by simp)]
        exact hl.1.1
      · rw [hprev b (by simp)]
        exact hl.1.2
      · intro c hc
        exact hnext c (by simp [hc])
      · intro c hc
        exact hprev c (List.mem_of_mem_tail hc)

/-- A ring depends on the links of its own nodes. -/
theorem Ring.congr (hr : Ring m h xs) (hnext : ∀ a ∈ h :: xs, m'.next a = m.next a) (hprev : ∀ a ∈ h :: xs, m'.prev a = m.prev a) :
    Ring m' h xs where
  chain := by
    refine chain_congr hr.chain ?_ ?_
    · intro a ha
      rw [← List.cons_append, List.dropLast_concat] at ha
      exact hnext a ha
    · intro a ha
      rw [List.tail_cons, List.mem_append, List.mem_singleton] at ha
      rcases ha with ha | rfl
      · exact hprev a (List.mem_cons_of_mem _ ha)
      · exact hprev a List.mem_cons_self
  nodup := hr.nodup

/-- A place in a ring is behind the last of the nodes in front of it, and in front of the first of those behind it. -/
theorem exists_place (h : α) (xs ys : List α) : ∃ u p n v, h :: xs = u ++ [p] ∧ ys ++ [h] = n :: v := by
  obtain ⟨u, p, hu⟩ := (List.eq_nil_or_concat' (h :: xs)).resolve_left (List.cons_ne_nil h xs)
  obtain ⟨n, v, hn⟩ := List.exists_cons_of_ne_nil (List.append_ne_nil_of_right_ne_nil ys (List.cons_ne_nil h []))
  exact ⟨u, p, n, v, hu, hn⟩

theorem mem_of_place {u v : List α} (hu : h :: xs = u ++ [p]) (hn : ys ++ [h] = n :: v) :
    p ∈ h :: (xs ++ ys) ∧ n ∈ h :: (xs ++ ys) := by
  have hp : p ∈ h :: xs := by simp [hu]
  have hn' : n ∈ ys ++ [h] := by simp [hn]
  constructor
  · rw [← List.cons_append]
    exact List.mem_append_left _ hp
  · rcases List.mem_append.mp hn' with hn' | hn'
    · exact List.mem_cons_of_mem _ (List.mem_append_right _ hn')
    · exact List.mem_singleton.mp hn' ▸ List.mem_cons_self

/-- No node is twice in a ring, whether its head is in front of the list or behind it. -/
theorem nodup_around (hnodup : (h :: (xs ++ ys)).Nodup) :
    (h :: xs).Nodup ∧ (ys ++ [h]).Nodup ∧ ∀ a ∈ h :: xs, a ∉ ys := by
  rw [← List.cons_append] at hnodup
  obtain ⟨hfront, hbehind, hdisj⟩ := List.nodup_append.mp hnodup
  refine ⟨hfront, ?_, fun a ha ha' => hdisj a ha a ha' rfl⟩
  refine List.nodup_append.mpr ⟨hbehind, List.nodup_singleton h, ?_⟩
  intro a ha b hb hab
  rw [List.mem_singleton.mp hb] at hab
  exact hdisj h List.mem_cons_self a ha hab.symm

/-- The part in front of a place stays a chain when only links at the place change. -/
theorem chain_front {u v : List α} (hnodup : (h :: (xs ++ ys)).Nodup) (he : e ∉ h :: (xs ++ ys)) (hu : h :: xs = u ++ [p])
    (hn : ys ++ [h] = n :: v) (hnext : ∀ a, a ≠ p → a ≠ e → m'.next a = m.next a)
    (hprev : ∀ a, a ≠ n → a ≠ e → m'.prev a = m.prev a) (hfront : (u ++ [p]).IsChain m.Linked) : (u ++ [p]).IsChain m'.Linked := by
  obtain ⟨hnodup, -, hdisj⟩ := nodup_around hnodup
  have hne : ∀ a ∈ h :: xs, a ≠ e := by
    rintro a ha rfl
    exact he (List.cons_append ▸ List.mem_append_left ys ha)
  refine chain_congr hfront ?_ ?_
  · intro a ha
    rw [List.dropLast_concat] at ha
    have hfrom : a ∈ h :: xs := hu ▸ List.mem_append_left _ ha
    rw [hu] at hnodup
    exact hnext a ((List.nodup_append.mp hnodup).2.2 a ha p (List.mem_singleton_self p)) (hne a hfrom)
  · intro a ha
    rw [← hu, List.tail_cons] at ha
    refine hprev a ?_ (hne a (List.mem_cons_of_mem _ ha))
    rintro rfl
    have hmem : a ∈ ys ++ [h] := by simp [hn]
    rcases List.mem_append.mp hmem with hmem | hmem
    · exact hdisj a (List.mem_cons_of_mem _ ha) hmem
    · exact (List.nodup_cons.mp hnodup).1 (List.mem_singleton.mp hmem ▸ ha)

/-- The part behind it does as well. -/
theorem chain_behind {u v : List α} (hnodup : (h :: (xs ++ ys)).Nodup) (he : e ∉ h :: (xs ++ ys)) (hu : h :: xs = u ++ [p])
    (hn : ys ++ [h] = n :: v) (hnext : ∀ a, a ≠ p → a ≠ e → m'.next a = m.next a)
    (hprev : ∀ a, a ≠ n → a ≠ e → m'.prev a = m.prev a) (hbehind : (n :: v).IsChain m.Linked) : (n :: v).IsChain m'.Linked := by
  obtain ⟨-, hnodup, hdisj⟩ := nodup_around hnodup
  have hne : ∀ a ∈ ys ++ [h], a ≠ e := by
    rintro a ha rfl
    rcases List.mem_append.mp ha with ha | ha
    · exact he (List.mem_cons_of_mem _ (List.mem_append_right _ ha))
    · exact he (List.mem_singleton.mp ha ▸ List.mem_cons_self)
  refine chain_congr hbehind ?_ ?_
  · intro a ha
    rw [← hn, List.dropLast_concat] at ha
    refine hnext a ?_ (hne a (List.mem_append_left _ ha))
    rintro rfl
    exact hdisj a (by simp [hu]) ha
  · intro a ha
    rw [List.tail_cons] at ha
    refine hprev a ?_ (hne a (hn ▸ List.mem_cons_of_mem _ ha))
    rintro rfl
    rw [hn] at hnodup
    exact (List.nodup_cons.mp hnodup).1 ha

/-- A ring with a place in it: the nodes at the place are linked. -/
theorem Ring.at_place {u v : List α} (hr : Ring m h (xs ++ ys)) (hu : h :: xs = u ++ [p]) (hn : ys ++ [h] = n :: v) :
    (u ++ [p]).IsChain m.Linked ∧ m.Linked p n ∧ (n :: v).IsChain m.Linked := by
  have hchain := hr.chain
  rwa [List.append_assoc, ← List.cons_append, hu, hn, List.append_assoc, List.singleton_append, List.isChain_append_cons_cons] at hchain

/-- A node that is not in a ring is put in at a place. -/
theorem Ring.insert {u v : List α} (hr : Ring m h (xs ++ ys)) (hu : h :: xs = u ++ [p]) (hn : ys ++ [h] = n :: v)
    (he : e ∉ h :: (xs ++ ys)) (hm : Inserted m m' p e n) : Ring m' h (xs ++ e :: ys) := by
  obtain ⟨hfront, -, hbehind⟩ := hr.at_place hu hn
  have hfront' := chain_front hr.nodup he hu hn hm.next hm.prev hfront
  have hbehind' := chain_behind hr.nodup he hu hn hm.next hm.prev hbehind
  constructor
  · rw [List.append_assoc, ← List.cons_append, hu, List.cons_append, hn, List.append_assoc, List.singleton_append,
      List.isChain_append_cons_cons, List.isChain_cons_cons]
    exact ⟨hfront', hm.front, hm.behind, hbehind'⟩
  · have hperm : (e :: (h :: (xs ++ ys))).Perm (h :: (xs ++ e :: ys)) :=
      (List.Perm.swap h e (xs ++ ys)).trans (List.Perm.cons h List.perm_middle.symm)
    exact hperm.nodup_iff.mp (List.nodup_cons.mpr ⟨he, hr.nodup⟩)

theorem Ring.nodup_remove (hr : Ring m h (xs ++ e :: ys)) : e ∉ h :: (xs ++ ys) ∧ (h :: (xs ++ ys)).Nodup := by
  have hperm : (h :: (xs ++ e :: ys)).Perm (e :: (h :: (xs ++ ys))) :=
    (List.Perm.cons h List.perm_middle).trans (List.Perm.swap e h (xs ++ ys))
  exact List.nodup_cons.mp (hperm.nodup_iff.mp hr.nodup)

/-- A node of a ring is between its neighbours. -/
theorem Ring.at_node {u v : List α} (hr : Ring m h (xs ++ e :: ys)) (hu : h :: xs = u ++ [p]) (hn : ys ++ [h] = n :: v) :
    (u ++ [p]).IsChain m.Linked ∧ m.Linked p e ∧ m.Linked e n ∧ (n :: v).IsChain m.Linked := by
  have hchain := hr.chain
  rwa [List.append_assoc, ← List.cons_append, hu, List.cons_append, hn, List.append_assoc, List.singleton_append,
    List.isChain_append_cons_cons, List.isChain_cons_cons] at hchain

/-- A node is taken out of a ring. -/
theorem Ring.remove {u v : List α} (hr : Ring m h (xs ++ e :: ys)) (hu : h :: xs = u ++ [p]) (hn : ys ++ [h] = n :: v)
    (hm : Removed m m' p e n) : Ring m' h (xs ++ ys) := by
  obtain ⟨hfront, -, -, hbehind⟩ := hr.at_node hu hn
  obtain ⟨he, hnodup⟩ := hr.nodup_remove
  have hfront' := chain_front hnodup he hu hn hm.next hm.prev hfront
  have hbehind' := chain_behind hnodup he hu hn hm.next hm.prev hbehind
  constructor
  · rw [List.append_assoc, ← List.cons_append, hu, hn, List.append_assoc, List.singleton_append, List.isChain_append_cons_cons]
    exact ⟨hfront', hm.closed, hbehind'⟩
  · exact hnodup

/-- The head is linked with itself if and only if it is alone. -/
theorem Ring.next_head_iff (hr : Ring m h xs) : m.next h = h ↔ xs = [] := by
  cases xs with
  | nil => exact iff_of_true (List.isChain_cons_cons.mp hr.chain).1.1 rfl
  | cons x xs =>
    refine iff_of_false ?_ (List.cons_ne_nil x xs)
    intro hself
    have hnext : m.next h = x := (List.isChain_cons_cons.mp hr.chain).1.1
    exact (List.nodup_cons.mp hr.nodup).1 (by rw [← hself, hnext]; exact List.mem_cons_self)

/-- The first entry of a list, and what is the first once it is gone. -/
theorem Ring.next_first {x : α} {xs : List α} (hr : Ring m h (x :: xs)) :
    m.next h = x ∧ x ≠ h ∧ ∀ m', Ring m' h xs → m'.next h = m.next x := by
  have hchain := hr.chain
  rw [List.cons_append, List.isChain_cons_cons] at hchain
  refine ⟨hchain.1.1, ?_, ?_⟩
  · rintro rfl
    exact (List.nodup_cons.mp hr.nodup).1 List.mem_cons_self
  · intro m' hr'
    have hafter := hr'.chain
    cases xs with
    | nil => exact (List.isChain_cons_cons.mp hafter).1.1.trans (List.isChain_cons_cons.mp hchain.2).1.1.symm
    | cons y ys => exact (List.isChain_cons_cons.mp hafter).1.1.trans (List.isChain_cons_cons.mp hchain.2).1.1.symm

end Rings
