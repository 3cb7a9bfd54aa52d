import Mathlib.Data.Finset.Image

/-!
# Tables that are written by key

A table is a finite set of records. A write puts its record in the place of whatever has the same key, so that writing twice is
writing once. Writes into an empty table leave nothing but what was written (`mem_of_mem_upserts`), and all of it when no key is
written with two records (`upserts_of_consistent`); in which order they came does not matter then.
-/

namespace Upsert

variable {α κ : Type} [DecidableEq α] [DecidableEq κ] (key : α → κ)

/-- Write a record. -/
def upsert (s : Finset α) (a : α) : Finset α := insert a (s.filter (fun b => key b ≠ key a))

/-- Write the records of a list, one after the other. -/
def upserts (s : Finset α) (as : List α) : Finset α := as.foldl (upsert key) s

/-- No two records with the same key. -/
def Consistent (as : List α) : Prop := ∀ a ∈ as, ∀ b ∈ as, key a = key b → a = b

variable {key} {s : Finset α} {a b : α} {as bs : List α}

theorem mem_upsert : b ∈ upsert key s a ↔ b = a ∨ (b ∈ s ∧ key b ≠ key a) := by simp [upsert]

theorem upserts_append : upserts key s (as ++ bs) = upserts key (upserts key s as) bs := List.foldl_append

theorem mem_of_mem_upserts (h : b ∈ upserts key s as) : b ∈ as ∨ b ∈ s := by
  induction as generalizing s with
  | nil => exact Or.inr h
  | cons a as ih =>
    rcases ih h with h' | h'
    · exact Or.inl (List.mem_cons_of_mem a h')
    · rcases mem_upsert.1 h' with rfl | ⟨hs, -⟩
      · exact Or.inl List.mem_cons_self
      · exact Or.inr hs

/-- A record that agrees with the table is added to it. -/
theorem upsert_of_agrees (h : ∀ b ∈ s, key b = key a → b = a) : upsert key s a = insert a s := by
  ext b
  rw [mem_upsert, Finset.mem_insert]
  constructor
  · rintro (rfl | ⟨hb, -⟩)
    · exact Or.inl rfl
    · exact Or.inr hb
  · rintro (rfl | hb)
    · exact Or.inl rfl
    · by_cases hk : key b = key a
      · exact Or.inl (h b hb hk)
      · exact Or.inr ⟨hb, hk⟩

theorem upserts_of_agrees (hs : ∀ a ∈ as, ∀ b ∈ s, key b = key a → b = a) (has : Consistent key as) :
    upserts key s as = s ∪ as.toFinset := by
  induction as generalizing s with
  | nil => simp [upserts]
  | cons a as ih =>
    have hstep : upserts key s (a :: as) = upserts key (insert a s) as := by
      rw [← upsert_of_agrees (hs a List.mem_cons_self)]
      rfl
    rw [hstep, ih]
    · ext b
      simp only [Finset.mem_union, Finset.mem_insert, List.mem_toFinset, List.mem_cons]
      tauto
    · intro c hc b hb hk
      rcases Finset.mem_insert.1 hb with rfl | hb
      · exact has b List.mem_cons_self c (List.mem_cons_of_mem b hc) hk
      · exact hs c (List.mem_cons_of_mem a hc) b hb hk
    · exact fun c hc b hb => has c (List.mem_cons_of_mem a hc) b (List.mem_cons_of_mem a hb)

/-- What consistent writes leave of an empty table: the records written. -/
theorem upserts_of_consistent (h : Consistent key as) : upserts key ∅ as = as.toFinset := by
  rw [upserts_of_agrees (by simp) h, Finset.empty_union]

/-- Writes that have the records of consistent ones leave the same. -/
theorem upserts_of_mem_iff (h : Consistent key as) (hmem : ∀ b, b ∈ bs ↔ b ∈ as) : upserts key ∅ bs = as.toFinset := by
  have hbs : Consistent key bs := fun a ha b hb => h a ((hmem a).1 ha) b ((hmem b).1 hb)
  rw [upserts_of_consistent hbs]
  ext b
  rw [List.mem_toFinset, List.mem_toFinset, hmem]

/-- Writes leave no two records with the same key. -/
theorem eq_of_mem_upserts (hs : ∀ a ∈ s, ∀ b ∈ s, key a = key b → a = b) {x y : α} (hx : x ∈ upserts key s as)
    (hy : y ∈ upserts key s as) (h : key x = key y) : x = y := by
  induction as generalizing s with
  | nil => exact hs x hx y hy h
  | cons a as ih =>
    refine ih (fun b hb c hc hk => ?_) hx hy
    rcases mem_upsert.1 hb with rfl | ⟨hb, hbk⟩
    · rcases mem_upsert.1 hc with rfl | ⟨-, hck⟩
      · rfl
      · exact absurd hk.symm hck
    · rcases mem_upsert.1 hc with rfl | ⟨hc, -⟩
      · exact absurd hk hbk
      · exact hs b hb c hc hk

/-- All records that were written are there only if the writes were consistent. -/
theorem upserts_eq_iff : upserts key ∅ as = as.toFinset ↔ Consistent key as := by
  refine ⟨fun h a ha b hb hk => ?_, upserts_of_consistent⟩
  have hmem : ∀ x ∈ as, x ∈ upserts key ∅ as := by
    intro x hx
    rw [h]
    exact List.mem_toFinset.2 hx
  exact eq_of_mem_upserts (by simp) (hmem a ha) (hmem b hb) hk

theorem upserts_eq_empty_iff : upserts key ∅ as = ∅ ↔ as = [] := by
  refine ⟨fun h => ?_, fun h => by rw [h]; rfl⟩
  by_contra hne
  obtain ⟨init, a, rfl⟩ := (List.eq_nil_or_concat as).resolve_left hne
  have hlast : a ∈ upserts key ∅ (init ++ [a]) := by
    rw [upserts_append]
    exact mem_upsert.2 (Or.inl rfl)
  rw [← List.concat_eq_append, h] at hlast
  exact absurd hlast (Finset.notMem_empty a)

/-- Of the records that have a property which keys decide, writes leave what those of them leave that have the property. -/
theorem filter_upserts {p : α → Bool} (as : List α) (hp : ∀ a b, key a = key b → p a = p b) :
    (upserts key s as).filter (fun a => p a = true) = upserts key (s.filter (fun a => p a = true)) (as.filter p) := by
  induction as generalizing s with
  | nil => rfl
  | cons a as ih =>
    have hstep : upserts key s (a :: as) = upserts key (upsert key s a) as := rfl
    rw [hstep, ih, List.filter_cons]
    split
    · rename_i ha
      show _ = upserts key (upsert key (s.filter (fun a => p a = true)) a) (as.filter p)
      congr 1
      ext b
      simp only [Finset.mem_filter, mem_upsert]
      constructor
      · rintro ⟨rfl | ⟨hb, hk⟩, hpb⟩
        · exact Or.inl rfl
        · exact Or.inr ⟨⟨hb, hpb⟩, hk⟩
      · rintro (rfl | ⟨⟨hb, hpb⟩, hk⟩)
        · exact ⟨Or.inl rfl, ha⟩
        · exact ⟨Or.inr ⟨hb, hk⟩, hpb⟩
    · rename_i ha
      congr 1
      ext b
      simp only [Finset.mem_filter, mem_upsert]
      constructor
      · rintro ⟨rfl | ⟨hb, -⟩, hpb⟩
        · exact absurd hpb ha
        · exact ⟨hb, hpb⟩
      · rintro ⟨hb, hpb⟩
        exact ⟨Or.inr ⟨hb, fun hk => ha ((hp b a hk).symm.trans hpb)⟩, hpb⟩

/-- What forgets attributes and keeps keys may be applied before the writes or after them. -/
theorem image_upserts {f : α → α} (hf : ∀ a, key (f a) = key a) :
    (upserts key s as).image f = upserts key (s.image f) (as.map f) := by
  induction as generalizing s with
  | nil => rfl
  | cons a as ih =>
    have hstep : (upsert key s a).image f = upsert key (s.image f) (f a) := by
      ext b
      simp only [upsert, Finset.mem_image, Finset.mem_insert, Finset.mem_filter]
      constructor
      · rintro ⟨c, rfl | ⟨hc, hk⟩, rfl⟩
        · exact Or.inl rfl
        · exact Or.inr ⟨⟨c, hc, rfl⟩, by rw [hf, hf]; exact hk⟩
      · rintro (rfl | ⟨⟨c, hc, rfl⟩, hk⟩)
        · exact ⟨a, Or.inl rfl, rfl⟩
        · exact ⟨c, Or.inr ⟨hc, by rwa [hf, hf] at hk⟩, rfl⟩
    calc (upserts key s (a :: as)).image f = (upserts key (upsert key s a) as).image f := rfl
      _ = upserts key ((upsert key s a).image f) (as.map f) := ih
      _ = upserts key (s.image f) ((a :: as).map f) := by rw [hstep]; rfl

end Upsert
