import Mathlib.Data.List.Forall2

/-!
# Loops that collect

A loop over a list that appends to its result what each element gives, and stops at the first element that fails.
`collect_filter` says what the whole loop gives when some elements make one entry and the others none.
-/

/-- What the elements of a list give, one after the other. -/
def collect {ε α β : Type*} (f : α → Except ε (List β)) : List α → Except ε (List β)
  | [] => .ok []
  | x :: xs =>
    match f x with
    | .error e => .error e
    | .ok ys => (collect f xs).map (fun zs => ys ++ zs)

section

variable {ε α β : Type*} {f : α → Except ε (List β)}

theorem collect_cons_of_ok {x : α} {xs : List α} {ys zs : List β} (hx : f x = .ok ys) (hxs : collect f xs = .ok zs) :
    collect f (x :: xs) = .ok (ys ++ zs) := by
  simp [collect, hx, hxs, Except.map]

theorem collect_cons_ok {x : α} {xs : List α} {ys : List β} (h : collect f (x :: xs) = .ok ys) :
    ∃ zs rest, f x = .ok zs ∧ collect f xs = .ok rest ∧ ys = zs ++ rest := by
  cases hx : f x with
  | error e => simp [collect, hx] at h
  | ok zs =>
    cases hxs : collect f xs with
    | error e => simp [collect, hx, hxs, Except.map] at h
    | ok rest =>
      simp only [collect, hx, hxs, Except.map, Except.ok.injEq] at h
      exact ⟨zs, rest, rfl, rfl, h.symm⟩

/-- What a loop gives comes from one of the elements. -/
theorem mem_collect {xs : List α} {ys : List β} {y : β} (h : collect f xs = .ok ys) (hy : y ∈ ys) :
    ∃ x ∈ xs, ∃ zs, f x = .ok zs ∧ y ∈ zs := by
  induction xs generalizing ys with
  | nil =>
    obtain rfl := Except.ok.inj h
    cases hy
  | cons x xs ih =>
    obtain ⟨zs, rest, hx, hxs, rfl⟩ := collect_cons_ok h
    rcases List.mem_append.mp hy with hy | hy
    · exact ⟨x, List.mem_cons_self, zs, hx, hy⟩
    · obtain ⟨x', hx', h'⟩ := ih hxs hy
      exact ⟨x', List.mem_cons_of_mem x hx', h'⟩

theorem mem_collect_of_mem {x : α} {xs : List α} {ys zs : List β} {y : β} (h : collect f xs = .ok ys) (hx : x ∈ xs)
    (hf : f x = .ok zs) (hy : y ∈ zs) : y ∈ ys := by
  induction xs generalizing ys with
  | nil => cases hx
  | cons x' xs ih =>
    obtain ⟨zs', rest, hx', hxs, rfl⟩ := collect_cons_ok h
    rcases List.mem_cons.mp hx with rfl | hx
    · obtain rfl := Except.ok.inj (hx'.symm.trans hf)
      exact List.mem_append_left _ hy
    · exact List.mem_append_right _ (ih hxs hx)

/-- Every element of a loop that went through gave something. -/
theorem collect_each {x : α} {xs : List α} {ys : List β} (h : collect f xs = .ok ys) (hx : x ∈ xs) : ∃ zs, f x = .ok zs := by
  induction xs generalizing ys with
  | nil => cases hx
  | cons x' xs ih =>
    obtain ⟨zs, rest, hx', hxs, rfl⟩ := collect_cons_ok h
    rcases List.mem_cons.mp hx with rfl | hx
    · exact ⟨zs, hx'⟩
    · exact ih hxs hx

/-- When each element makes the entry of its key, or none, the entries have the keys in order. -/
theorem map_collect {γ : Type*} {g : β → γ} {k : α → Option γ} {xs : List α} {ys : List β}
    (hf : ∀ x ∈ xs, ∀ zs, f x = .ok zs → zs.map g = (k x).toList) (h : collect f xs = .ok ys) :
    ys.map g = xs.filterMap k := by
  induction xs generalizing ys with
  | nil =>
    obtain rfl := Except.ok.inj h
    rfl
  | cons x xs ih =>
    obtain ⟨zs, rest, hx, hxs, rfl⟩ := collect_cons_ok h
    rw [List.map_append, hf x List.mem_cons_self zs hx, ih (fun y hy => hf y (List.mem_cons_of_mem x hy)) hxs]
    cases hk : k x with
    | none => rw [List.filterMap_cons_none hk, Option.toList_none, List.nil_append]
    | some c => rw [List.filterMap_cons_some hk, Option.toList_some, List.singleton_append]

/-- When each element makes at most one entry, under a key that is its place, the keys are in the order of the places. -/
theorem sublist_collect_zipIdx {f : α × Nat → Except ε (List β)} {k : β → Nat}
    (hf : ∀ x zs, f x = .ok zs → (zs.map k).Sublist [x.2]) {xs : List α} {n : Nat} {ys : List β}
    (h : collect f (xs.zipIdx n) = .ok ys) : (ys.map k).Sublist (List.range' n xs.length) := by
  induction xs generalizing n ys with
  | nil =>
    obtain rfl := Except.ok.inj h
    exact .refl _
  | cons x xs ih =>
    rw [List.zipIdx_cons] at h
    obtain ⟨zs, rest, hx, hrest, rfl⟩ := collect_cons_ok h
    rw [List.map_append, List.length_cons, List.range'_succ]
    exact (hf _ zs hx).append (ih hrest)

/-- The elements that pass `p` make one entry each, which is related to them; the others make none. -/
theorem collect_filter {R : α → β → Prop} {p : α → Bool} (xs : List α)
    (h : ∀ x ∈ xs, if p x then ∃ y, f x = .ok [y] ∧ R x y else f x = .ok []) :
    ∃ ys, collect f xs = .ok ys ∧ List.Forall₂ R (xs.filter p) ys := by
  induction xs with
  | nil => exact ⟨[], rfl, .nil⟩
  | cons x xs ih =>
    obtain ⟨ys, hys, hR⟩ := ih (fun y hy => h y (List.mem_cons_of_mem x hy))
    have hx := h x List.mem_cons_self
    by_cases hp : p x = true
    · rw [if_pos hp] at hx
      obtain ⟨y, hy, hRy⟩ := hx
      refine ⟨y :: ys, collect_cons_of_ok hy hys, ?_⟩
      rw [List.filter_cons_of_pos hp]
      exact .cons hRy hR
    · rw [if_neg hp] at hx
      refine ⟨ys, collect_cons_of_ok hx hys, ?_⟩
      rwa [List.filter_cons_of_neg hp]

/-- Every element makes one entry, which is related to it. -/
theorem collect_forall₂ {R : α → β → Prop} (xs : List α) (h : ∀ x ∈ xs, ∃ y, f x = .ok [y] ∧ R x y) :
    ∃ ys, collect f xs = .ok ys ∧ List.Forall₂ R xs ys := by
  obtain ⟨ys, hys, hR⟩ := collect_filter (p := fun _ => true) xs (fun x hx => by simpa using h x hx)
  exact ⟨ys, hys, by simpa using hR⟩

/-- The same for a loop that cannot fail. -/
theorem filterMap_filter {R : α → β → Prop} {p : α → Bool} {g : α → Option β} (xs : List α)
    (h : ∀ x ∈ xs, if p x then ∃ y, g x = some y ∧ R x y else g x = none) :
    List.Forall₂ R (xs.filter p) (xs.filterMap g) := by
  induction xs with
  | nil => exact .nil
  | cons x xs ih =>
    have hR := ih (fun y hy => h y (List.mem_cons_of_mem x hy))
    have hx := h x List.mem_cons_self
    by_cases hp : p x = true
    · rw [if_pos hp] at hx
      obtain ⟨y, hy, hRy⟩ := hx
      rw [List.filter_cons_of_pos hp, List.filterMap_cons_some hy]
      exact .cons hRy hR
    · rw [if_neg hp] at hx
      rwa [List.filter_cons_of_neg hp, List.filterMap_cons_none hx]

end

/-- A loop over a state, each turn of which is a step of a relation, is a step of the relation. -/
theorem foldl_related {σ α : Type*} {R : σ → σ → Prop} {f : σ → α → σ} (hrefl : ∀ s, R s s)
    (htrans : ∀ s t u, R s t → R t u → R s u) {xs : List α} (hstep : ∀ s, ∀ x ∈ xs, R s (f s x)) (s : σ) :
    R s (xs.foldl f s) := by
  induction xs generalizing s with
  | nil => exact hrefl s
  | cons x xs ih =>
    exact htrans _ _ _ (hstep s x List.mem_cons_self) (ih (fun s y hy => hstep s y (List.mem_cons_of_mem x hy)) (f s x))

/-- What every turn of a loop keeps, the loop keeps. -/
theorem foldlM_invariant {ε σ α : Type*} {P : σ → Prop} {f : σ → α → Except ε σ} {xs : List α} {s s' : σ}
    (hf : xs.foldlM f s = .ok s') (h : P s) (hstep : ∀ s x s', x ∈ xs → P s → f s x = .ok s' → P s') : P s' := by
  induction xs generalizing s with
  | nil =>
    obtain rfl := Except.ok.inj hf
    exact h
  | cons x xs ih =>
    rw [List.foldlM_cons] at hf
    cases hx : f s x with
    | error e =>
      rw [hx] at hf
      cases hf
    | ok t =>
      rw [hx] at hf
      exact ih hf (hstep s x t List.mem_cons_self h hx) (fun s y s' hy => hstep s y s' (List.mem_cons_of_mem x hy))

/-- The same for a loop that counts its turns: what holds of the elements so far is kept by the next. -/
theorem foldlM_zipIdx_invariant {ε σ α : Type*} {P : σ → List α → Prop} {f : σ → α × Nat → Except ε σ} {xs : List α}
    (done : List α) {s s' : σ} (hf : (xs.zipIdx done.length).foldlM f s = .ok s') (h : P s done)
    (hstep : ∀ s done x s', x ∈ xs → P s done → f s (x, done.length) = .ok s' → P s' (done ++ [x])) : P s' (done ++ xs) := by
  induction xs generalizing done s with
  | nil =>
    obtain rfl := Except.ok.inj hf
    rwa [List.append_nil]
  | cons x xs ih =>
    rw [List.zipIdx_cons, List.foldlM_cons] at hf
    cases hx : f s (x, done.length) with
    | error e =>
      rw [hx] at hf
      cases hf
    | ok t =>
      rw [hx] at hf
      have hlen : (done ++ [x]).length = done.length + 1 := by simp
      rw [List.append_cons]
      refine ih (done ++ [x]) (by rw [hlen]; exact hf) (hstep s done x t List.mem_cons_self h hx) ?_
      exact fun s done y s' hy => hstep s done y s' (List.mem_cons_of_mem x hy)
