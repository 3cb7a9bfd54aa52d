import Mathlib.Logic.Basic

/-!
# Operations on one place of a state

A state has places, and an entry at some of them. An operation is local to a place when what it gives is settled by the entry
there and by a view of the state that no entry is part of, and when it changes nothing but the entry. Two operations that are
local to different places commute: each gives the same, and they leave the same state, whichever runs first.
-/

/-- The places of a state: the entry at a place, and the state with another entry there. An entry may be stood at the places that
it fits. -/
structure Places (σ ι ε : Type*) where
  get : σ → ι → Option ε
  put : σ → ι → ε → σ
  fits : ι → ε → Prop
  get_fits : ∀ {s : σ} {i : ι} {x : ε}, get s i = some x → fits i x
  get_put_ne : ∀ {s : σ} {i i' : ι} {x : ε}, i' ≠ i → fits i x → get (put s i x) i' = get s i'
  put_comm : ∀ {s : σ} {i i' : ι} {x x' : ε}, i ≠ i' → fits i x → fits i' x' →
    put (put s i x) i' x' = put (put s i' x') i x

namespace Places

variable {σ ι ε τ φ ρ : Type*} (P : Places σ ι ε)

/-- The state with an entry written, if there is one to write. -/
def write (s : σ) (i : ι) : Option ε → σ
  | none => s
  | some x => P.put s i x

/-- An operation that is local to the place `i`. -/
def LocalTo (view : σ → τ) (i : ι) (op : σ → Except φ (ρ × σ)) : Prop :=
  ∃ edit : τ → Option ε → Except φ (ρ × Option ε),
    (∀ s, op s = (edit (view s) (P.get s i)).map (fun p => (p.1, P.write s i p.2))) ∧
      ∀ v x? r y, (∀ x, x? = some x → P.fits i x) → edit v x? = .ok (r, some y) → P.fits i y

/-- Two operations, one after the other, and what each gives. -/
def both (op op' : σ → Except φ (ρ × σ)) (s : σ) : Except φ (ρ × ρ × σ) :=
  (op s).bind (fun p => (op' p.2).map (fun p' => (p.1, p'.1, p'.2)))

variable {P} {view : σ → τ} {i i' : ι} {s s' : σ} {r r' : ρ} {op op' : σ → Except φ (ρ × σ)}

theorem both_eq_ok :
    both op op' s = .ok (r, r', s') ↔ ∃ s₁, op s = .ok (r, s₁) ∧ op' s₁ = .ok (r', s') := by
  unfold both
  cases op s with
  | error f => simp [Except.bind]
  | ok p =>
    obtain ⟨r₁, s₁⟩ := p
    cases hop : op' s₁ with
    | error f =>
      simp only [Except.bind, hop, Except.map, reduceCtorEq, Except.ok.injEq, Prod.mk.injEq, false_iff]
      rintro ⟨s₂, ⟨rfl, rfl⟩, h⟩
      rw [hop] at h
      cases h
    | ok p' =>
      simp only [Except.bind, hop, Except.map, Except.ok.injEq, Prod.mk.injEq]
      constructor
      · rintro ⟨rfl, rfl, rfl⟩
        exact ⟨s₁, ⟨rfl, rfl⟩, hop⟩
      · rintro ⟨s₂, ⟨rfl, rfl⟩, h⟩
        obtain rfl := Except.ok.inj (hop.symm.trans h)
        exact ⟨rfl, rfl, rfl⟩

theorem get_write_ne {y? : Option ε} (hne : i' ≠ i) (hfits : ∀ y, y? = some y → P.fits i y) :
    P.get (P.write s i y?) i' = P.get s i' := by
  cases y? with
  | none => rfl
  | some y => exact P.get_put_ne hne (hfits y rfl)

theorem write_comm {y? y'? : Option ε} (hne : i ≠ i') (hfits : ∀ y, y? = some y → P.fits i y)
    (hfits' : ∀ y, y'? = some y → P.fits i' y) :
    P.write (P.write s i y?) i' y'? = P.write (P.write s i' y'?) i y? := by
  cases y? with
  | none => rfl
  | some y =>
    cases y'? with
    | none => rfl
    | some y' => exact P.put_comm hne (hfits y rfl) (hfits' y' rfl)

theorem view_write {y? : Option ε} (hview : ∀ s x, view (P.put s i x) = view s) :
    view (P.write s i y?) = view s := by
  cases y? with
  | none => rfl
  | some y => exact hview s y

theorem map_write_eq_ok {x : Except φ (ρ × Option ε)} :
    x.map (fun p => (p.1, P.write s i p.2)) = .ok (r, s') ↔ ∃ y?, x = .ok (r, y?) ∧ P.write s i y? = s' := by
  cases x with
  | error f => simp [Except.map]
  | ok p =>
    obtain ⟨r₁, y?⟩ := p
    simp only [Except.map, Except.ok.injEq, Prod.mk.injEq]
    constructor
    · rintro ⟨rfl, h⟩
      exact ⟨y?, ⟨rfl, rfl⟩, h⟩
    · rintro ⟨y'?, ⟨rfl, rfl⟩, h⟩
      exact ⟨rfl, h⟩

theorem both_swap (hop : P.LocalTo view i op) (hop' : P.LocalTo view i' op') (hne : i ≠ i')
    (hview : ∀ s i x, view (P.put s i x) = view s) (h : both op op' s = .ok (r, r', s')) :
    both op' op s = .ok (r', r, s') := by
  obtain ⟨edit, hrun, hkeep⟩ := hop
  obtain ⟨edit', hrun', hkeep'⟩ := hop'
  obtain ⟨s₁, h₁, h₂⟩ := both_eq_ok.mp h
  rw [hrun] at h₁
  obtain ⟨y?, hedit, rfl⟩ := map_write_eq_ok.mp h₁
  have hfits : ∀ y, y? = some y → P.fits i y :=
    fun y hy => hkeep _ _ _ y (fun x hx => P.get_fits hx) (hy ▸ hedit)
  -- the second operation sees what it sees when it runs first
  rw [hrun', view_write (fun s x => hview s i x), get_write_ne hne.symm hfits] at h₂
  obtain ⟨y'?, hedit', rfl⟩ := map_write_eq_ok.mp h₂
  have hfits' : ∀ y, y'? = some y → P.fits i' y :=
    fun y hy => hkeep' _ _ _ y (fun x hx => P.get_fits hx) (hy ▸ hedit')
  refine both_eq_ok.mpr ⟨P.write s i' y'?, ?_, ?_⟩
  · rw [hrun', hedit']
    rfl
  · rw [hrun, view_write (fun s x => hview s i' x), get_write_ne hne hfits', hedit, write_comm hne hfits hfits']
    rfl

/-- Operations that are local to different places commute. -/
theorem both_comm (hop : P.LocalTo view i op) (hop' : P.LocalTo view i' op') (hne : i ≠ i')
    (hview : ∀ s i x, view (P.put s i x) = view s) :
    both op op' s = .ok (r, r', s') ↔ both op' op s = .ok (r', r, s') :=
  ⟨both_swap hop hop' hne hview, both_swap hop' hop hne.symm hview⟩

end Places
