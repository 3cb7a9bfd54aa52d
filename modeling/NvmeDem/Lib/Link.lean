import Mathlib.Data.List.Basic

/-!
# Programs that write to a far side over a link

A program makes attempts to reach the far side, one after the other. The link decides how each of them goes: a message that
arrives is handled there, and its result comes back; an attempt that fails returns the error of the link. Programs are put
together from attempts: `andThen` goes on while all went well, `regardless` goes on in any case, `each` and `eachRegardless` do
so over a list.

`Writes` says what such a program does when every attempt goes well: which records it writes, in which order, whatever the far
side held before. The rules follow the ways to put programs together.
-/

namespace Link

variable {ε σ ι α : Type}

/-- The far side, whether there is a connection to it, and the results of the attempts so far. -/
structure Session (σ : Type) where
  far : σ
  connected : Bool
  results : List Int

/-- Every attempt went well. -/
def Session.Quiet (s : Session σ) : Prop := ∀ r ∈ s.results, r = 0

instance (s : Session σ) : Decidable s.Quiet := inferInstanceAs (Decidable (∀ r ∈ s.results, r = 0))

/-- A program returns zero or an error number, or it does not return. -/
def Prog (ε σ : Type) : Type := Session σ → Except ε (Int × Session σ)

/-! ## Programs -/

def done : Prog ε σ := fun s => .ok (0, s)

/-- One attempt. Of the link, `net n` is how the attempt after the first `n` goes. -/
def attempt (net : Nat → Int) (handle : σ → Except ε (Int × σ)) : Prog ε σ := fun s =>
  if net s.results.length = 0 then
    match handle s.far with
    | .error e => .error e
    | .ok (ret, far) => .ok (ret, { s with far := far, results := s.results ++ [ret] })
  else .ok (net s.results.length, { s with results := s.results ++ [net s.results.length] })

def andThen (p q : Prog ε σ) : Prog ε σ := fun s =>
  match p s with
  | .error e => .error e
  | .ok (ret, s') => if ret = 0 then q s' else .ok (ret, s')

def regardless (p q : Prog ε σ) : Prog ε σ := fun s =>
  match p s with
  | .error e => .error e
  | .ok (_, s') => q s'

def each (p : α → Prog ε σ) : List α → Prog ε σ
  | [] => done
  | a :: as => andThen (p a) (each p as)

def eachRegardless (p : α → Prog ε σ) : List α → Prog ε σ
  | [] => done
  | a :: as => regardless (p a) (eachRegardless p as)

/-! ## What a result of zero says -/

theorem attempt_zero {net : Nat → Int} {handle : σ → Except ε (Int × σ)} {s s' : Session σ}
    (h : attempt net handle s = .ok (0, s')) : ∃ far, handle s.far = .ok (0, far) := by
  unfold attempt at h
  split at h
  · split at h
    · cases h
    · rename_i ret far hhandle
      cases h
      exact ⟨far, hhandle⟩
  · rename_i hne
    have hret := congrArg Prod.fst (Except.ok.inj h)
    exact absurd hret hne

/-- A list of programs that ends with zero ran each of them, and each ended with zero. -/
theorem each_zero {prog : α → Prog ε σ} {as : List α} {s s' : Session σ} (h : each prog as s = .ok (0, s')) :
    ∀ a ∈ as, ∃ s₁ s₂, prog a s₁ = .ok (0, s₂) := by
  induction as generalizing s with
  | nil => simp
  | cons a as ih =>
    unfold each andThen at h
    split at h
    · cases h
    · rename_i ret s₁ hs
      split at h
      · rename_i hret
        intro b hb
        rcases List.mem_cons.1 hb with rfl | hb
        · exact ⟨s, s₁, by rw [hs, hret]⟩
        · exact ih h b hb
      · rename_i hret
        cases h
        exact absurd rfl hret

/-! ## What a program writes -/

/-- What a program does, given how the far side takes a record. `fits` is what keeps the program from not returning, `taken` what
keeps the far side from refusing, `calm` that the link never fails. -/
structure Writes (write : σ → ι → σ) (calm : Prop) (p : Prog ε σ) (fits taken : Prop) (items : List ι) : Prop where
  returns : fits → ∀ s, ∃ ret s', p s = .ok (ret, s')
  quiet : ∀ {s ret s'}, p s = .ok (ret, s') → s'.Quiet →
    s.Quiet ∧ fits ∧ taken ∧ ret = 0 ∧ s'.far = items.foldl write s.far
  calm : calm → taken → ∀ {s ret s'}, p s = .ok (ret, s') → s.Quiet → s'.Quiet

namespace Writes

variable {write : σ → ι → σ} {calm : Prop} {p q : Prog ε σ} {fits fits' taken taken' : Prop} {items items' : List ι}

theorem done : Writes write calm (Link.done : Prog ε σ) True True [] where
  returns := fun _ s => ⟨0, s, rfl⟩
  quiet := by
    rintro s ret s' h hq
    cases h
    exact ⟨hq, trivial, trivial, rfl, rfl⟩
  calm := by
    rintro - - s ret s' h hq
    cases h
    exact hq

theorem attempt {net : Nat → Int} {handle : σ → Except ε (Int × σ)}
    (hreturns : fits → ∀ far, ∃ out, handle far = .ok out)
    (hzero : ∀ {far far'}, handle far = .ok (0, far') → fits ∧ taken ∧ far' = items.foldl write far)
    (htaken : taken → ∀ {far ret far'}, handle far = .ok (ret, far') → ret = 0) :
    Writes write (∀ n, net n = 0) (Link.attempt net handle) fits taken items where
  returns := by
    intro hf s
    obtain ⟨out, hout⟩ := hreturns hf s.far
    by_cases hn : net s.results.length = 0
    · exact ⟨_, _, by rw [Link.attempt, if_pos hn, hout]⟩
    · exact ⟨_, _, by rw [Link.attempt, if_neg hn]⟩
  quiet := by
    intro s ret s' h hq
    unfold Link.attempt at h
    split at h
    · split at h
      · cases h
      · rename_i ret' far hhandle
        cases h
        have hret : ret = 0 := hq ret (by simp)
        subst hret
        obtain ⟨hf, ht, hfar⟩ := hzero hhandle
        exact ⟨fun r hr => hq r (List.mem_append_left _ hr), hf, ht, rfl, hfar⟩
    · rename_i hn
      cases h
      exact absurd (hq _ (by simp)) hn
  calm := by
    intro hcalm ht s ret s' h hq
    unfold Link.attempt at h
    rw [if_pos (hcalm _)] at h
    split at h
    · cases h
    · rename_i ret' far hhandle
      cases h
      have hret := htaken ht hhandle
      intro r hr
      rcases List.mem_append.1 hr with hr | hr
      · exact hq r hr
      · rw [List.mem_singleton.1 hr, hret]

theorem andThen (hp : Writes write calm p fits taken items) (hq : Writes write calm q fits' taken' items') :
    Writes write calm (Link.andThen p q) (fits ∧ fits') (taken ∧ taken') (items ++ items') where
  returns := by
    intro hf s
    obtain ⟨ret, s', hs⟩ := hp.returns hf.1 s
    unfold Link.andThen
    rw [hs]
    by_cases hr : ret = 0
    · simpa [hr] using hq.returns hf.2 s'
    · exact ⟨ret, s', by simp [hr]⟩
  quiet := by
    intro s ret s' h hquiet
    unfold Link.andThen at h
    split at h
    · cases h
    · rename_i ret₁ s₁ hs
      split at h
      · obtain ⟨hq₁, hf', ht', hr, hfar⟩ := hq.quiet h hquiet
        obtain ⟨hq₀, hf, ht, -, hfar₁⟩ := hp.quiet hs hq₁
        exact ⟨hq₀, ⟨hf, hf'⟩, ⟨ht, ht'⟩, hr, by rw [hfar, hfar₁, List.foldl_append]⟩
      · rename_i hr
        cases h
        exact absurd (hp.quiet hs hquiet).2.2.2.1 hr
  calm := by
    intro hcalm ht s ret s' h hquiet
    unfold Link.andThen at h
    split at h
    · cases h
    · rename_i ret₁ s₁ hs
      have hq₁ := hp.calm hcalm ht.1 hs hquiet
      split at h
      · exact hq.calm hcalm ht.2 h hq₁
      · cases h
        exact hq₁

theorem regardless (hp : Writes write calm p fits taken items) (hq : Writes write calm q fits' taken' items') :
    Writes write calm (Link.regardless p q) (fits ∧ fits') (taken ∧ taken') (items ++ items') where
  returns := by
    intro hf s
    obtain ⟨ret, s', hs⟩ := hp.returns hf.1 s
    unfold Link.regardless
    rw [hs]
    exact hq.returns hf.2 s'
  quiet := by
    intro s ret s' h hquiet
    unfold Link.regardless at h
    split at h
    · cases h
    · rename_i ret₁ s₁ hs
      obtain ⟨hq₁, hf', ht', hr, hfar⟩ := hq.quiet h hquiet
      obtain ⟨hq₀, hf, ht, -, hfar₁⟩ := hp.quiet hs hq₁
      exact ⟨hq₀, ⟨hf, hf'⟩, ⟨ht, ht'⟩, hr, by rw [hfar, hfar₁, List.foldl_append]⟩
  calm := by
    intro hcalm ht s ret s' h hquiet
    unfold Link.regardless at h
    split at h
    · cases h
    · rename_i ret₁ s₁ hs
      exact hq.calm hcalm ht.2 h (hp.calm hcalm ht.1 hs hquiet)

/-- Which of two programs runs may depend on the session, if they do the same. -/
theorem byState {c : Session σ → Bool} (hp : Writes write calm p fits taken items) (hq : Writes write calm q fits taken items) :
    Writes write calm (fun s => if c s then p s else q s) fits taken items where
  returns := by
    intro hf s
    by_cases hc : c s = true
    · simpa [hc] using hp.returns hf s
    · simpa [hc] using hq.returns hf s
  quiet := by
    intro s ret s' h hquiet
    split at h
    · exact hp.quiet h hquiet
    · exact hq.quiet h hquiet
  calm := by
    intro hcalm ht s ret s' h hquiet
    split at h
    · exact hp.calm hcalm ht h hquiet
    · exact hq.calm hcalm ht h hquiet

/-- The conditions and the records may be said in another way. -/
theorem congr (hp : Writes write calm p fits taken items) (hf : fits ↔ fits') (ht : taken ↔ taken') (hi : items = items') :
    Writes write calm p fits' taken' items' := by
  cases propext hf
  cases propext ht
  cases hi
  exact hp

section

variable {prog : α → Prog ε σ} {fitsOf takenOf : α → Prop} {itemsOf : α → List ι}

theorem each {as : List α} (h : ∀ a ∈ as, Writes write calm (prog a) (fitsOf a) (takenOf a) (itemsOf a)) :
    Writes write calm (Link.each prog as) (∀ a ∈ as, fitsOf a) (∀ a ∈ as, takenOf a) (as.flatMap itemsOf) := by
  induction as with
  | nil => exact done.congr (by simp) (by simp) rfl
  | cons a as ih =>
    have hrest := ih (fun b hb => h b (List.mem_cons_of_mem a hb))
    exact ((h a List.mem_cons_self).andThen hrest).congr (by simp) (by simp) (by simp)

theorem eachRegardless {as : List α} (h : ∀ a ∈ as, Writes write calm (prog a) (fitsOf a) (takenOf a) (itemsOf a)) :
    Writes write calm (Link.eachRegardless prog as) (∀ a ∈ as, fitsOf a) (∀ a ∈ as, takenOf a) (as.flatMap itemsOf) := by
  induction as with
  | nil => exact done.congr (by simp) (by simp) rfl
  | cons a as ih =>
    have hrest := ih (fun b hb => h b (List.mem_cons_of_mem a hb))
    exact ((h a List.mem_cons_self).regardless hrest).congr (by simp) (by simp) (by simp)

/-- Each of the programs writes one record. -/
theorem eachOne {as : List α} {itemOf : α → ι}
    (h : ∀ a ∈ as, Writes write calm (prog a) (fitsOf a) (takenOf a) [itemOf a]) :
    Writes write calm (Link.each prog as) (∀ a ∈ as, fitsOf a) (∀ a ∈ as, takenOf a) (as.map itemOf) :=
  (each h).congr Iff.rfl Iff.rfl List.map_eq_flatMap.symm

theorem eachRegardlessOne {as : List α} {itemOf : α → ι}
    (h : ∀ a ∈ as, Writes write calm (prog a) (fitsOf a) (takenOf a) [itemOf a]) :
    Writes write calm (Link.eachRegardless prog as) (∀ a ∈ as, fitsOf a) (∀ a ∈ as, takenOf a) (as.map itemOf) :=
  (eachRegardless h).congr Iff.rfl Iff.rfl List.map_eq_flatMap.symm

end

end Writes

end Link
