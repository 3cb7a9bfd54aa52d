import NvmeDem.Lib.Script

/-!
# What a program makes of the far side

`Total p P Q` says that a program returns from every session whose far side has `P`, and that `Q` holds of what it returns and of
the far side it leaves; `Faults p P`, that it does not return from any of them. The rules follow the ways to put programs together.
A list of programs keeps an invariant of the part that has run.
-/

namespace Link

variable {ε σ α μ : Type}

/-- From a far side with `P` the program returns, with `Q`. -/
def Total (p : Prog ε σ) (P : σ → Prop) (Q : Int → σ → Prop) : Prop :=
  ∀ s : Session σ, P s.far → ∃ ret s', p s = .ok (ret, s') ∧ Q ret s'.far

/-- From a far side with `P` the program does not return. -/
def Faults (p : Prog ε σ) (P : σ → Prop) : Prop := ∀ s : Session σ, P s.far → ∃ e, p s = .error e

namespace Total

variable {p q : Prog ε σ} {P P' R : σ → Prop} {Q Q' : Int → σ → Prop} {net : Nat → Int}

theorem conseq (h : Total p P Q) (hp : ∀ far, P' far → P far) (hq : ∀ ret far, Q ret far → Q' ret far) : Total p P' Q' := by
  intro s hs
  obtain ⟨ret, s', hrun, hpost⟩ := h s (hp _ hs)
  exact ⟨ret, s', hrun, hq _ _ hpost⟩

theorem ex {β : Type} {A : β → σ → Prop} (h : ∀ b, Total p (A b) Q) : Total p (fun far => ∃ b, A b far) Q := by
  rintro s ⟨b, hb⟩
  exact h b s hb

theorem done : Total (Link.done : Prog ε σ) P (fun _ => P) := fun s hs => ⟨0, s, rfl, hs⟩

/-- An attempt over a link that does not fail is what the far side makes of it. -/
theorem attempt {handle : σ → Except ε (Int × σ)} (hnet : ∀ n, net n = 0)
    (h : ∀ far, P far → ∃ ret far', handle far = .ok (ret, far') ∧ Q ret far') : Total (Link.attempt net handle) P Q := by
  intro s hs
  obtain ⟨ret, far', hrun, hpost⟩ := h s.far hs
  refine ⟨ret, { s with far := far', results := s.results ++ [ret] }, ?_, hpost⟩
  unfold Link.attempt
  rw [if_pos (hnet _), hrun]

theorem andThen {R : Int → σ → Prop} (hp : Total p P R) (hq : Total q (R 0) Q)
    (hstop : ∀ ret far, ret ≠ 0 → R ret far → Q ret far) : Total (Link.andThen p q) P Q := by
  intro s hs
  obtain ⟨ret, s', hrun, hr⟩ := hp s hs
  unfold Link.andThen
  rw [hrun]
  by_cases hret : ret = 0
  · subst hret
    exact hq s' hr
  · refine ⟨ret, s', ?_, hstop _ _ hret hr⟩
    dsimp only
    rw [if_neg hret]

theorem regardless (hp : Total p P (fun _ => R)) (hq : Total q R Q) : Total (Link.regardless p q) P Q := by
  intro s hs
  obtain ⟨ret, s', hrun, hr⟩ := hp s hs
  unfold Link.regardless
  rw [hrun]
  exact hq s' hr

/-- `I` is what holds after a part of the list. -/
theorem eachRegardless {prog : α → Prog ε σ} {I : List α → σ → Prop} (as : List α)
    (h : ∀ as₁ a as₂, as = as₁ ++ a :: as₂ → Total (prog a) (I as₁) (fun _ => I (as₁ ++ [a]))) :
    Total (Link.eachRegardless prog as) (I []) (fun _ => I as) := by
  have hfrom : ∀ rest ran, as = ran ++ rest → Total (Link.eachRegardless prog rest) (I ran) (fun _ => I as) := by
    intro rest
    induction rest with
    | nil =>
      intro ran heq
      rw [heq, List.append_nil]
      exact done
    | cons a rest ih =>
      intro ran heq
      refine regardless (h ran a rest heq) (ih (ran ++ [a]) ?_)
      rw [heq, List.append_assoc]
      rfl
  exact hfrom as [] rfl

/-- A script of which every message goes well goes well; `I` is what holds after a part of its messages. -/
theorem script {send : μ → Prog ε σ} {I : List μ → σ → Prop} (p : Script μ) (before : List μ)
    (h : ∀ ms₁ m ms₂, p.messages = ms₁ ++ m :: ms₂ →
      Total (send m) (I (before ++ ms₁)) (fun ret far => ret = 0 ∧ I (before ++ ms₁ ++ [m]) far)) :
    Total (p.run send) (I before) (fun ret far => ret = 0 ∧ I (before ++ p.messages) far) := by
  induction p generalizing before with
  | done =>
    intro s hs
    exact ⟨0, s, rfl, rfl, by rwa [Script.messages_done, List.append_nil]⟩
  | send m =>
    have hm := h [] m [] rfl
    rw [List.append_nil] at hm
    exact hm
  | andThen p q ihp ihq =>
    have hp := ihp before (fun ms₁ m ms₂ heq => h ms₁ m (ms₂ ++ q.messages) (by rw [Script.messages_andThen, heq]; simp))
    have hq := ihq (before ++ p.messages) (fun ms₁ m ms₂ heq => by
      have hm := h (p.messages ++ ms₁) m ms₂ (by rw [Script.messages_andThen, heq]; simp)
      rwa [← List.append_assoc] at hm)
    rw [Script.messages_andThen, ← List.append_assoc]
    exact andThen hp (hq.conseq (fun far hI => hI.2) (fun _ _ hQ => hQ)) (fun ret far hne hI => absurd hI.1 hne)
  | regardless p q ihp ihq =>
    have hp := ihp before (fun ms₁ m ms₂ heq => h ms₁ m (ms₂ ++ q.messages) (by rw [Script.messages_regardless, heq]; simp))
    have hq := ihq (before ++ p.messages) (fun ms₁ m ms₂ heq => by
      have hm := h (p.messages ++ ms₁) m ms₂ (by rw [Script.messages_regardless, heq]; simp)
      rwa [← List.append_assoc] at hm)
    rw [Script.messages_regardless, ← List.append_assoc]
    exact regardless (hp.conseq (fun _ hI => hI) (fun _ _ hQ => hQ.2)) hq
  | followedBy p q ihp ihq =>
    have hp := ihp before (fun ms₁ m ms₂ heq => h ms₁ m (ms₂ ++ q.messages) (by rw [Script.messages_followedBy, heq]; simp))
    have hq := ihq (before ++ p.messages) (fun ms₁ m ms₂ heq => by
      have hm := h (p.messages ++ ms₁) m ms₂ (by rw [Script.messages_followedBy, heq]; simp)
      rwa [← List.append_assoc] at hm)
    rw [Script.messages_followedBy, ← List.append_assoc]
    intro s hs
    obtain ⟨ret, s₁, hrun, hret, hI⟩ := hp s hs
    obtain ⟨ret', s₂, hrun', -, hI'⟩ := hq s₁ hI
    exact ⟨ret, s₂, by simp [Script.run, followedBy, hrun, hrun'], hret, hI'⟩

/-- What is known of every end of a program is known of the one that it comes to. -/
theorem exists_iff {E : σ → Prop} {c : Prop} (h : Total p P (fun _ far => E far ↔ c)) {s : Session σ} (hs : P s.far) :
    (∃ ret s', p s = .ok (ret, s') ∧ E s'.far) ↔ c := by
  obtain ⟨ret, s', hrun, hiff⟩ := h s hs
  constructor
  · rintro ⟨ret₁, s₁, hrun₁, heff⟩
    rw [hrun] at hrun₁
    cases hrun₁
    exact hiff.mp heff
  · exact fun hc => ⟨ret, s', hrun, hiff.mpr hc⟩

end Total

namespace Faults

variable {p q : Prog ε σ} {P R : σ → Prop} {net : Nat → Int}

theorem attempt {handle : σ → Except ε (Int × σ)} (hnet : ∀ n, net n = 0)
    (h : ∀ far, P far → ∃ e, handle far = .error e) : Faults (Link.attempt net handle) P := by
  intro s hs
  obtain ⟨e, hrun⟩ := h s.far hs
  refine ⟨e, ?_⟩
  unfold Link.attempt
  rw [if_pos (hnet _), hrun]

theorem andThen (h : Faults p P) : Faults (Link.andThen p q) P := by
  intro s hs
  obtain ⟨e, hrun⟩ := h s hs
  refine ⟨e, ?_⟩
  unfold Link.andThen
  rw [hrun]

theorem regardless (hp : Total p P (fun _ => R)) (hq : Faults q R) : Faults (Link.regardless p q) P := by
  intro s hs
  obtain ⟨ret, s', hrun, hr⟩ := hp s hs
  unfold Link.regardless
  rw [hrun]
  exact hq s' hr

theorem not_exists {E : σ → Prop} (h : Faults p P) {s : Session σ} (hs : P s.far) :
    ¬∃ ret s', p s = .ok (ret, s') ∧ E s'.far := by
  rintro ⟨ret, s', hrun, -⟩
  obtain ⟨e, hfault⟩ := h s hs
  rw [hfault] at hrun
  cases hrun

end Faults

end Link
