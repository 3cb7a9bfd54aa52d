import Mathlib.Logic.Basic

/-!
# Runs of a system

A system takes one operation after another; an operation may be possible in a state and not in another (`allowed`), and a step
of it leads to a next state. What holds at the start and is kept by every step holds in every state a run reaches.
-/

/-- The states that a system reaches from `s₀` by operations that are allowed where they are made. -/
inductive Run {σ ι : Type*} (step : ι → σ → σ → Prop) (allowed : σ → ι → Prop) (s₀ : σ) : σ → Prop
  | start : Run step allowed s₀ s₀
  | next {s s' : σ} {op : ι} (h : Run step allowed s₀ s) (ha : allowed s op) (hs : step op s s') :
      Run step allowed s₀ s'

namespace Run

variable {σ ι : Type*} {step : ι → σ → σ → Prop} {allowed : σ → ι → Prop} {s₀ s : σ}

/-- The rule of invariants. -/
theorem invariant {I : σ → Prop} (h : Run step allowed s₀ s) (h₀ : I s₀)
    (hstep : ∀ s op s', I s → allowed s op → step op s s' → I s') : I s := by
  induction h with
  | start => exact h₀
  | next _ ha hs ih => exact hstep _ _ _ ih ha hs

/-- A run under a condition is a run under a weaker one. -/
theorem mono {allowed' : σ → ι → Prop} (h : Run step allowed s₀ s) (hw : ∀ s op, allowed s op → allowed' s op) :
    Run step allowed' s₀ s := by
  induction h with
  | start => exact .start
  | next _ ha hs ih => exact .next ih (hw _ _ ha) hs

/-- The operations of a list, one after the other, make a run. -/
theorem of_foldlM {f : σ → ι → Option σ} {ops : List ι} {s' : σ}
    (h : Run (fun op s s' => f s op = some s') (fun _ _ => True) s₀ s) (hf : ops.foldlM f s = some s') :
    Run (fun op s s' => f s op = some s') (fun _ _ => True) s₀ s' := by
  induction ops generalizing s with
  | nil =>
    obtain rfl := Option.some.inj hf
    exact h
  | cons op ops ih =>
    rw [List.foldlM_cons] at hf
    obtain ⟨t, ht, hf⟩ := Option.bind_eq_some_iff.mp hf
    exact ih (.next h trivial ht) hf

end Run

/-- Where every operation makes something smaller, no run is longer than that is at the start. -/
theorem length_le_of_foldlM {σ ι : Type*} {f : σ → ι → Option σ} {size : σ → Nat}
    (hlt : ∀ s op s', f s op = some s' → size s' < size s) {ops : List ι} {s s' : σ} (hf : ops.foldlM f s = some s') :
    ops.length + size s' ≤ size s := by
  induction ops generalizing s with
  | nil =>
    obtain rfl := Option.some.inj hf
    simp
  | cons op ops ih =>
    rw [List.foldlM_cons] at hf
    obtain ⟨t, ht, hf⟩ := Option.bind_eq_some_iff.mp hf
    have hop := hlt s op t ht
    have hops := ih hf
    rw [List.length_cons]
    omega
