import NvmeDem.Lib.Link

/-!
# Scripts

A script says what a program tells the far side and where it goes on after a failure, but not how a message gets there. Given how
one message is sent it is a program (`Script.run`); `Script.messages` are the messages that are sent when all goes well. What such
a program writes follows from what each of the messages writes (`Script.writes_run`).
-/

namespace Link

variable {ε σ ι μ α : Type}

/-- Go on in any case, and return what the first program returned. -/
def followedBy (p q : Prog ε σ) : Prog ε σ := fun s =>
  match p s with
  | .error e => .error e
  | .ok (ret, s') =>
    match q s' with
    | .error e => .error e
    | .ok (_, s'') => .ok (ret, s'')

theorem Writes.followedBy {write : σ → ι → σ} {calm : Prop} {p q : Prog ε σ} {fits fits' taken taken' : Prop}
    {items items' : List ι} (hp : Writes write calm p fits taken items) (hq : Writes write calm q fits' taken' items') :
    Writes write calm (Link.followedBy p q) (fits ∧ fits') (taken ∧ taken') (items ++ items') where
  returns := by
    intro hf s
    obtain ⟨ret, s', hs⟩ := hp.returns hf.1 s
    obtain ⟨ret', s'', hs'⟩ := hq.returns hf.2 s'
    exact ⟨ret, s'', by simp [Link.followedBy, hs, hs']⟩
  quiet := by
    intro s ret s' h hquiet
    unfold Link.followedBy at h
    split at h
    · cases h
    · rename_i ret₁ s₁ hs
      split at h
      · cases h
      · rename_i ret₂ s₂ hs'
        cases h
        obtain ⟨hq₁, hf', ht', -, hfar⟩ := hq.quiet hs' hquiet
        obtain ⟨hq₀, hf, ht, hr, hfar₁⟩ := hp.quiet hs hq₁
        exact ⟨hq₀, ⟨hf, hf'⟩, ⟨ht, ht'⟩, hr, by rw [hfar, hfar₁, List.foldl_append]⟩
  calm := by
    intro hcalm ht s ret s' h hquiet
    unfold Link.followedBy at h
    split at h
    · cases h
    · rename_i ret₁ s₁ hs
      split at h
      · cases h
      · rename_i ret₂ s₂ hs'
        cases h
        exact hq.calm hcalm ht.2 hs' (hp.calm hcalm ht.1 hs hquiet)

inductive Script (μ : Type) where
  | done
  | send (msg : μ)
  | andThen (p q : Script μ)
  | regardless (p q : Script μ)
  | followedBy (p q : Script μ)

namespace Script

def each (p : α → Script μ) : List α → Script μ
  | [] => done
  | a :: as => andThen (p a) (each p as)

def eachRegardless (p : α → Script μ) : List α → Script μ
  | [] => done
  | a :: as => regardless (p a) (eachRegardless p as)

/-- The program, given how a message is sent. -/
def run (send : μ → Prog ε σ) : Script μ → Prog ε σ
  | .done => Link.done
  | .send msg => send msg
  | .andThen p q => Link.andThen (p.run send) (q.run send)
  | .regardless p q => Link.regardless (p.run send) (q.run send)
  | .followedBy p q => Link.followedBy (p.run send) (q.run send)

/-- The messages of a script. -/
def messages : Script μ → List μ
  | .done => []
  | .send msg => [msg]
  | .andThen p q => p.messages ++ q.messages
  | .regardless p q => p.messages ++ q.messages
  | .followedBy p q => p.messages ++ q.messages

variable {p q : Script μ}

@[simp] theorem messages_done : (done : Script μ).messages = [] := rfl

@[simp] theorem messages_send (msg : μ) : (send msg).messages = [msg] := rfl

@[simp] theorem messages_andThen : (andThen p q).messages = p.messages ++ q.messages := rfl

@[simp] theorem messages_regardless : (regardless p q).messages = p.messages ++ q.messages := rfl

@[simp] theorem messages_followedBy : (followedBy p q).messages = p.messages ++ q.messages := rfl

@[simp] theorem messages_each (p : α → Script μ) (as : List α) : (each p as).messages = as.flatMap (fun a => (p a).messages) := by
  induction as with
  | nil => rfl
  | cons a as ih => rw [each, messages_andThen, ih, List.flatMap_cons]

@[simp] theorem messages_eachRegardless (p : α → Script μ) (as : List α) :
    (eachRegardless p as).messages = as.flatMap (fun a => (p a).messages) := by
  induction as with
  | nil => rfl
  | cons a as ih => rw [eachRegardless, messages_regardless, ih, List.flatMap_cons]

@[simp] theorem flatMap_nothing {β : Type} (as : List α) : as.flatMap (fun _ => ([] : List β)) = [] :=
  List.flatMap_eq_nil_iff.2 (fun _ _ => rfl)

/-- What is read of the messages of a script. -/
def filterMap {β : Type} (f : μ → Option β) (p : Script μ) : List β := p.messages.filterMap f

section

variable {β : Type} {f : μ → Option β}

@[simp] theorem filterMap_done : (done : Script μ).filterMap f = [] := rfl

@[simp] theorem filterMap_send (msg : μ) : (send msg).filterMap f = (f msg).toList := by
  cases h : f msg <;> simp [filterMap, h]

@[simp] theorem filterMap_andThen : (andThen p q).filterMap f = p.filterMap f ++ q.filterMap f := by simp [filterMap]

@[simp] theorem filterMap_regardless : (regardless p q).filterMap f = p.filterMap f ++ q.filterMap f := by simp [filterMap]

@[simp] theorem filterMap_followedBy : (followedBy p q).filterMap f = p.filterMap f ++ q.filterMap f := by simp [filterMap]

@[simp] theorem filterMap_eachRegardless (p : α → Script μ) (as : List α) :
    (eachRegardless p as).filterMap f = as.flatMap (fun a => (p a).filterMap f) := by
  induction as with
  | nil => rfl
  | cons a as ih => rw [eachRegardless, filterMap_regardless, ih, List.flatMap_cons]

end

/-- All messages of a script have a property. -/
def All (P : μ → Prop) (p : Script μ) : Prop := ∀ msg ∈ p.messages, P msg

section

variable {P : μ → Prop}

@[simp] theorem all_done : (done : Script μ).All P := by simp [All]

@[simp] theorem all_send (msg : μ) : (send msg).All P ↔ P msg := by simp [All]

@[simp] theorem all_andThen : (andThen p q).All P ↔ p.All P ∧ q.All P := by simp [All, or_imp, forall_and]

@[simp] theorem all_regardless : (regardless p q).All P ↔ p.All P ∧ q.All P := by simp [All, or_imp, forall_and]

@[simp] theorem all_followedBy : (followedBy p q).All P ↔ p.All P ∧ q.All P := by simp [All, or_imp, forall_and]

@[simp] theorem all_eachRegardless (p : α → Script μ) (as : List α) :
    (eachRegardless p as).All P ↔ ∀ a ∈ as, (p a).All P := by
  induction as with
  | nil => simp [eachRegardless]
  | cons a as ih => simp [eachRegardless, ih]

end

theorem run_eachRegardless (send : μ → Prog ε σ) (p : α → Script μ) (as : List α) :
    (eachRegardless p as).run send = Link.eachRegardless (fun a => (p a).run send) as := by
  induction as with
  | nil => rfl
  | cons a as ih => rw [eachRegardless, run, ih, Link.eachRegardless]

theorem run_each (send : μ → Prog ε σ) (p : α → Script μ) (as : List α) :
    (each p as).run send = Link.each (fun a => (p a).run send) as := by
  induction as with
  | nil => rfl
  | cons a as ih => rw [each, run, ih, Link.each]

/-- A program whose messages each write one record writes these records. -/
theorem writes_run {write : σ → ι → σ} {calm : Prop} {send : μ → Prog ε σ} {item : μ → ι}
    (h : ∀ msg ∈ p.messages, Writes write calm (send msg) True True [item msg]) :
    Writes write calm (p.run send) True True (p.messages.map item) := by
  induction p with
  | done => exact Writes.done
  | send msg => exact h msg List.mem_cons_self
  | andThen p q ihp ihq =>
    have hp := ihp (fun msg hm => h msg (List.mem_append_left _ hm))
    have hq := ihq (fun msg hm => h msg (List.mem_append_right _ hm))
    exact (hp.andThen hq).congr (by simp) (by simp) (by simp)
  | regardless p q ihp ihq =>
    have hp := ihp (fun msg hm => h msg (List.mem_append_left _ hm))
    have hq := ihq (fun msg hm => h msg (List.mem_append_right _ hm))
    exact (hp.regardless hq).congr (by simp) (by simp) (by simp)
  | followedBy p q ihp ihq =>
    have hp := ihp (fun msg hm => h msg (List.mem_append_left _ hm))
    have hq := ihq (fun msg hm => h msg (List.mem_append_right _ hm))
    exact (hp.followedBy hq).congr (by simp) (by simp) (by simp)

end Script

end Link
