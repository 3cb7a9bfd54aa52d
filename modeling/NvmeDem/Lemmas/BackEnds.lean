import NvmeDem.Dem.BackEnds
import NvmeDem.Lib.Total
import NvmeDem.Theorems.Watch

/-!
# A message over a link that does not fail

A message that comes out as it went in is one call of the back end, or two: in band a call that was refused is made once more, on a
new connection. So what a call makes of a far side is asked of it twice (`total_sendMessageTo`).
-/

namespace NvmeDem

namespace Push

open Link

variable {σ : Type} {ops : σ → OpsCall → Except Fault (Int × σ)} {w : Wire} {target : Target} {msg : Message}

theorem handleMiSendTo_eq (h : msg.ArrivesInb) (far : σ) :
    handleMiSendTo ops msg.inb far =
      (ops far msg.given).map (fun out => (if out.1 = 0 then 0 else accessDenied, out.2)) := by
  have hcall : miCall msg.inb = .ok msg.given := by
    rw [miCall_inb h.nqns, (inbCall_eq_given_iff h.ints).2 h.range]
  unfold handleMiSendTo
  rw [hcall]
  show (ops far msg.given >>= fun out => _) = _
  cases ops far msg.given <;> rfl

theorem handleRequestTo_eq (h : msg.ArrivesOob w target) (far : σ) :
    handleRequestTo ops w msg.oob (getUri target ++ msg.oob.path) far =
      (ops far msg.oobCall).map (fun out => (if out.1 = 0 then 0 else -einval, out.2)) := by
  have hout := outcome_oob h.names h.ints h.allowed h.reads.body
  unfold handleRequestTo
  rw [h.reads.uri]
  dsimp only
  rw [hout]
  show (ops far msg.oobCall >>= fun out => _) = _
  cases ops far msg.oobCall <;> rfl

theorem sendMessageTo_oob (hmode : target.mgmtMode = .outOfBandMgmt) (h : msg.ArrivesOob w target) :
    sendMessageTo ops w target msg = attempt w.net (handleRequestTo ops w msg.oob (getUri target ++ msg.oob.path)) := by
  have hurl : uriTo target msg.oob.path = .ok (getUri target ++ msg.oob.path) := if_pos h.uri
  funext s
  simp only [sendMessageTo, hmode, execOobTo, hurl]

section

variable {P : σ → Prop} {Q : Int → σ → Prop}

/-- What is left after a message: `P` is what its call is made in, again after it was refused. -/
theorem total_sendMessageTo (hnet : ∀ n, w.net n = 0) (h : msg.Arrives w target)
    (hops : ∀ far, P far → ∃ ret far', ops far (msg.call target.mgmtMode) = .ok (ret, far') ∧ (ret = 0 → Q 0 far') ∧
      (ret ≠ 0 → P far' ∧ ∀ r, r ≠ 0 → Q r far')) : Total (sendMessageTo ops w target msg) P Q := by
  obtain ⟨hmode, h⟩ | ⟨hmode, h⟩ := h
  · have hsend : sendMessageTo ops w target msg = sendSetConfigTo ops w msg.inb := by simp only [sendMessageTo, hmode]
    rw [hmode] at hops
    have hhandle : ∀ far, P far → ∃ ret far', handleMiSendTo ops msg.inb far = .ok (ret, far') ∧ (ret = 0 → Q 0 far') ∧
        (ret ≠ 0 → P far' ∧ Q ret far') := by
      intro far hP
      obtain ⟨ret, far', hrun, hzero, hrefused⟩ := hops far hP
      rw [handleMiSendTo_eq h, show ops far msg.given = .ok (ret, far') from hrun]
      by_cases hret : ret = 0
      · exact ⟨0, far', by rw [hret]; rfl, fun _ => hzero hret, fun hne => absurd rfl hne⟩
      · obtain ⟨hP', hQ'⟩ := hrefused hret
        have hne : accessDenied ≠ 0 := by decide
        refine ⟨accessDenied, far', ?_, fun h0 => absurd h0 hne, fun _ => ⟨hP', hQ' _ hne⟩⟩
        show Except.ok (if ret = 0 then 0 else accessDenied, far') = _
        rw [if_neg hret]
    have hagain : Total (reconnectAndSendTo ops w msg.inb) P Q := by
      refine Total.andThen (R := fun ret far => ret = 0 ∧ P far)
        (Total.attempt hnet (fun far hP => ⟨0, far, rfl, rfl, hP⟩)) ?_ (fun ret far hne hR => absurd hR.1 hne)
      refine Total.andThen (R := fun ret far => ret = 0 ∧ P far) (fun s hs => ⟨0, _, rfl, rfl, hs.2⟩) ?_
        (fun ret far hne hR => absurd hR.1 hne)
      refine Total.attempt hnet (fun far hP => ?_)
      obtain ⟨ret, far', hrun, hzero, hrefused⟩ := hhandle far hP.2
      refine ⟨ret, far', hrun, ?_⟩
      by_cases hret : ret = 0
      · subst hret
        exact hzero rfl
      · exact (hrefused hret).2
    rw [hsend]
    intro s hs
    unfold sendSetConfigTo
    by_cases hc : s.connected = true
    · obtain ⟨ret, s', hrun, hpost⟩ := Total.attempt (Q := fun ret far' => (ret = 0 → Q 0 far') ∧ (ret ≠ 0 → P far' ∧ Q ret far'))
        hnet hhandle s hs
      rw [if_pos hc, sendMiSendTo, hrun]
      dsimp only
      by_cases hret : ret = 0
      · rw [if_pos hret]
        exact ⟨0, s', rfl, hpost.1 hret⟩
      · rw [if_neg hret]
        exact hagain { s' with connected := false } (hpost.2 hret).1
    · rw [if_neg hc]
      exact hagain s hs
  · rw [hmode] at hops
    rw [sendMessageTo_oob hmode h]
    refine Total.attempt hnet (fun far hP => ?_)
    obtain ⟨ret, far', hrun, hzero, hrefused⟩ := hops far hP
    rw [handleRequestTo_eq h, show ops far msg.oobCall = .ok (ret, far') from hrun]
    by_cases hret : ret = 0
    · exact ⟨0, far', by rw [hret]; rfl, hzero hret⟩
    · refine ⟨-einval, far', ?_, (hrefused hret).2 _ (by decide)⟩
      show Except.ok (if ret = 0 then 0 else -einval, far') = _
      rw [if_neg hret]

/-- A call that the back end does not return from. -/
theorem faults_sendMessageTo (hnet : ∀ n, w.net n = 0) (h : msg.Arrives w target)
    (hops : ∀ far, P far → ∃ f, ops far (msg.call target.mgmtMode) = .error f) : Faults (sendMessageTo ops w target msg) P := by
  obtain ⟨hmode, h⟩ | ⟨hmode, h⟩ := h
  · have hsend : sendMessageTo ops w target msg = sendSetConfigTo ops w msg.inb := by simp only [sendMessageTo, hmode]
    rw [hmode] at hops
    have hmi : Faults (sendMiSendTo ops w msg.inb) P := by
      refine Faults.attempt hnet (fun far hP => ?_)
      obtain ⟨f, hrun⟩ := hops far hP
      exact ⟨f, by rw [handleMiSendTo_eq h, show ops far msg.given = .error f from hrun]; rfl⟩
    have hagain : Faults (reconnectAndSendTo ops w msg.inb) P := by
      intro s hs
      obtain ⟨f, hrun⟩ := hmi { s with connected := true, results := s.results ++ [0] } hs
      refine ⟨f, ?_⟩
      simp only [reconnectAndSendTo, Link.andThen, Link.attempt, if_pos (hnet _), if_true]
      exact hrun
    rw [hsend]
    intro s hs
    unfold sendSetConfigTo
    by_cases hc : s.connected = true
    · obtain ⟨f, hrun⟩ := hmi s hs
      exact ⟨f, by rw [if_pos hc, hrun]⟩
    · rw [if_neg hc]
      exact hagain s hs
  · rw [hmode] at hops
    rw [sendMessageTo_oob hmode h]
    refine Faults.attempt hnet (fun far hP => ?_)
    obtain ⟨f, hrun⟩ := hops far hP
    exact ⟨f, by rw [handleRequestTo_eq h, show ops far msg.oobCall = .error f from hrun]; rfl⟩

end

end Push

end NvmeDem
