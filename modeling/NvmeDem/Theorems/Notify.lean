import NvmeDem.Ac.Protocol

/-!
# No change is lost

A completion that the client takes for the answer to something else does no harm, because what it then waits for too little
arrives while it is idle, and makes it read the log once more. The argument counts: what the host has armed at the daemon, what it
is arming, and the completions that are under way beyond the one the client waits for, make a sum that only the client's own steps
change (`AcInv.balance`). When nothing is under way beyond what the client waits for, the two are in step, and the client has or is
getting the log as it is (`AcInv.fresh`); and then the sum says that a request is armed, so that the next change of the log puts a
completion under way.
-/

namespace NvmeDem

/-- The requests that the host has left, by the time the client waits in a phase, less those whose answer made it read the
log. -/
def Phase.budget : Phase → Nat
  | .getFeatures | .setFeatures => 0
  | .asyncEvent | .count | .pages _ _ => 1
  | .rearm | .idle | .keepAlive => 2

/-- The completions that a client in a phase waits for. -/
def Phase.waits : Phase → Nat
  | .idle => 0
  | _ => 1

/-- The command whose answer a client in a phase waits for; `tag` is its last log page command. -/
def Phase.own (tag : Nat) : Phase → Option Command
  | .getFeatures => some .getFeatures
  | .setFeatures => some .setFeatures
  | .asyncEvent | .rearm => some .asyncEvent
  | .count => some (.getLogPageCount tag)
  | .pages _ numrec => some (.getLogPages tag numrec)
  | .keepAlive => some .keepAlive
  | .idle => none

/-- The client keeps the log that the daemon would give it. -/
def UpToDate (nqn : String) (lists : Lists) (cache : List AcSubsystem) : Prop :=
  ∃ entries, handleGetLogPages lists nqn = .ok entries ∧
    ∀ key, key ∈ cachedKeys cache ↔ key ∈ (entries.map LogEntry.trim).map LogEntry.key

/-- What a client that is in step with the daemon has of the log, or is about to have. -/
def AcSystem.Fresh (nqn : String) (s : AcSystem) : Prop :=
  match s.phase with
  | .getFeatures => s.cmds = [] → ∀ rsp ∈ s.rsps, rsp.result ≠ 0
  | .setFeatures | .asyncEvent => True
  | .count => s.cmds = [] → ∃ entries, handleGetLogPages s.lists nqn = .ok entries ∧
      s.buf = { genctr := 1, numrec := entries.length, entries := [] }
  | .pages genctr numrec => genctr = 1 ∧ ∃ entries, handleGetLogPages s.lists nqn = .ok entries ∧
      numrec = entries.length ∧
      (s.cmds = [] → s.buf = { genctr := 1, numrec := entries.length, entries := entries.take numrec })
  | .rearm | .idle | .keepAlive => UpToDate nqn s.lists s.cache

structure AcInv (nqn : String) (s : AcSystem) : Prop where
  balance : s.lists.aenReqList.count nqn + s.cmds.count .asyncEvent + (s.cmds.length + s.rsps.length) =
    s.phase.budget + s.phase.waits
  pending : s.phase.waits ≤ s.cmds.length + s.rsps.length
  own : s.cmds.length + s.rsps.length = s.phase.waits → ∀ cmd ∈ s.cmds, s.phase.own s.tag = some cmd
  fresh : s.cmds.length + s.rsps.length = s.phase.waits → s.Fresh nqn

namespace NotifyAux

variable {nqn : String} {s s' : AcSystem}

theorem connected_inv (h : Connected nqn s) : AcInv nqn s where
  balance := by simp [h.phase, h.cmds, h.rsps, h.reqs, Phase.budget, Phase.waits]
  pending := by simp [h.phase, h.cmds, h.rsps, Phase.waits]
  own := by simp [h.phase, h.cmds, Phase.own]
  fresh := by simp [AcSystem.Fresh, h.phase, h.cmds]

/-! ## The daemon's steps -/

/-- In step, a client that wants the log has a request armed. -/
theorem armed_of_inStep (h : AcInv nqn s) (hstep : s.cmds.length + s.rsps.length = s.phase.waits)
    (hphase : s.phase ≠ .getFeatures ∧ s.phase ≠ .setFeatures ∧ s.phase ≠ .asyncEvent) :
    0 < s.lists.aenReqList.count nqn := by
  have hb := h.balance
  have ho := h.own hstep
  have hreq : s.cmds.count .asyncEvent ≤ s.cmds.length := List.count_le_length
  have hnone (hown : s.phase.own s.tag ≠ some .asyncEvent) : s.cmds.count .asyncEvent = 0 :=
    List.count_eq_zero.mpr (fun hm => hown (ho _ hm))
  cases hp : s.phase with
  | getFeatures => exact absurd hp hphase.1
  | setFeatures => exact absurd hp hphase.2.1
  | asyncEvent => exact absurd hp hphase.2.2
  | count | pages =>
    have h0 := hnone (by simp [hp, Phase.own])
    rw [hp] at hb hstep
    simp only [Phase.budget, Phase.waits] at hb hstep
    omega
  | rearm | idle | keepAlive =>
    rw [hp] at hb hstep
    simp only [Phase.budget, Phase.waits] at hb hstep
    omega

theorem event_inv (h : AcInv nqn s) (lists : Lists) {subsys : Subsystem} (hopen : subsys.isRestricted = false) :
    AcInv nqn (s.event nqn lists subsys) := by
  obtain ⟨htold, hleft⟩ := notify_open hopen s.lists.aenReqList nqn
  have hb := h.balance
  have hpend := h.pending
  by_cases hreq : nqn ∈ s.lists.aenReqList
  · -- A completion goes under way, so that the two are not in step any more.
    rw [if_pos hreq] at htold
    rw [htold] at hleft
    have hlen : (s.event nqn lists subsys).cmds.length + (s.event nqn lists subsys).rsps.length =
        s.cmds.length + s.rsps.length + 1 := by
      simp [AcSystem.event, htold, Nat.add_assoc]
    have hphase : (s.event nqn lists subsys).phase = s.phase := rfl
    refine { balance := ?_, pending := ?_, own := ?_, fresh := ?_ }
    · rw [hlen, hphase, ← hb, ← hleft]
      simp only [AcSystem.event]
      omega
    · rw [hlen, hphase]
      omega
    · rw [hlen, hphase]
      omega
    · rw [hlen, hphase]
      omega
  · rw [if_neg hreq] at htold
    rw [htold] at hleft
    have hcount : s.lists.aenReqList.count nqn = 0 := List.count_eq_zero.mpr hreq
    have hrsps : (s.event nqn lists subsys).rsps = s.rsps := by simp [AcSystem.event, htold]
    refine { balance := ?_, pending := ?_, own := ?_, fresh := ?_ }
    · rw [hrsps]
      simp only [AcSystem.event]
      omega
    · rw [hrsps]
      exact hpend
    · rw [hrsps]
      exact h.own
    · rw [hrsps]
      intro hstep
      have hf := h.fresh hstep
      have hearly : s.phase = .getFeatures ∨ s.phase = .setFeatures ∨ s.phase = .asyncEvent := by
        by_contra hne
        have := armed_of_inStep h hstep (by tauto)
        omega
      rcases hearly with hp | hp | hp
      · simpa [AcSystem.Fresh, AcSystem.event, hp, htold] using hf
      · simp [AcSystem.Fresh, AcSystem.event, hp]
      · simp [AcSystem.Fresh, AcSystem.event, hp]

theorem arm_inv (h : AcInv nqn s) {other : String} (hne : other ≠ nqn) :
    AcInv nqn { s with lists := { s.lists with aenReqList := other :: s.lists.aenReqList } } where
  balance := by simpa [List.count_cons_of_ne hne] using h.balance
  pending := h.pending
  own := h.own
  fresh := h.fresh

/-- What a command that is handled adds to the requests of the host, and takes from those under way. -/
theorem handleRequest_reqs {lists lists' : Lists} {cmd : Command} {rsp : Completion} {data : Option (Nat × LogHdr)}
    (h : handleRequest lists nqn cmd = .ok (lists', rsp, data)) :
    lists'.aenReqList.count nqn = lists.aenReqList.count nqn + (if cmd = .asyncEvent then 1 else 0) ∧
      handleGetLogPages lists' nqn = handleGetLogPages lists nqn := by
  cases cmd with
  | asyncEvent =>
    simp only [handleRequest, Except.ok.injEq, Prod.mk.injEq] at h
    obtain ⟨rfl, -, -⟩ := h
    exact ⟨by simp, rfl⟩
  | getLogPageCount tag =>
    obtain ⟨n, -, h⟩ := bind_eq_ok h
    simp only [pure, Except.pure, Except.ok.injEq, Prod.mk.injEq] at h
    obtain ⟨rfl, -, -⟩ := h
    exact ⟨by simp, rfl⟩
  | getLogPages tag numrec =>
    obtain ⟨es, -, h⟩ := bind_eq_ok h
    simp only [pure, Except.pure, Except.ok.injEq, Prod.mk.injEq] at h
    obtain ⟨rfl, -, -⟩ := h
    exact ⟨by simp, rfl⟩
  | _ =>
    simp only [handleRequest, Except.ok.injEq, Prod.mk.injEq] at h
    obtain ⟨rfl, -, -⟩ := h
    exact ⟨by simp, rfl⟩

/-- What a log page command is answered with. -/
theorem handleRequest_count {lists lists' : Lists} {tag : Nat} {rsp : Completion} {data : Option (Nat × LogHdr)}
    (h : handleRequest lists nqn (.getLogPageCount tag) = .ok (lists', rsp, data)) :
    ∃ entries, handleGetLogPages lists nqn = .ok entries ∧
      data = some (tag, { genctr := 1, numrec := entries.length, entries := [] }) := by
  obtain ⟨n, hn, h⟩ := bind_eq_ok h
  rw [handleGetLogPageCount_eq] at hn
  simp only [pure, Except.pure, Except.ok.injEq, Prod.mk.injEq] at h
  cases he : handleGetLogPages lists nqn with
  | error f => simp [he, Except.map] at hn
  | ok entries =>
    simp only [he, Except.map, Except.ok.injEq] at hn
    exact ⟨entries, rfl, by rw [← h.2.2, hn]⟩

theorem handleRequest_pages {lists lists' : Lists} {tag numrec : Nat} {rsp : Completion} {data : Option (Nat × LogHdr)}
    (h : handleRequest lists nqn (.getLogPages tag numrec) = .ok (lists', rsp, data)) :
    ∃ entries, handleGetLogPages lists nqn = .ok entries ∧
      data = some (tag, { genctr := 1, numrec := entries.length, entries := entries.take numrec }) := by
  obtain ⟨entries, he, h⟩ := bind_eq_ok h
  simp only [pure, Except.pure, Except.ok.injEq, Prod.mk.injEq] at h
  exact ⟨entries, he, h.2.2.symm⟩

/-- A write changes the buffer and nothing else. -/
theorem write_eq (s : AcSystem) (data : Option (Nat × LogHdr)) : s.write data = { s with buf := (s.write data).buf } := by
  unfold AcSystem.write
  split
  · split <;> rfl
  · rfl

@[simp] theorem write_lists (s : AcSystem) (data : Option (Nat × LogHdr)) : (s.write data).lists = s.lists := by
  rw [write_eq]

@[simp] theorem write_cmds (s : AcSystem) (data : Option (Nat × LogHdr)) : (s.write data).cmds = s.cmds := by
  rw [write_eq]

@[simp] theorem write_rsps (s : AcSystem) (data : Option (Nat × LogHdr)) : (s.write data).rsps = s.rsps := by
  rw [write_eq]

@[simp] theorem write_phase (s : AcSystem) (data : Option (Nat × LogHdr)) : (s.write data).phase = s.phase := by
  rw [write_eq]

@[simp] theorem write_tag (s : AcSystem) (data : Option (Nat × LogHdr)) : (s.write data).tag = s.tag := by
  rw [write_eq]

@[simp] theorem write_cache (s : AcSystem) (data : Option (Nat × LogHdr)) : (s.write data).cache = s.cache := by
  rw [write_eq]

/-- The client's own command is handled: its answer is on the way, and the data is in the buffer. -/
theorem serve_fresh {cmd : Command} {lists : Lists} {rsp : Completion} {data : Option (Nat × LogHdr)}
    (hf : s.Fresh nqn) (hown : s.phase.own s.tag = some cmd)
    (h : handleRequest s.lists nqn cmd = .ok (lists, rsp, data)) (hrsps : s.rsps = []) :
    ({ s with lists := lists, cmds := [], rsps := s.rsps ++ [rsp] }.write data).Fresh nqn := by
  have hsame := (handleRequest_reqs h).2
  cases hp : s.phase with
  | getFeatures =>
    rw [hp, Phase.own, Option.some.injEq] at hown
    subst hown
    simp only [handleRequest, Except.ok.injEq, Prod.mk.injEq] at h
    simp [AcSystem.Fresh, hrsps, ← h.2.1, nvmeAerNoticeLogPageChange]
  | setFeatures => simp [AcSystem.Fresh]
  | asyncEvent => simp [AcSystem.Fresh]
  | count =>
    rw [hp, Phase.own, Option.some.injEq] at hown
    subst hown
    obtain ⟨entries, he, rfl⟩ := handleRequest_count h
    simp only [AcSystem.Fresh, write_phase, write_lists, hsame]
    exact fun _ => ⟨entries, he, by simp [AcSystem.write]⟩
  | pages genctr numrec =>
    rw [hp, Phase.own, Option.some.injEq] at hown
    subst hown
    obtain ⟨entries, he, rfl⟩ := handleRequest_pages h
    simp only [AcSystem.Fresh, hp] at hf
    obtain ⟨hg, entries', he', hn, -⟩ := hf
    rw [he, Except.ok.injEq] at he'
    subst he'
    simp only [AcSystem.Fresh, write_phase, write_lists, hsame]
    exact ⟨hg, entries, he, hn, fun _ => by simp [AcSystem.write]⟩
  | rearm | idle | keepAlive =>
    simp only [AcSystem.Fresh, hp, UpToDate] at hf
    simpa [AcSystem.Fresh, hp, UpToDate, hsame] using hf

theorem serve_inv (h : AcInv nqn s) (hs : s.serve nqn = .ok (some s')) : AcInv nqn s' := by
  unfold AcSystem.serve at hs
  split at hs
  · cases hs
  · rename_i cmd cmds hcmds
    obtain ⟨⟨lists, rsp, data⟩, hreq, hs⟩ := bind_eq_ok hs
    simp only [pure, Except.pure, Except.ok.injEq, Option.some.injEq] at hs
    subst hs
    obtain ⟨hcount, -⟩ := handleRequest_reqs hreq
    have hb := h.balance
    have hpend := h.pending
    rw [hcmds, List.length_cons] at hb hpend
    have hone : s.phase.waits ≤ 1 := by cases s.phase <;> simp [Phase.waits]
    -- In step, the command that is handled is the one the client waits for, and the only one.
    have hin (hstep : cmds.length + (s.rsps.length + 1) = s.phase.waits) :
        cmds = [] ∧ s.rsps = [] ∧ s.phase.own s.tag = some cmd ∧ s.Fresh nqn := by
      have hlen : s.cmds.length + s.rsps.length = s.phase.waits := by
        rw [hcmds, List.length_cons]
        omega
      refine ⟨List.length_eq_zero_iff.mp (by omega), List.length_eq_zero_iff.mp (by omega), ?_, h.fresh hlen⟩
      exact h.own hlen cmd (by rw [hcmds]; exact List.mem_cons_self)
    refine { balance := ?_, pending := ?_, own := ?_, fresh := ?_ }
    · simp only [write_lists, write_cmds, write_rsps, write_phase, List.length_append, List.length_cons, List.length_nil]
      rw [hcount]
      rw [List.count_cons] at hb
      simp only [beq_iff_eq] at hb
      omega
    · simp only [write_cmds, write_rsps, write_phase, List.length_append, List.length_cons, List.length_nil]
      omega
    · simp only [write_cmds, write_rsps, write_phase, write_tag, List.length_append, List.length_cons, List.length_nil]
      intro hstep
      obtain ⟨hnil, -⟩ := hin (by omega)
      simp [hnil]
    · simp only [write_cmds, write_rsps, write_phase, List.length_append, List.length_cons, List.length_nil]
      intro hstep
      obtain ⟨rfl, hrsps, hown, hf⟩ := hin (by omega)
      exact serve_fresh hf hown hreq hrsps

/-! ## The client's steps -/

/-- A client that has taken a completion goes on with a command of its own (`t`): as much is under way as before. -/
theorem goOn_inv {cmd : Command} {t : AcSystem}
    (hb : s.lists.aenReqList.count nqn + s.cmds.count .asyncEvent + (s.cmds.length + s.rsps.length) +
      (if cmd = .asyncEvent then 1 else 0) = t.phase.budget)
    (hlists : t.lists = s.lists) (hcmds : t.cmds = s.cmds ++ [cmd]) (hrsps : t.rsps = s.rsps)
    (hwaits : t.phase.waits = 1) (hown : t.phase.own t.tag = some cmd)
    (hfresh : s.cmds = [] → s.rsps = [] → t.Fresh nqn) : AcInv nqn t := by
  have hlen : t.cmds.length = s.cmds.length + 1 := by simp [hcmds]
  refine { balance := ?_, pending := ?_, own := ?_, fresh := ?_ }
  · rw [hlen, hlists, hcmds, hrsps, hwaits, ← hb, List.count_append]
    simp only [List.count_singleton, beq_iff_eq]
    omega
  · omega
  · intro hstep
    rw [hlen, hwaits] at hstep
    have hnil : s.cmds = [] := List.length_eq_zero_iff.mp (by omega)
    rw [hcmds, hnil, List.nil_append]
    intro c hc
    obtain rfl := List.mem_singleton.mp hc
    exact hown
  · intro hstep
    rw [hlen, hrsps, hwaits] at hstep
    exact hfresh (List.length_eq_zero_iff.mp (by omega)) (List.length_eq_zero_iff.mp (by omega))

theorem fetch_inv (hb : s.lists.aenReqList.count nqn + s.cmds.count .asyncEvent + (s.cmds.length + s.rsps.length) = 1) :
    AcInv nqn s.fetchLogPages := by
  refine goOn_inv (s := s) ?_ rfl rfl rfl rfl rfl ?_
  · simpa [AcSystem.fetchLogPages, AcSystem.sendGetLogPage, Phase.budget] using hb
  · intro _ _
    simp [AcSystem.Fresh, AcSystem.fetchLogPages, AcSystem.sendGetLogPage]

section

/- The client has taken `rsp`, the first of the completions. -/
variable {rsp : Completion} (h : AcInv nqn { s with rsps := rsp :: s.rsps })

include h

theorem taken_balance : s.lists.aenReqList.count nqn + s.cmds.count .asyncEvent + (s.cmds.length + s.rsps.length) + 1 =
    s.phase.budget + s.phase.waits := by
  have hb := h.balance
  simp only [List.length_cons] at hb
  omega

/-- With nothing else under way, the client and the daemon were in step. -/
theorem taken_fresh (hwaits : s.phase.waits = 1) (hc : s.cmds = []) (hr : s.rsps = []) :
    AcSystem.Fresh nqn { s with rsps := rsp :: s.rsps } := by
  apply h.fresh
  simp [hwaits, hc, hr]

/-- The end of an update leaves the client up to date if it was in step. -/
theorem endUpdates_inv (hwaits : s.phase.waits = 1) (hbudget : s.phase.budget = 1)
    (dirs : List (Option (List KernelCtrl))) (cache : List AcSubsystem)
    (hcache : AcSystem.Fresh nqn { s with rsps := rsp :: s.rsps } → s.cmds = [] →
      UpToDate nqn s.lists (cleanupLogPages (markConnectedSubsystems dirs cache))) :
    AcInv nqn (s.endUpdates dirs cache) := by
  have hb := taken_balance h
  rw [hwaits, hbudget] at hb
  refine goOn_inv (s := s) ?_ rfl rfl rfl rfl rfl ?_
  · simp only [AcSystem.endUpdates, AcSystem.send, Phase.budget, if_true]
    omega
  · intro hc hr
    exact hcache (taken_fresh h hwaits hc hr) hc

theorem complete_features (hp : s.phase = .getFeatures) (dirs : List (Option (List KernelCtrl))) :
    AcInv nqn (AcSystem.complete dirs rsp s) := by
  have hb := taken_balance h
  rw [hp] at hb
  simp only [Phase.budget, Phase.waits] at hb
  have hc : s.cmds = [] := List.length_eq_zero_iff.mp (by omega)
  have hf := taken_fresh h (by rw [hp]; rfl) hc (List.length_eq_zero_iff.mp (by omega))
  simp only [AcSystem.Fresh, hp] at hf
  have hres : rsp.result ≠ 0 := hf hc rsp List.mem_cons_self
  have hnext : AcSystem.complete dirs rsp s = s.send .setFeatures .setFeatures := by simp [AcSystem.complete, hp, hres]
  rw [hnext]
  refine goOn_inv (s := s) ?_ rfl rfl rfl rfl rfl (fun _ _ => trivial)
  simp only [AcSystem.send, Phase.budget, reduceCtorEq, if_false]
  omega

theorem complete_set (hp : s.phase = .setFeatures) (dirs : List (Option (List KernelCtrl))) :
    AcInv nqn (AcSystem.complete dirs rsp s) := by
  have hb := taken_balance h
  rw [hp] at hb
  simp only [Phase.budget, Phase.waits] at hb
  have hnext : AcSystem.complete dirs rsp s = s.send .asyncEvent .asyncEvent := by simp [AcSystem.complete, hp]
  rw [hnext]
  refine goOn_inv (s := s) ?_ rfl rfl rfl rfl rfl (fun _ _ => trivial)
  simp only [AcSystem.send, Phase.budget, if_true]
  omega

theorem complete_count (hp : s.phase = .count) (dirs : List (Option (List KernelCtrl))) :
    AcInv nqn (AcSystem.complete dirs rsp s) := by
  have hb := taken_balance h
  rw [hp] at hb
  simp only [Phase.budget, Phase.waits] at hb
  by_cases hzero : s.buf.numrec = 0
  · have hnext : AcSystem.complete dirs rsp s = s.endUpdates dirs (saveLogPages [] (invalidateLogPages s.cache)) := by
      simp [AcSystem.complete, hp, hzero]
    rw [hnext]
    refine endUpdates_inv h (by rw [hp]; rfl) (by rw [hp]; rfl) dirs _ ?_
    intro hf hc
    simp only [AcSystem.Fresh, hp] at hf
    obtain ⟨entries, he, hbuf⟩ := hf hc
    have hnil : entries = [] := by
      rw [hbuf] at hzero
      exact List.length_eq_zero_iff.mp hzero
    subst hnil
    exact ⟨[], he, fun key => mem_cachedKeys_update dirs [] s.cache key⟩
  · have hnext : AcSystem.complete dirs rsp s =
        s.sendGetLogPage (fun tag => .getLogPages tag s.buf.numrec) (.pages s.buf.genctr s.buf.numrec) := by
      simp [AcSystem.complete, hp, hzero]
    rw [hnext]
    refine goOn_inv (s := s) ?_ rfl rfl rfl rfl rfl ?_
    · simp only [AcSystem.sendGetLogPage, Phase.budget, reduceCtorEq, if_false]
      omega
    · intro hc hr
      have hf := taken_fresh h (by rw [hp]; rfl) hc hr
      simp only [AcSystem.Fresh, hp] at hf
      obtain ⟨entries, he, hbuf⟩ := hf hc
      simp only [AcSystem.Fresh, AcSystem.sendGetLogPage, hbuf, true_and]
      exact ⟨entries, he, rfl, by simp⟩

theorem complete_pages {genctr numrec : Nat} (hp : s.phase = .pages genctr numrec)
    (dirs : List (Option (List KernelCtrl))) : AcInv nqn (AcSystem.complete dirs rsp s) := by
  by_cases hbad : numrec ≠ s.buf.numrec ∨ genctr ≠ s.buf.genctr
  · have hnext : AcSystem.complete dirs rsp s = s.endUpdates dirs s.cache := by simp [AcSystem.complete, hp, hbad]
    rw [hnext]
    refine endUpdates_inv h (by rw [hp]; rfl) (by rw [hp]; rfl) dirs _ ?_
    intro hf hc
    -- In step, the log has as many entries as the count said.
    simp only [AcSystem.Fresh, hp] at hf
    obtain ⟨hg, entries, he, hn, hbuf⟩ := hf
    rw [hbuf hc] at hbad
    rcases hbad with hbad | hbad
    · exact absurd hn hbad
    · exact absurd hg hbad
  · have hnext : AcSystem.complete dirs rsp s =
        s.endUpdates dirs (saveLogPages (s.buf.entries.map LogEntry.trim) (invalidateLogPages s.cache)) := by
      simp only [AcSystem.complete, hp, if_neg hbad]
    rw [hnext]
    refine endUpdates_inv h (by rw [hp]; rfl) (by rw [hp]; rfl) dirs _ ?_
    intro hf hc
    simp only [AcSystem.Fresh, hp] at hf
    obtain ⟨hg, entries, he, hn, hbuf⟩ := hf
    refine ⟨entries, he, fun key => ?_⟩
    rw [mem_cachedKeys_update, hbuf hc, hn, List.take_length]

/-- A client that waits for the answer to a request or to a keep-alive is idle after it. -/
theorem complete_idle (hp : s.phase = .rearm ∨ s.phase = .keepAlive) (dirs : List (Option (List KernelCtrl))) :
    AcInv nqn (AcSystem.complete dirs rsp s) := by
  have hb := taken_balance h
  have hnext : AcSystem.complete dirs rsp s = { s with phase := .idle } := by
    rcases hp with hp | hp <;> simp [AcSystem.complete, hp]
  have hphase : s.phase.budget = 2 ∧ s.phase.waits = 1 := by
    rcases hp with hp | hp <;> simp [hp, Phase.budget, Phase.waits]
  rw [hnext]
  refine { balance := ?_, pending := ?_, own := ?_, fresh := ?_ }
  · simp only [Phase.budget, Phase.waits]
    omega
  · simp [Phase.waits]
  · intro hstep
    simp only [Phase.waits] at hstep
    have hc : s.cmds = [] := List.length_eq_zero_iff.mp (by omega)
    simp [hc]
  · intro hstep
    simp only [Phase.waits] at hstep
    have hf := taken_fresh h hphase.2 (List.length_eq_zero_iff.mp (by omega)) (List.length_eq_zero_iff.mp (by omega))
    rcases hp with hp | hp
    · simpa only [AcSystem.Fresh, hp] using hf
    · simpa only [AcSystem.Fresh, hp] using hf

theorem complete_inv (dirs : List (Option (List KernelCtrl))) : AcInv nqn (AcSystem.complete dirs rsp s) := by
  have hb := taken_balance h
  cases hp : s.phase with
  | getFeatures => exact complete_features h hp dirs
  | setFeatures => exact complete_set h hp dirs
  | count => exact complete_count h hp dirs
  | pages genctr numrec => exact complete_pages h hp dirs
  | rearm => exact complete_idle h (Or.inl hp) dirs
  | keepAlive => exact complete_idle h (Or.inr hp) dirs
  | asyncEvent | idle =>
    have hnext : AcSystem.complete dirs rsp s = s.fetchLogPages := by simp [AcSystem.complete, hp]
    rw [hnext]
    refine fetch_inv ?_
    rw [hp] at hb
    simp only [Phase.budget, Phase.waits] at hb
    omega

end

theorem receive_inv (h : AcInv nqn s) {dirs : List (Option (List KernelCtrl))} (hs : s.receive dirs = some s') :
    AcInv nqn s' := by
  unfold AcSystem.receive at hs
  split at hs
  · cases hs
  · rename_i rsp rsps hrsps
    obtain rfl := Option.some.inj hs
    refine complete_inv (?_ : AcInv nqn { s with rsps := rsp :: rsps }) dirs
    rwa [← hrsps]

theorem keepAlive_inv (h : AcInv nqn s) (hp : s.phase = .idle) : AcInv nqn (s.send .keepAlive .keepAlive) := by
  have hb := h.balance
  rw [hp] at hb
  simp only [Phase.budget, Phase.waits] at hb
  refine goOn_inv (s := s) ?_ rfl rfl rfl rfl rfl ?_
  · simpa [AcSystem.send, Phase.budget] using hb
  · intro hc hr
    have hf := h.fresh (by simp [hc, hr, hp, Phase.waits])
    simp only [AcSystem.Fresh, hp] at hf
    exact hf

/-- Every step keeps the sum, and keeps the client in step or lets it know. -/
theorem step_inv {op : AcOp} (h : AcInv nqn s) (hs : acStep nqn op s s') : AcInv nqn s' := by
  unfold acStep at hs
  cases op with
  | serve =>
    simp only [AcOp.run] at hs
    split at hs
    · rename_i hserve
      rw [hs] at hserve
      exact serve_inv h hserve
    · cases hs
  | event lists subsys =>
    simp only [AcOp.run] at hs
    split at hs
    · cases hs
    · rename_i hopen
      obtain rfl := Option.some.inj hs
      exact event_inv h lists (Bool.eq_false_iff.mpr hopen)
  | arm other =>
    simp only [AcOp.run] at hs
    split at hs
    · cases hs
    · rename_i hne
      obtain rfl := Option.some.inj hs
      exact arm_inv h hne
  | receive dirs => exact receive_inv h hs
  | keepAlive =>
    simp only [AcOp.run] at hs
    split at hs
    · rename_i hp
      obtain rfl := Option.some.inj hs
      exact keepAlive_inv h hp
    · cases hs

end NotifyAux

open NotifyAux

/-- Whatever the order of changes, commands and completions: an idle client with nothing under way keeps the log pages that the
daemon would give it. -/
theorem idle_client_up_to_date {nqn : String} {s₀ s : AcSystem} (h₀ : Connected nqn s₀) (h : AcRun nqn s₀ s)
    (hidle : s.phase = .idle) (hcmds : s.cmds = []) (hrsps : s.rsps = []) :
    ∃ entries, handleGetLogPages s.lists nqn = .ok entries ∧
      ∀ key, key ∈ cachedKeys s.cache ↔ key ∈ (entries.map LogEntry.trim).map LogEntry.key := by
  have hinv : AcInv nqn s := h.invariant (connected_inv h₀) (fun _ _ _ hi _ hs => step_inv hi hs)
  have hf := hinv.fresh (by simp [hcmds, hrsps, hidle, Phase.waits])
  simpa only [AcSystem.Fresh, hidle, UpToDate] using hf

def onePage : LogEntry := { trtype := 1, adrfam := 1, subnqn := "nqn.s", traddr := "10.0.0.1", trsvcid := "4420" }

/-- Lists with one open subsystem, which has one log page. -/
def oneOpen (reqs : List String) : Lists where
  targetList := [{ ptr := 0, name := "t", subsysList := [{ nqn := "nqn.s", access := 1, logpageList := [⟨0, onePage, true⟩] }] }]
  aenReqList := reqs

def justConnected : AcSystem where
  lists := {}
  cmds := [.getFeatures]
  rsps := []
  phase := .getFeatures
  tag := 0
  buf := LogHdr.zero
  cache := []

/-- A run in which the log changes between the request and the count: the client takes the notification for the count, and reads
the log again when the rest of the completions reaches it. -/
def lateChange : List AcOp :=
  [.serve, .receive [], .serve, .receive [], .serve, .receive [], .event (oneOpen []) { nqn := "nqn.s", access := 1 },
   .serve, .receive [], .serve, .receive [], .serve, .receive [], .receive [], .serve, .receive [], .serve, .receive [],
   .serve, .receive []]

def afterLateChange : AcSystem where
  lists := oneOpen ["nqn.h", "nqn.h"]
  cmds := []
  rsps := []
  phase := .idle
  tag := 4
  buf := { genctr := 1, numrec := 1, entries := [onePage] }
  cache := [{ nqn := "nqn.s", logpageList := [{ e := onePage, valid := .valid }] }]

theorem idle_client_up_to_date_late :
    lateChange.foldlM (AcOp.run "nqn.h") justConnected = some afterLateChange ∧
      ∃ entries, handleGetLogPages afterLateChange.lists "nqn.h" = .ok entries ∧
        ∀ key, key ∈ cachedKeys afterLateChange.cache ↔ key ∈ (entries.map LogEntry.trim).map LogEntry.key := by
  have hrun : lateChange.foldlM (AcOp.run "nqn.h") justConnected = some afterLateChange := by decide
  refine ⟨hrun, idle_client_up_to_date (?_ : Connected _ justConnected) (Run.of_foldlM .start hrun) rfl rfl rfl⟩
  exact { phase := rfl, cmds := rfl, rsps := rfl, reqs := rfl }

end NvmeDem
