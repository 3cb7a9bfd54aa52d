import NvmeDem.Fabric.Session

/-!
# Completions and their commands

A client that waits for the completion of a command takes the first one there is. It is the one of its command where nothing else
was on the way when the command was sent, and no notification is sent before the command is handled; a notification that slips in
is taken for the completion, and every later command gets the one before its own (`takes_notification`).

In a run in which neither happens every command gets its own completion (`completions_matched`), and what the two sides have to
keep for it is exactly that (`inOrder_step_iff`).
-/

namespace NvmeDem.Session

variable {s s' : State}

/-- Every completion that was taken after a command was sent for that command. -/
def State.Matched (s : State) : Prop := ∀ t ∈ s.taken, t.cause = .command t.command

/-- While the client waits, its command is the only thing on the way, or its completion is the next. -/
def State.InOrder (s : State) : Prop :=
  ∀ n, s.waiting = some n → (s.cmds.map Sent.number = [n] ∧ s.rsps = []) ∨
    (s.cmds = [] ∧ ∃ (rsp : PseudoTarget.NvmeCompletion) (rest : List Completion), s.rsps = ⟨.command n, rsp⟩ :: rest)

/-- A command is sent only when nothing is on the way, and the connection is not notified while the client waits for a command that
was not handled yet. -/
def Op.Clean (s : State) : Op → Prop
  | .send _ => s.cmds = [] ∧ s.rsps = []
  | .notify change => s.waiting.isSome → s.cmds ≠ [] → s.ep ∉ s.notified change
  | .post _ | .receive _ | .giveUp | .listen | .serve _ _ _ | .other _ => True

/-! ## One step -/

theorem inOrder_of_not_waiting (h : s.waiting = none) : s.InOrder := by
  intro n hn
  rw [h] at hn
  cases hn

theorem inOrder_send_iff (cmd : PseudoTarget.NvmeCommand) : (s.send cmd).InOrder ↔ s.cmds = [] ∧ s.rsps = [] := by
  constructor
  · intro h
    obtain ⟨hcmds, hrsps⟩ | ⟨hcmds, _⟩ := h s.sent rfl
    · have hmap : (s.cmds ++ [(⟨s.sent, cmd⟩ : Sent)]).map Sent.number = [s.sent] := hcmds
      rw [List.map_append, List.map_singleton, List.append_eq_singleton_iff] at hmap
      obtain ⟨hnil, _⟩ | ⟨_, hnil⟩ := hmap
      · exact ⟨List.map_eq_nil_iff.mp hnil, hrsps⟩
      · cases hnil
    · exact absurd hcmds (List.append_ne_nil_of_right_ne_nil _ (List.cons_ne_nil _ _))
  · rintro ⟨hcmds, hrsps⟩ n hn
    obtain rfl : s.sent = n := Option.some.inj hn
    have hmap : (s.cmds ++ [(⟨s.sent, cmd⟩ : Sent)]).map Sent.number = [s.sent] := by rw [hcmds]; rfl
    exact Or.inl ⟨hmap, hrsps⟩

/-- The command that is handled is the one that the client waits for. -/
theorem inOrder_serve {lists : Lists} {host : PseudoTarget.HostConn} {ans : PseudoTarget.Answers} {first : Sent}
    {rest : List Sent} (hs : s.InOrder) (hcmds : s.cmds = first :: rest) (h : s.serve lists host ans first rest = .ok s') :
    s'.InOrder := by
  intro n hn
  unfold State.serve at h
  cases hout : PseudoTarget.handleRequest lists first.cmd ans host s.server.aenReqList with
  | error fault =>
    rw [hout] at h
    cases h
  | ok out =>
    rw [hout] at h
    cases h
    obtain ⟨hfirst, hrsps⟩ | ⟨hnil, _⟩ := hs n hn
    · rw [hcmds, List.map_cons] at hfirst
      obtain ⟨hnumber, hrest⟩ := List.cons_eq_cons.mp hfirst
      refine Or.inr ⟨List.map_eq_nil_iff.mp hrest, out.2, [], ?_⟩
      show s.rsps ++ [⟨.command first.number, out.2⟩] = _
      rw [hrsps, hnumber]
      rfl
    · rw [hnil] at hcmds
      cases hcmds

theorem inOrder_notify_iff {change : PseudoTarget.Change} (hs : s.InOrder) :
    (s.notify change).InOrder ↔ (s.waiting.isSome → s.cmds ≠ [] → s.ep ∉ s.notified change) := by
  constructor
  · intro h hwaiting hcmds
    obtain ⟨n, hn⟩ := Option.isSome_iff_exists.mp hwaiting
    obtain ⟨_, hrsps⟩ | ⟨hnil, _⟩ := h n hn
    · obtain ⟨_, hrep⟩ := List.append_eq_nil_iff.mp hrsps
      exact List.count_eq_zero.mp ((List.replicate_eq_nil_iff _).mp hrep)
    · exact absurd hnil hcmds
  · intro h n hn
    obtain ⟨hcmds, hrsps⟩ | ⟨hcmds, rsp, rest, hrsps⟩ := hs n hn
    · have hne : s.cmds ≠ [] := by
        rintro hnil
        rw [hnil] at hcmds
        cases hcmds
      have hcount := List.count_eq_zero.mpr (h (Option.isSome_iff_exists.mpr ⟨n, hn⟩) hne)
      refine Or.inl ⟨hcmds, ?_⟩
      show s.rsps ++ List.replicate ((s.notified change).count s.ep) notice = []
      rw [hrsps, hcount]
      rfl
    · refine Or.inr ⟨hcmds, rsp, rest ++ List.replicate ((s.notified change).count s.ep) notice, ?_⟩
      show s.rsps ++ _ = _
      rw [hrsps]
      rfl

/-- From a state in order, a step leads to one exactly if it is clean. -/
theorem inOrder_step_iff {op : Op} (hs : s.InOrder) (h : op.Step s s') : s'.InOrder ↔ op.Clean s := by
  cases op with
  | send cmd =>
    obtain ⟨_, rfl⟩ := h
    exact inOrder_send_iff cmd
  | post cmd =>
    obtain ⟨hwaiting, rfl⟩ := h
    exact iff_of_true (inOrder_of_not_waiting hwaiting) trivial
  | receive ignoreStatus =>
    obtain ⟨n, first, rest, _, _, rfl⟩ := h
    exact iff_of_true (inOrder_of_not_waiting rfl) trivial
  | giveUp =>
    obtain ⟨_, _, rfl⟩ := h
    exact iff_of_true (inOrder_of_not_waiting rfl) trivial
  | listen =>
    obtain ⟨hwaiting, _, _, heq⟩ := h
    rw [heq]
    exact iff_of_true (inOrder_of_not_waiting hwaiting) trivial
  | serve lists host ans =>
    obtain ⟨_, _, first, rest, hcmds, hserve⟩ := h
    exact iff_of_true (inOrder_serve hs hcmds hserve) trivial
  | notify change =>
    obtain rfl := h
    exact inOrder_notify_iff hs
  | other op =>
    obtain ⟨_, _, heq⟩ := h
    rw [heq]
    exact iff_of_true hs trivial

/-- What is taken in a state in order is the completion of the command. -/
theorem matched_step {op : Op} (hs : s.InOrder) (hm : s.Matched) (h : op.Step s s') : s'.Matched := by
  cases op with
  | receive ignoreStatus =>
    obtain ⟨n, first, rest, hn, hrsps, rfl⟩ := h
    intro t ht
    obtain ht | ht := List.mem_append.mp ht
    · exact hm t ht
    · obtain rfl := List.mem_singleton.mp ht
      obtain ⟨_, hnil⟩ | ⟨_, rsp, rest', hfirst⟩ := hs n hn
      · rw [hrsps] at hnil
        cases hnil
      · rw [hrsps] at hfirst
        cases hfirst
        rfl
  | send cmd =>
    obtain ⟨_, rfl⟩ := h
    exact hm
  | post cmd =>
    obtain ⟨_, rfl⟩ := h
    exact hm
  | giveUp =>
    obtain ⟨_, _, rfl⟩ := h
    exact hm
  | listen =>
    obtain ⟨_, _, _, heq⟩ := h
    rw [heq]
    exact hm
  | serve lists host ans =>
    obtain ⟨_, _, first, rest, _, hserve⟩ := h
    unfold State.serve at hserve
    cases hout : PseudoTarget.handleRequest lists first.cmd ans host s.server.aenReqList with
    | error fault =>
      rw [hout] at hserve
      cases hserve
    | ok out =>
      rw [hout] at hserve
      cases hserve
      exact hm
  | notify change =>
    obtain rfl := h
    exact hm
  | other op =>
    obtain ⟨_, _, heq⟩ := h
    rw [heq]
    exact hm

/-! ## Runs -/

/-- The states of a connection after steps that meet a condition, from when it was new; the daemon is in any state then. -/
def Serves (server : PseudoTarget.State) (ep : Nat) (allowed : State → Op → Prop) (s : State) : Prop :=
  Run Op.Step allowed { server := server, ep := ep } s

/-- In a run of clean steps every completion that was taken after a command is the one of that command. -/
theorem completions_matched {server : PseudoTarget.State} {ep : Nat} (h : Serves server ep Op.Clean s) : s.Matched := by
  have hinv : s.InOrder ∧ s.Matched := by
    refine Run.invariant (I := fun s => s.InOrder ∧ s.Matched) h ⟨inOrder_of_not_waiting rfl, ?_⟩ ?_
    · intro t ht
      cases ht
    · intro s op s' hs hclean hstep
      exact ⟨(inOrder_step_iff hs.1 hstep).mpr hclean, matched_step hs.1 hs.2 hstep⟩
  exact hinv.2

/-! ## Examples -/

def exampleAnswers : PseudoTarget.Answers :=
  { rmaRead := none, rmaWrite := true, malloc := none, allocKey := true, data := .filled 0 }

def exampleHost : PseudoTarget.HostConn :=
  { ep := 1, nqn := "nqn.h", kato := PseudoTarget.retryCount, countdown := PseudoTarget.retryCount }

/-- A client that left an async-event request. -/
def exampleServer : PseudoTarget.State :=
  { hostCounter := 2
    hostList := [exampleHost]
    aenReqList := [{ nqn := "nqn.h", ep := 1 }] }

def keepAliveCmd : PseudoTarget.NvmeCommand := { opcode := PseudoTarget.nvmeAdminKeepAlive }

def sentKeepAlive : State := ({ server := exampleServer, ep := 1 } : State).send keepAliveCmd

theorem serves_sentKeepAlive {allowed : State → Op → Prop}
    (h : allowed { server := exampleServer, ep := 1 } (.send keepAliveCmd)) : Serves exampleServer 1 allowed sentKeepAlive :=
  Run.next Run.start h ⟨rfl, rfl⟩

def answeredKeepAlive : State := { sentKeepAlive with cmds := [], rsps := [⟨.command 0, {}⟩] }

/-- A keep alive that is answered before anything changes. -/
theorem completions_matched_keepAlive :
    (answeredKeepAlive.processNvmeRsp 0 0 ⟨.command 0, {}⟩ []).Matched := by
  have hserve : Op.Step (.serve {} exampleHost exampleAnswers) sentKeepAlive answeredKeepAlive :=
    ⟨List.mem_singleton_self _, rfl, ⟨0, keepAliveCmd⟩, [], rfl, rfl⟩
  have hreceive : Op.Step (.receive 0) answeredKeepAlive (answeredKeepAlive.processNvmeRsp 0 0 ⟨.command 0, {}⟩ []) :=
    ⟨0, ⟨.command 0, {}⟩, [], rfl, rfl, rfl⟩
  have hanswered : Serves exampleServer 1 Op.Clean answeredKeepAlive :=
    Run.next (serves_sentKeepAlive ⟨rfl, rfl⟩) (show Op.Clean _ (.serve _ _ _) from trivial) hserve
  exact completions_matched (Run.next hanswered (show Op.Clean _ (.receive _) from trivial) hreceive)

/-- A notification is sent before the daemon comes to a keep alive: the client takes it for the completion. -/
theorem takes_notification : ∃ s, Serves exampleServer 1 (fun _ _ => True) s ∧ ¬s.Matched := by
  have hnotify : Op.Step (.notify (.host "nqn.h")) sentKeepAlive (sentKeepAlive.notify (.host "nqn.h")) := rfl
  have hreceive : Op.Step (.receive 0) (sentKeepAlive.notify (.host "nqn.h"))
      ((sentKeepAlive.notify (.host "nqn.h")).processNvmeRsp 0 0 notice []) := ⟨0, notice, [], rfl, by decide, rfl⟩
  refine ⟨_, Run.next (Run.next (serves_sentKeepAlive trivial) trivial hnotify) trivial hreceive, fun hmatched => ?_⟩
  cases hmatched ⟨0, .notification, 0, some (PseudoTarget.nvmeAerNotice.setWidth 64)⟩ (by decide)

end NvmeDem.Session
