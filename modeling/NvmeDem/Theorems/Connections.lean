import Mathlib.Data.List.Induction
import NvmeDem.Dem.Connections

/-!
# The flags of a connection agree

Between steps a queue is `connected`, its endpoint is there and the state of the endpoint is `CONNECTED`, all three or none, and a
queue that has an endpoint is not connected once more.

The state is set on one way to connect only: where the target refused the keep-alive time. A step that connects on the other way, or
that connects a queue and leaves its flag, ends with flags that differ, unless it disconnects the queue again (`Op.Keeps`).
-/

namespace NvmeDem.Conn

/-- The three flags of a queue agree, and no endpoint of it was lost. -/
structure Queue.InSync (ctrl : Queue) : Prop where
  connected : ctrl.connected = ctrl.isOpen
  state : ctrl.state = if ctrl.isOpen then .connected else .disconnected
  kept : ctrl.overwritten = false

structure Target.InSync (target : Target) : Prop where
  queues : ∀ dq ∈ target.discoveryQueueList, dq.InSync
  inb : target.inb.InSync

/-! ## What comes of the answers -/

/-- There is a connection that the connect command can be sent on. -/
def Transport.Reaches (a : Transport) : Prop :=
  a.address = true ∧ a.initEndpoint = 0 ∧ tryConnect a.clientConnect 0 (connectRetryCount - 1) = 0 ∧ a.allocCmd = 0 ∧
    a.allocData = 0

/-- The target takes the connect command with a keep-alive time. -/
def Transport.Accepted (a : Transport) : Prop :=
  a.Reaches ∧ a.connect.send = 0 ∧ processNvmeRsp ignoreStatus a.connect.rsp = 0

/-- The target refuses it and takes the one without. -/
def Transport.Retried (a : Transport) : Prop :=
  a.Reaches ∧ a.connect.send = 0 ∧ processNvmeRsp ignoreStatus a.connect.rsp = ignoreStatus ∧ a.again.ret = 0

/-- The target is not reached, or takes neither. -/
def Transport.Fails (a : Transport) : Prop := ¬a.Accepted ∧ ¬a.Retried

def Transport.Enabled (a : Transport) : Prop := a.enable.ret = 0

section
variable {a : Transport} {ctrl : Queue}

theorem ignoreStatus_ne_zero : (ignoreStatus : Int) ≠ 0 := by decide

theorem sendFabricConnect_accepted (h : a.Accepted) : sendFabricConnect a ctrl = (0, ctrl) := by
  obtain ⟨-, hsend, hrsp⟩ := h
  unfold sendFabricConnect
  rw [if_neg (not_not_intro hsend), hrsp]
  exact if_pos ignoreStatus_ne_zero.symm

theorem sendFabricConnect_retried (h : a.Retried) :
    sendFabricConnect a ctrl = (0, { ctrl with failedKato := true, state := .connected }) := by
  obtain ⟨-, hsend, hrsp, hagain⟩ := h
  unfold sendFabricConnect
  rw [if_neg (not_not_intro hsend), hrsp]
  exact (if_neg (not_not_intro rfl)).trans (if_neg (not_not_intro hagain))

/-- `connect_ctrl` up to the connect command. -/
theorem connectCtrl_reaches (h : a.Reaches) :
    connectCtrl a ctrl =
      if (sendFabricConnect a { ctrl with overwritten := ctrl.overwritten || ctrl.isOpen, isOpen := true }).1 ≠ 0 then
        ((sendFabricConnect a { ctrl with overwritten := ctrl.overwritten || ctrl.isOpen, isOpen := true }).1,
          disconnectEndpoint
            (sendFabricConnect a { ctrl with overwritten := ctrl.overwritten || ctrl.isOpen, isOpen := true }).2)
      else
        (a.enable.ret, (sendFabricConnect a { ctrl with overwritten := ctrl.overwritten || ctrl.isOpen, isOpen := true }).2) := by
  obtain ⟨haddr, hinit, hclient, hcmd, hdata⟩ := h
  simp only [connectCtrl, haddr, hinit, hclient, hcmd, hdata, Bool.not_true, Bool.false_eq_true, if_false, ne_eq, not_true_eq_false]

/-- The target takes the connect command: the state of the endpoint is not set. -/
theorem connectCtrl_accepted (h : a.Accepted) :
    connectCtrl a ctrl = (a.enable.ret, { ctrl with overwritten := ctrl.overwritten || ctrl.isOpen, isOpen := true }) := by
  rw [connectCtrl_reaches h.1, sendFabricConnect_accepted h]
  exact if_neg (not_not_intro rfl)

theorem connectCtrl_retried (h : a.Retried) :
    connectCtrl a ctrl =
      (a.enable.ret,
        { ctrl with
          overwritten := ctrl.overwritten || ctrl.isOpen, isOpen := true, failedKato := true, state := .connected }) := by
  rw [connectCtrl_reaches h.1, sendFabricConnect_retried h]
  exact if_neg (not_not_intro rfl)

theorem sendFabricConnect_fails (ctrl : Queue) (hr : a.Reaches) (h : a.Fails) :
    ∃ (ret : Int) (failed : Bool), ret ≠ 0 ∧ sendFabricConnect a ctrl = (ret, { ctrl with failedKato := failed }) := by
  unfold sendFabricConnect
  by_cases hsend : a.connect.send = 0
  · rw [if_neg (not_not_intro hsend)]
    by_cases hrsp : processNvmeRsp ignoreStatus a.connect.rsp = ignoreStatus
    · have hagain : a.again.ret ≠ 0 := fun hagain => h.2 ⟨hr, hsend, hrsp, hagain⟩
      rw [hrsp]
      exact ⟨a.again.ret, true, hagain, (if_neg (not_not_intro rfl)).trans (if_pos hagain)⟩
    · exact ⟨_, ctrl.failedKato, fun hret => h.1 ⟨hr, hsend, hret⟩, if_pos hrsp⟩
  · exact ⟨_, ctrl.failedKato, hsend, if_pos hsend⟩

/-- No connection is made: the queue is as it was, but for what was learned of the keep-alive time. -/
theorem connectCtrl_fails (h : a.Fails) (failed : Bool) :
    ∃ (ret : Int) (failed' : Bool), ret ≠ 0 ∧ connectCtrl a { failedKato := failed } = (ret, { failedKato := failed' }) := by
  by_cases hr : a.Reaches
  · rw [connectCtrl_reaches hr]
    obtain ⟨ret, failed', hret, hsend⟩ := sendFabricConnect_fails { isOpen := true, failedKato := failed } hr h
    refine ⟨ret, failed', hret, ?_⟩
    rw [Bool.or_false, hsend, if_pos hret]
    rfl
  · by_cases haddr : a.address = true
    · by_cases hinit : a.initEndpoint = 0
      · by_cases hclient : tryConnect a.clientConnect 0 (connectRetryCount - 1) = 0
        · by_cases hcmd : a.allocCmd = 0
          · have hdata : a.allocData ≠ 0 := fun hdata => hr ⟨haddr, hinit, hclient, hcmd, hdata⟩
            refine ⟨a.allocData, failed, hdata, ?_⟩
            simp [connectCtrl, haddr, hinit, hclient, hcmd, hdata, disconnectEndpoint]
          · refine ⟨a.allocCmd, failed, hcmd, ?_⟩
            simp [connectCtrl, haddr, hinit, hclient, hcmd, disconnectEndpoint]
        · refine ⟨_, failed, hclient, ?_⟩
          simp [connectCtrl, haddr, hinit, hclient]
      · refine ⟨a.initEndpoint, failed, hinit, ?_⟩
        simp [connectCtrl, haddr, hinit]
    · refine ⟨-einval, failed, by decide, ?_⟩
      simp [connectCtrl, haddr]

/-- A queue that has an endpoint when it is connected loses it. -/
theorem overwritten_connectCtrl (h : ctrl.overwritten = true ∨ ctrl.isOpen = true) :
    (connectCtrl a ctrl).2.overwritten = true := by
  have hlost : (ctrl.overwritten || ctrl.isOpen) = true := by simpa using h
  unfold connectCtrl
  rw [hlost]
  dsimp only
  split
  · rfl
  · split
    · rfl
    · split
      · rfl
      · split
        · rfl
        · split
          · rfl
          · have hsend : ∀ q : Queue, (sendFabricConnect a q).2.overwritten = q.overwritten := by
              intro q
              unfold sendFabricConnect
              dsimp only
              split
              · rfl
              · split
                · rfl
                · split <;> rfl
            split
            · exact hsend _
            · exact hsend _

end

/-! ## One queue -/

section
variable {a : Transport} {ctrl : Queue} {failed : Bool}

theorem Queue.InSync.off (h : ctrl.InSync) (hc : ctrl.connected = false) : ctrl = { failedKato := ctrl.failedKato } := by
  obtain ⟨isOpen, state, connected, failedKato, overwritten⟩ := ctrl
  obtain ⟨hconnected, hstate, hkept⟩ := h
  obtain rfl : connected = false := hc
  obtain rfl : false = isOpen := hconnected
  obtain rfl : state = .disconnected := hstate
  obtain rfl : overwritten = false := hkept
  rfl

theorem inSync_off : ({ failedKato := failed } : Queue).InSync := ⟨rfl, rfl, rfl⟩

theorem inSync_on : ({ isOpen := true, state := .connected, connected := true, failedKato := failed } : Queue).InSync :=
  ⟨rfl, rfl, rfl⟩

/-- The queue was connected, and nobody says so. -/
theorem not_inSync_of_open (hopen : ctrl.isOpen = true) (hc : ctrl.connected = false) : ¬ctrl.InSync := by
  intro h
  exact absurd (hc.symm.trans (h.connected.trans hopen)) (by decide)

/-- The queue was connected, and its state does not say so. -/
theorem not_inSync_of_state (hopen : ctrl.isOpen = true) (hstate : ctrl.state = .disconnected) : ¬ctrl.InSync := by
  intro h
  have hconnected := h.state
  rw [hopen, hstate] at hconnected
  exact absurd hconnected (by decide)

theorem not_inSync_of_overwritten (h : ctrl.overwritten = true) : ¬ctrl.InSync :=
  fun hs => absurd (h.symm.trans hs.kept) (by decide)

theorem disconnectCtrl_inSync (h : ctrl.overwritten = false) : (disconnectCtrl ctrl).InSync := ⟨rfl, rfl, h⟩

/-- The answers are of one of three kinds. -/
theorem Transport.cases (a : Transport) : a.Accepted ∨ a.Retried ∨ a.Fails := by
  by_cases h : a.Accepted
  · exact Or.inl h
  · by_cases h' : a.Retried
    · exact Or.inr (Or.inl h')
    · exact Or.inr (Or.inr ⟨h, h'⟩)

theorem Transport.Accepted.not_retried (h : a.Accepted) : ¬a.Retried :=
  fun h' => ignoreStatus_ne_zero (h'.2.2.1.symm.trans h.2.2)

/-- A call of `connect_ctrl` alone: whatever comes of it, the queue is not marked. -/
theorem connectCtrl_inSync_iff (h : ctrl.InSync) : (connectCtrl a ctrl).2.InSync ↔ ctrl.connected = false ∧ a.Fails := by
  by_cases hc : ctrl.connected = true
  · have hlost : (connectCtrl a ctrl).2.overwritten = true := overwritten_connectCtrl (Or.inr (h.connected ▸ hc))
    exact iff_of_false (not_inSync_of_overwritten hlost) (fun hn => absurd (hc.symm.trans hn.1) (by decide))
  · rw [Bool.not_eq_true] at hc
    rw [h.off hc]
    rcases a.cases with ha | ha | ha
    · rw [connectCtrl_accepted ha]
      exact iff_of_false (not_inSync_of_open rfl rfl) (fun hn => hn.2.1 ha)
    · rw [connectCtrl_retried ha]
      exact iff_of_false (not_inSync_of_open rfl rfl) (fun hn => hn.2.2 ha)
    · obtain ⟨ret, failed, -, heq⟩ := connectCtrl_fails ha ctrl.failedKato
      rw [heq]
      exact iff_of_true inSync_off ⟨rfl, ha⟩

/-- What a caller leaves that marks the queue when the connection is made. -/
def marked (out : Int × Queue) : Queue := if out.1 = 0 then { out.2 with connected := true } else out.2

theorem marked_inSync_iff : (marked (connectCtrl a { failedKato := failed })).InSync ↔ a.Fails ∨ a.Retried ∧ a.Enabled := by
  unfold marked
  rcases a.cases with ha | ha | ha
  · rw [connectCtrl_accepted ha]
    refine iff_of_false ?_ (fun hn => hn.elim (fun hf => hf.1 ha) (fun hr => ha.not_retried hr.1))
    split
    · exact not_inSync_of_state rfl rfl
    · exact not_inSync_of_state rfl rfl
  · rw [connectCtrl_retried ha]
    by_cases he : a.enable.ret = 0
    · rw [if_pos he]
      exact iff_of_true inSync_on (Or.inr ⟨ha, he⟩)
    · rw [if_neg he]
      exact iff_of_false (not_inSync_of_open rfl rfl) (fun hn => hn.elim (fun hf => hf.2 ha) (fun hr => he hr.2))
  · obtain ⟨ret, failed, hret, heq⟩ := connectCtrl_fails ha failed
    rw [heq, if_neg hret]
    exact iff_of_true inSync_off (Or.inl ha)

/-- A discovery queue is not marked either: it has to be disconnected after the fetch. -/
theorem connectAndFetch_inSync_iff (a : Transport) (failed : Bool) :
    (connectAndFetch a { failedKato := failed }).InSync ↔ a.Fails ∨ a.Enabled ∧ (a.Retried ∨ failed = true) := by
  have hfetch (dq : Queue) : connectAndFetch a dq =
      if (connectCtrl a dq).1 ≠ 0 then (connectCtrl a dq).2 else endFetch (connectCtrl a dq).2 := rfl
  rw [hfetch]
  rcases a.cases with ha | ha | ha
  · rw [connectCtrl_accepted ha]
    by_cases he : a.enable.ret = 0
    · rw [if_neg (not_not_intro he)]
      unfold endFetch
      cases failed with
      | true => exact iff_of_true (disconnectCtrl_inSync rfl) (Or.inr ⟨he, Or.inr rfl⟩)
      | false =>
        refine iff_of_false (not_inSync_of_open rfl rfl) ?_
        rintro (hf | ⟨-, hr | hfail⟩)
        · exact hf.1 ha
        · exact ha.not_retried hr
        · exact absurd hfail (by decide)
    · rw [if_pos he]
      exact iff_of_false (not_inSync_of_open rfl rfl) (fun hn => hn.elim (fun hf => hf.1 ha) (fun hr => he hr.1))
  · rw [connectCtrl_retried ha]
    by_cases he : a.enable.ret = 0
    · rw [if_neg (not_not_intro he)]
      exact iff_of_true (disconnectCtrl_inSync rfl) (Or.inr ⟨he, Or.inl ha⟩)
    · rw [if_pos he]
      exact iff_of_false (not_inSync_of_open rfl rfl) (fun hn => hn.elim (fun hf => hf.2 ha) (fun hr => he hr.1))
  · obtain ⟨ret, failed', hret, heq⟩ := connectCtrl_fails ha failed
    rw [heq, if_pos hret]
    exact iff_of_true inSync_off (Or.inl ha)

theorem refreshQueue_inSync_iff {v : Visit} (h : ctrl.InSync) :
    (refreshQueue v ctrl).InSync ↔
      (ctrl.connected = false → v.available = true →
        v.connect.Fails ∨ v.connect.Enabled ∧ (v.connect.Retried ∨ ctrl.failedKato = true)) := by
  unfold refreshQueue
  by_cases hc : ctrl.connected = true
  · rw [if_pos hc]
    refine iff_of_true ?_ (fun hn => absurd (hc.symm.trans hn) (by decide))
    unfold endFetch
    split
    · exact disconnectCtrl_inSync h.kept
    · exact h
  · rw [if_neg hc]
    rw [Bool.not_eq_true] at hc
    cases hv : v.available with
    | false => exact iff_of_true h (fun _ hn => absurd hn (by decide))
    | true =>
      show (connectAndFetch v.connect ctrl).InSync ↔ _
      rw [h.off hc, connectAndFetch_inSync_iff]
      exact ⟨fun hn _ _ => hn, fun hn => hn rfl rfl⟩

theorem getInbConfig_inSync_iff {g : InbConfig} (h : ctrl.InSync) :
    (getInbConfig g ctrl).InSync ↔
      (g.ops = true →
        g.connect.Fails ∨ g.connect.Enabled ∧ (g.connect.Retried ∨ ¬(g.nsdevs = 0 ∧ g.xports = 0))) := by
  cases hops : g.ops with
  | false =>
    unfold getInbConfig
    rw [hops]
    exact iff_of_true h (fun hn => absurd hn (by decide))
  | true =>
    -- The queue is disconnected first if it was connected.
    have hoff : (if ctrl.connected then disconnectCtrl ctrl else ctrl) = { failedKato := ctrl.failedKato } := by
      by_cases hc : ctrl.connected = true
      · rw [if_pos hc]
        exact (disconnectCtrl_inSync h.kept).off rfl
      · rw [if_neg hc]
        exact h.off (Bool.not_eq_true _ ▸ hc)
    have hconfig : getInbConfig g ctrl =
        if (connectCtrl g.connect { failedKato := ctrl.failedKato }).1 ≠ 0 then
          (connectCtrl g.connect { failedKato := ctrl.failedKato }).2
        else if g.nsdevs = 0 ∧ g.xports = 0 then
          { (connectCtrl g.connect { failedKato := ctrl.failedKato }).2 with connected := true }
        else disconnectCtrl { (connectCtrl g.connect { failedKato := ctrl.failedKato }).2 with connected := true } := by
      unfold getInbConfig
      rw [hops, hoff]
      rfl
    rw [hconfig]
    rcases g.connect.cases with ha | ha | ha
    · rw [connectCtrl_accepted ha]
      by_cases he : g.connect.enable.ret = 0
      · rw [if_neg (not_not_intro he)]
        by_cases hgot : g.nsdevs = 0 ∧ g.xports = 0
        · rw [if_pos hgot]
          refine iff_of_false (not_inSync_of_state rfl rfl) (fun hn => ?_)
          rcases hn rfl with hf | ⟨-, hr | hlost⟩
          · exact hf.1 ha
          · exact ha.not_retried hr
          · exact hlost hgot
        · rw [if_neg hgot]
          exact iff_of_true (disconnectCtrl_inSync rfl) (fun _ => Or.inr ⟨he, Or.inr hgot⟩)
      · rw [if_pos he]
        exact iff_of_false (not_inSync_of_open rfl rfl) (fun hn => (hn rfl).elim (fun hf => hf.1 ha) (fun hr => he hr.1))
    · rw [connectCtrl_retried ha]
      by_cases he : g.connect.enable.ret = 0
      · rw [if_neg (not_not_intro he)]
        refine iff_of_true ?_ (fun _ => Or.inr ⟨he, Or.inl ha⟩)
        split
        · exact inSync_on
        · exact disconnectCtrl_inSync rfl
      · rw [if_pos he]
        exact iff_of_false (not_inSync_of_open rfl rfl) (fun hn => (hn rfl).elim (fun hf => hf.2 ha) (fun hr => he hr.1))
    · obtain ⟨ret, failed', hret, heq⟩ := connectCtrl_fails ha ctrl.failedKato
      rw [heq, if_pos hret]
      exact iff_of_true inSync_off (fun _ => Or.inl ha)

/-! ### Messages on the in-band queue -/

theorem overwritten_connectAndSend {m : Config} (h : ctrl.overwritten = true ∨ ctrl.isOpen = true) :
    (connectAndSend m ctrl).2.overwritten = true := by
  have hconnect := overwritten_connectCtrl (a := m.connect) h
  unfold connectAndSend
  dsimp only
  split
  · exact hconnect
  · exact hconnect

theorem overwritten_sendSetConfig {m : Config} (h : ctrl.overwritten = true) : (sendSetConfig m ctrl).2.overwritten = true := by
  unfold sendSetConfig
  split
  · split
    · exact h
    · exact overwritten_connectAndSend (Or.inl h)
  · exact overwritten_connectAndSend (Or.inl h)

theorem overwritten_sendConfigs {ms : List Config} (h : ctrl.overwritten = true) : (sendConfigs ms ctrl).2.overwritten = true := by
  induction ms generalizing ctrl with
  | nil => exact h
  | cons m ms ih =>
    have hsent := overwritten_sendSetConfig (m := m) h
    unfold sendConfigs
    dsimp only
    split
    · exact hsent
    · exact ih hsent

/-- A message that fails on a queue that is connected is sent again on a connection of its own. -/
theorem sendSetConfig_inSync_iff {m : Config} (h : ctrl.InSync) :
    (sendSetConfig m ctrl).2.InSync ↔
      (ctrl.connected = true → m.first = 0) ∧
        (ctrl.connected = false → m.connect.Fails ∨ m.connect.Retried ∧ m.connect.Enabled) := by
  unfold sendSetConfig
  by_cases hc : ctrl.connected = true
  · rw [if_pos hc]
    by_cases hfirst : m.first = 0
    · rw [if_pos hfirst]
      exact iff_of_true h ⟨fun _ => hfirst, fun hn => absurd (hc.symm.trans hn) (by decide)⟩
    · rw [if_neg hfirst]
      refine iff_of_false (not_inSync_of_overwritten (overwritten_connectAndSend (Or.inr ?_))) (fun hn => hfirst (hn.1 hc))
      exact h.connected ▸ hc
  · rw [if_neg hc]
    have hsend : (connectAndSend m ctrl).2 = marked (connectCtrl m.connect ctrl) := by
      unfold connectAndSend marked
      dsimp only
      by_cases hret : (connectCtrl m.connect ctrl).1 = 0
      · rw [if_pos hret, if_neg (not_not_intro hret)]
      · rw [if_neg hret, if_pos hret]
    rw [Bool.not_eq_true] at hc
    rw [hsend, h.off hc, marked_inSync_iff]
    exact ⟨fun hn => ⟨fun hon => absurd hon Bool.false_ne_true, fun _ => hn⟩, fun hn => hn.2 rfl⟩

/-- The messages for a target on a queue that is connected: none may fail. -/
theorem configPortsAndSubsystems_inSync_iff {ms : List Config} (h : ctrl.InSync) (hc : ctrl.connected = true) :
    (configPortsAndSubsystems ms ctrl).InSync ↔ ∀ m ∈ ms, m.first = 0 := by
  have hsend (ms : List Config) : (∀ m ∈ ms, m.first = 0) → sendConfigs ms ctrl = (0, ctrl) := by
    intro hall
    induction ms with
    | nil => rfl
    | cons m ms ih =>
      have hfirst : sendSetConfig m ctrl = (0, ctrl) := by
        unfold sendSetConfig
        rw [if_pos hc, if_pos (hall m List.mem_cons_self)]
      unfold sendConfigs
      rw [hfirst]
      exact ih (fun m hm => hall m (List.mem_cons_of_mem _ hm))
  have hlost (ms : List Config) : ¬(∀ m ∈ ms, m.first = 0) → (sendConfigs ms ctrl).2.overwritten = true := by
    intro hnot
    induction ms with
    | nil => exact absurd (fun m hm => absurd hm List.not_mem_nil) hnot
    | cons m ms ih =>
      unfold sendConfigs
      by_cases hfirst : m.first = 0
      · have hsent : sendSetConfig m ctrl = (0, ctrl) := by
          unfold sendSetConfig
          rw [if_pos hc, if_pos hfirst]
        rw [hsent]
        exact ih (fun hall => hnot (List.forall_mem_cons.mpr ⟨hfirst, hall⟩))
      · have hsent : (sendSetConfig m ctrl).2.overwritten = true := by
          unfold sendSetConfig
          rw [if_pos hc, if_neg hfirst]
          exact overwritten_connectAndSend (Or.inr (h.connected ▸ hc))
        dsimp only
        split
        · exact hsent
        · exact overwritten_sendConfigs hsent
  unfold configPortsAndSubsystems
  by_cases hall : ∀ m ∈ ms, m.first = 0
  · rw [hsend ms hall]
    exact iff_of_true (by simpa using h) hall
  · refine iff_of_false (not_inSync_of_overwritten ?_) hall
    dsimp only
    split
    · exact hlost ms hall
    · exact hlost ms hall

/-- The messages on a queue that is connected and not marked: the first connects it once more. -/
theorem configPortsAndSubsystems_not_inSync {ms : List Config} (hopen : ctrl.isOpen = true) (hc : ctrl.connected = false) :
    ¬(configPortsAndSubsystems ms ctrl).InSync := by
  cases ms with
  | nil => exact not_inSync_of_open hopen hc
  | cons m ms =>
    have hsent : (sendSetConfig m ctrl).2.overwritten = true := by
      unfold sendSetConfig
      rw [if_neg (by rw [hc]; decide)]
      exact overwritten_connectAndSend (Or.inr hopen)
    have hlost : (sendConfigs (m :: ms) ctrl).2.overwritten = true := by
      unfold sendConfigs
      dsimp only
      split
      · exact hsent
      · exact overwritten_sendConfigs hsent
    refine not_inSync_of_overwritten ?_
    unfold configPortsAndSubsystems
    dsimp only
    split
    · exact hlost
    · exact hlost

/-- A queue that was connected for the messages is not marked, so that the first message connects it once more. -/
theorem configTargetInb_inSync_iff {ms : List Config} (h : ctrl.InSync) :
    (configTargetInb a ms ctrl).InSync ↔
      (ctrl.connected = true → ∀ m ∈ ms, m.first = 0) ∧ (ctrl.connected = false → a.Fails) := by
  unfold configTargetInb
  by_cases hc : ctrl.connected = true
  · rw [if_pos hc, configPortsAndSubsystems_inSync_iff h hc]
    exact ⟨fun hn => ⟨fun _ => hn, fun hoff => absurd (hc.symm.trans hoff) (by decide)⟩, fun hn => hn.1 hc⟩
  · rw [if_neg hc]
    rw [Bool.not_eq_true] at hc
    have hconnect : (if (connectCtrl a ctrl).1 ≠ 0 then (connectCtrl a ctrl).2
        else configPortsAndSubsystems ms (connectCtrl a ctrl).2).InSync ↔ a.Fails := by
      rw [h.off hc]
      rcases a.cases with ha | ha | ha
      · rw [connectCtrl_accepted ha]
        refine iff_of_false ?_ (fun hf => hf.1 ha)
        split
        · exact not_inSync_of_open rfl rfl
        · exact configPortsAndSubsystems_not_inSync rfl rfl
      · rw [connectCtrl_retried ha]
        refine iff_of_false ?_ (fun hf => hf.2 ha)
        split
        · exact not_inSync_of_open rfl rfl
        · exact configPortsAndSubsystems_not_inSync rfl rfl
      · obtain ⟨ret, failed', hret, heq⟩ := connectCtrl_fails ha ctrl.failedKato
        rw [heq, if_pos hret]
        exact iff_of_true inSync_off ha
    exact hconnect.trans ⟨fun hf => ⟨fun hon => absurd (hc.symm.trans hon) (by decide), fun _ => hf⟩, fun hn => hn.2 hc⟩

theorem keepAliveInb_inSync_iff {k : KeepAlive} (h : ctrl.InSync) :
    (keepAliveInb k ctrl).InSync ↔
      (ctrl.connected = true → k.inbAnswer = 0) ∧
        (ctrl.connected = false → k.connect.Fails ∨ k.connect.Retried ∧ k.connect.Enabled) := by
  unfold keepAliveInb
  cases hc : ctrl.connected with
  | true =>
    rw [if_neg (by decide)]
    by_cases hlost : k.inbAnswer = 0
    · rw [if_neg (not_not_intro hlost)]
      exact iff_of_true h ⟨fun _ => hlost, fun hn => absurd hn (by decide)⟩
    · rw [if_pos hlost]
      exact iff_of_false (not_inSync_of_open (h.connected ▸ hc) rfl) (fun hn => hlost (hn.1 rfl))
  | false =>
    show (marked (connectCtrl k.connect ctrl)).InSync ↔ _
    rw [h.off hc, marked_inSync_iff]
    exact ⟨fun hn => ⟨fun hon => absurd hon Bool.false_ne_true, fun _ => hn⟩, fun hn => hn.2 rfl⟩

end

/-! ## A target's queues -/

/-- What the discovery queues are after their keep-alive: the lost one is disconnected. -/
theorem keepAliveQueues_inSync (answer : Nat → Int) (i : Nat) {queues : List Queue} (h : ∀ dq ∈ queues, dq.InSync) :
    ∀ dq ∈ (keepAliveQueues answer i queues).2, dq.InSync := by
  induction queues generalizing i with
  | nil => exact h
  | cons dq queues ih =>
    obtain ⟨hhead, htail⟩ := List.forall_mem_cons.mp h
    unfold keepAliveQueues
    split
    · exact List.forall_mem_cons.mpr ⟨hhead, ih (i + 1) htail⟩
    · exact List.forall_mem_cons.mpr ⟨disconnectCtrl_inSync hhead.kept, htail⟩

/-- A keep-alive of a discovery queue is not answered. -/
def Lost (answer : Nat → Int) (queues : List Queue) : Prop :=
  ∃ (i : Nat) (dq : Queue), queues[i]? = some dq ∧ dq.connected = true ∧ dq.failedKato = false ∧ answer i ≠ 0

theorem keepAliveQueues_lost_iff (answer : Nat → Int) (i : Nat) (queues : List Queue) :
    (keepAliveQueues answer i queues).1 = true ↔ Lost (fun j => answer (i + j)) queues := by
  induction queues generalizing i with
  | nil =>
    refine iff_of_false Bool.false_ne_true ?_
    rintro ⟨j, dq, hget, -⟩
    exact absurd hget (by simp)
  | cons dq queues ih =>
    unfold keepAliveQueues
    split
    · rename_i hkept
      rw [Bool.or_eq_true, Bool.or_eq_true, Bool.not_eq_true', decide_eq_true_iff] at hkept
      have hshift (j : Nat) : answer (i + 1 + j) = answer (i + (j + 1)) := congrArg answer (by omega)
      refine (ih (i + 1)).trans ⟨?_, ?_⟩
      · rintro ⟨j, other, hget, hc, hkato, hlost⟩
        exact ⟨j + 1, other, hget, hc, hkato, fun hanswered => hlost ((hshift j).trans hanswered)⟩
      · rintro ⟨j, other, hget, hc, hkato, hlost⟩
        cases j with
        | zero =>
          obtain rfl : dq = other := Option.some.inj hget
          rcases hkept with (hoff | hfailed) | hanswered
          · exact absurd (hoff.symm.trans hc) (by decide)
          · exact absurd (hfailed.symm.trans hkato) (by decide)
          · exact absurd hanswered hlost
        | succ j => exact ⟨j, other, hget, hc, hkato, fun hanswered => hlost ((hshift j).symm.trans hanswered)⟩
    · rename_i hlost
      rw [Bool.or_eq_true, Bool.or_eq_true, not_or, not_or, Bool.not_eq_true', Bool.not_eq_false, decide_eq_true_iff,
        Bool.not_eq_true] at hlost
      exact iff_of_true rfl ⟨0, dq, rfl, hlost.1.1, hlost.1.2, hlost.2⟩

/-- The conditions under which the flags agree after a step. They are about the queues before it and what the transport
answers. -/
def Op.Keeps (target : Target) : Op → Prop
  | .connectCtrl place a => ∀ ctrl : Queue, target.queue place = some ctrl → ctrl.connected = false ∧ a.Fails
  | .disconnectCtrl _ => True
  | .createDiscoveryQueue wanted a => wanted = true → a.Fails ∨ a.Enabled ∧ a.Retried
  | .refreshLogPages visits =>
    ∀ (i : Nat) (dq : Queue), target.discoveryQueueList[i]? = some dq → dq.connected = false → (visits i).available = true →
      (visits i).connect.Fails ∨ (visits i).connect.Enabled ∧ ((visits i).connect.Retried ∨ dq.failedKato = true)
  | .keepAliveWork k =>
    target.katoCountdown ≤ 1 → ¬Lost k.answer target.discoveryQueueList → target.inBand = true →
      (target.inb.connected = true → k.inbAnswer = 0) ∧
        (target.inb.connected = false → k.connect.Fails ∨ k.connect.Retried ∧ k.connect.Enabled)
  | .getInbConfig g =>
    g.ops = true → g.connect.Fails ∨ g.connect.Enabled ∧ (g.connect.Retried ∨ ¬(g.nsdevs = 0 ∧ g.xports = 0))
  | .configTargetInb a ms =>
    (target.inb.connected = true → ∀ m ∈ ms, m.first = 0) ∧ (target.inb.connected = false → a.Fails)
  | .sendSetConfig m =>
    (target.inb.connected = true → m.first = 0) ∧
      (target.inb.connected = false → m.connect.Fails ∨ m.connect.Retried ∧ m.connect.Enabled)

section
variable {target : Target}

/-- A step on the queue for in-band management. -/
theorem inb_inSync_iff (h : target.InSync) {ctrl : Queue} : ({ target with inb := ctrl } : Target).InSync ↔ ctrl.InSync :=
  ⟨fun hs => hs.inb, fun hs => ⟨h.queues, hs⟩⟩

theorem queues_inSync_iff (h : target.InSync) {queues : List Queue} :
    ({ target with discoveryQueueList := queues } : Target).InSync ↔ ∀ dq ∈ queues, dq.InSync :=
  ⟨fun hs => hs.queues, fun hs => ⟨hs, h.inb⟩⟩

theorem Target.InSync.queue (h : target.InSync) {place : Place} {ctrl : Queue} (hctrl : target.queue place = some ctrl) :
    ctrl.InSync := by
  cases place with
  | inb => exact Option.some.inj hctrl ▸ h.inb
  | discovery i => exact h.queues ctrl (List.mem_of_getElem? hctrl)

/-- A step on one queue. -/
theorem modify_inSync_iff (h : target.InSync) {f : Queue → Queue} {place : Place} :
    (target.modify f place).InSync ↔ ∀ ctrl : Queue, target.queue place = some ctrl → (f ctrl).InSync := by
  cases place with
  | inb =>
    refine (inb_inSync_iff h).trans ⟨?_, fun hall => hall _ rfl⟩
    rintro hs ctrl heq
    exact Option.some.inj heq ▸ hs
  | discovery i =>
    refine (queues_inSync_iff h).trans ⟨?_, ?_⟩
    · intro hall ctrl hget
      refine hall _ (List.mem_of_getElem? (i := i) ?_)
      have hqueue : target.discoveryQueueList[i]? = some ctrl := hget
      rw [List.getElem?_modify_eq, hqueue]
      rfl
    · intro hall dq hmem
      obtain ⟨j, hget⟩ := List.getElem?_of_mem hmem
      rw [List.getElem?_modify] at hget
      split at hget
      · rename_i hij
        obtain ⟨ctrl, hctrl, rfl⟩ := Option.map_eq_some_iff.mp hget
        exact hall ctrl (hij ▸ hctrl)
      · exact h.queues dq (List.mem_of_getElem? (i := j) (by simpa using hget))

/-- The flags agree after a step exactly under its condition. -/
theorem step_inSync_iff (h : target.InSync) (op : Op) : (op.step target).InSync ↔ op.Keeps target := by
  cases op with
  | connectCtrl place a =>
    refine (modify_inSync_iff h).trans (forall_congr' fun ctrl => forall_congr' fun hctrl => ?_)
    exact connectCtrl_inSync_iff (h.queue hctrl)
  | disconnectCtrl place =>
    refine iff_of_true ((modify_inSync_iff h).mpr fun ctrl hctrl => ?_) trivial
    exact disconnectCtrl_inSync (h.queue hctrl).kept
  | createDiscoveryQueue wanted a =>
    refine (queues_inSync_iff h).trans ?_
    unfold createDiscoveryQueue
    cases wanted with
    | false => exact iff_of_true h.queues (fun hn => absurd hn Bool.false_ne_true)
    | true =>
      rw [if_pos rfl]
      have hnew := connectAndFetch_inSync_iff a false
      constructor
      · rintro hall -
        have hqueue := hnew.mp (hall _ (List.mem_append_right _ (List.mem_singleton.mpr rfl)))
        exact hqueue.imp_right (fun hr => ⟨hr.1, hr.2.resolve_right Bool.false_ne_true⟩)
      · intro hkeeps dq hmem
        rcases List.mem_append.mp hmem with hmem | hmem
        · exact h.queues dq hmem
        · rw [List.mem_singleton.mp hmem]
          exact hnew.mpr ((hkeeps rfl).imp_right (fun hr => ⟨hr.1, Or.inl hr.2⟩))
  | refreshLogPages visits =>
    refine (queues_inSync_iff h).trans ?_
    constructor
    · intro hall i dq hget
      have hdq := h.queues dq (List.mem_of_getElem? hget)
      refine (refreshQueue_inSync_iff hdq).mp (hall _ (List.mem_of_getElem? (i := i) ?_))
      unfold refreshLogPages
      rw [List.getElem?_mapIdx, hget]
      rfl
    · intro hkeeps dq hmem
      obtain ⟨i, hget⟩ := List.getElem?_of_mem hmem
      unfold refreshLogPages at hget
      rw [List.getElem?_mapIdx] at hget
      obtain ⟨before, hbefore, rfl⟩ := Option.map_eq_some_iff.mp hget
      exact (refreshQueue_inSync_iff (h.queues before (List.mem_of_getElem? hbefore))).mpr (hkeeps i before hbefore)
  | keepAliveWork k =>
    have hqueues := keepAliveQueues_inSync k.answer 0 h.queues
    have hlost : (keepAliveQueues k.answer 0 target.discoveryQueueList).1 = true ↔
        Lost k.answer target.discoveryQueueList := by
      simpa using keepAliveQueues_lost_iff k.answer 0 target.discoveryQueueList
    show (keepAliveWork k target).InSync ↔ (_ → _)
    by_cases hcount : target.katoCountdown ≤ 1
    · have hnow : ¬(0 < target.katoCountdown - 1) := by omega
      have hwork : keepAliveWork k target =
          if (keepAliveQueues k.answer 0 target.discoveryQueueList).1 then
            { target with
              katoCountdown := target.katoCountdown - 1
              discoveryQueueList := (keepAliveQueues k.answer 0 target.discoveryQueueList).2 }
          else
            { target with
              discoveryQueueList := (keepAliveQueues k.answer 0 target.discoveryQueueList).2
              inb := if target.inBand then keepAliveInb k target.inb else target.inb
              katoCountdown := keepAliveTimer / idleTimeout / 2 } := if_neg hnow
      rw [hwork]
      by_cases hl : Lost k.answer target.discoveryQueueList
      · rw [if_pos (hlost.mpr hl)]
        exact iff_of_true ⟨hqueues, h.inb⟩ (fun _ hn => absurd hl hn)
      · rw [if_neg (fun hn => hl (hlost.mp hn))]
        cases hband : target.inBand with
        | false => exact iff_of_true ⟨hqueues, h.inb⟩ (fun _ _ hn => absurd hn Bool.false_ne_true)
        | true =>
          have hinb := keepAliveInb_inSync_iff (k := k) h.inb
          exact ⟨fun hs _ _ _ => hinb.mp hs.inb, fun hn => ⟨hqueues, hinb.mpr (hn hcount hl rfl)⟩⟩
    · have hlater : 0 < target.katoCountdown - 1 := by omega
      have hwork : keepAliveWork k target = { target with katoCountdown := target.katoCountdown - 1 } := if_pos hlater
      rw [hwork]
      exact iff_of_true ⟨h.queues, h.inb⟩ (fun hn => absurd hn hcount)
  | getInbConfig g => exact (inb_inSync_iff h).trans (getInbConfig_inSync_iff h.inb)
  | configTargetInb a ms => exact (inb_inSync_iff h).trans (configTargetInb_inSync_iff h.inb)
  | sendSetConfig m => exact (inb_inSync_iff h).trans (sendSetConfig_inSync_iff h.inb)

end

/-- A completion that says that all is well. -/
def success : Exchange := ⟨0, .completes {}⟩

/-- A target that takes a connect command as it is. -/
def plainTarget : Transport where
  address := true
  initEndpoint := 0
  clientConnect := fun _ => 0
  allocCmd := 0
  allocData := 0
  connect := success
  again := success
  enable := success

/-- A target that refuses the keep-alive time. -/
def noKatoTarget : Transport := { plainTarget with connect := ⟨0, .completes { status := 0x8004 }⟩ }

def freshTarget : Target := { inBand := true }

theorem freshTarget_inSync : freshTarget.InSync := ⟨fun _ hmem => absurd hmem List.not_mem_nil, ⟨rfl, rfl, rfl⟩⟩

end NvmeDem.Conn
