import NvmeDem.Dem.HostThread

/-!
# Requests of connections that are gone

A pending async-event request names the connection it was left on. When a connection ends, for whichever reason, the thread gives
back the endpoint and the host and does not look at the requests, so that a host that disconnects with a request pending leaves it
behind, and the next change of the configuration that concerns its NQN is sent on an endpoint that was freed
(`requests_live_left_behind`).

A run in which every connection that ends has no request pending keeps the requests to hosts that are connected (`requests_live`),
and then a notification goes to such a host only (`notified_connected`). No other step can break it (`live_step_iff`).
-/

namespace NvmeDem.PseudoTarget

/-- Every pending request refers to the endpoint of a host that is connected. -/
def State.Live (s : State) : Prop := ∀ req ∈ s.aenReqList, ∃ host ∈ s.hostList, host.ep = req.ep

/-- A step that ends a connection ends one that has no request pending. -/
def Op.Clean (s : State) : Op → Prop
  | .serve host lists polled => host.Ends lists s.aenReqList polled → ∀ req ∈ s.aenReqList, req.ep ≠ host.ep
  | .connect _ | .notify _ => True

/-! ## Notifications -/

theorem mem_of_mem_foldl_eraseP (list : List EventNotification) (reqs : List EventRequest) {req : EventRequest}
    (h : req ∈ list.foldl (fun reqs entry => reqs.eraseP (EventRequest.isFor entry.nqn)) reqs) : req ∈ reqs := by
  induction list generalizing reqs with
  | nil => exact h
  | cons entry list ih =>
    rw [List.foldl_cons] at h
    exact List.mem_of_mem_eraseP (ih _ h)

/-- A notification answers a request that was pending. -/
theorem exists_of_mem_sendNotifications {list : List EventNotification} {reqs : List EventRequest} {ep : Nat}
    (h : ep ∈ (sendNotifications list reqs).1) : ∃ req ∈ reqs, req.ep = ep := by
  obtain ⟨entry, _, hreq⟩ := List.mem_filterMap.mp h
  obtain ⟨req, hfind, rfl⟩ := Option.map_eq_some_iff.mp hreq
  exact ⟨req, List.mem_of_find?_eq_some hfind, rfl⟩

/-- The NQNs that are still pending are those that the lists of NQNs say. -/
theorem map_nqn_sendNotifications (list : List EventNotification) (reqs : List EventRequest) :
    (sendNotifications list reqs).2.map EventRequest.nqn =
      (NvmeDem.sendNotifications list (reqs.map EventRequest.nqn)).2 := by
  show (list.foldl (fun reqs entry => reqs.eraseP (EventRequest.isFor entry.nqn)) reqs).map EventRequest.nqn =
    list.foldl (fun reqs entry => reqs.erase entry.nqn) (reqs.map EventRequest.nqn)
  induction list generalizing reqs with
  | nil => rfl
  | cons entry list ih =>
    have herase : (reqs.eraseP (EventRequest.isFor entry.nqn)).map EventRequest.nqn =
        (reqs.map EventRequest.nqn).erase entry.nqn := by
      rw [List.erase_eq_eraseP', List.eraseP_map]
      rfl
    rw [List.foldl_cons, List.foldl_cons, ih, herase]

/-- While the requests are those of hosts that are connected, no one else is sent a notification. -/
theorem notified_connected {s : State} (h : s.Live) (list : List EventNotification) {ep : Nat}
    (hep : ep ∈ (sendNotifications list s.aenReqList).1) : ∃ host ∈ s.hostList, host.ep = ep := by
  obtain ⟨req, hreq, rfl⟩ := exists_of_mem_sendNotifications hep
  exact h req hreq

/-! ## A turn with a host -/

section

variable {s s' : State} {lists : Lists} {host : HostConn} {polled : Polled}

/-- What a turn leaves: the host as it is then, or without it and with the requests as they were. -/
theorem serve_cases (h : s.serve lists host polled = .ok s') :
    (host.Ends lists s.aenReqList polled ∧ s'.aenReqList = s.aenReqList ∧
      s'.hostList = s.hostList.filter (fun h => h.ep ≠ host.ep)) ∨
    (¬host.Ends lists s.aenReqList polled ∧ (∀ req ∈ s'.aenReqList, req ∈ s.aenReqList ∨ req.ep = host.ep) ∧
      ∃ host' : HostConn, host'.ep = host.ep ∧
        s'.hostList = s.hostList.map (fun h => if h.ep = host.ep then host' else h)) := by
  unfold State.serve at h
  cases polled with
  | fails ret hret =>
    cases h
    cases hturn : host.turn ret with
    | none =>
      have hends : host.EndsOn ret := turn_eq_none_iff.mp hturn
      exact Or.inl ⟨hends, rfl, rfl⟩
    | some host' =>
      refine Or.inr ⟨fun hends => ?_, fun req hreq => Or.inl hreq, host', ep_of_turn hturn, rfl⟩
      rw [turn_eq_none_iff.mpr hends] at hturn
      cases hturn
  | msg cmd ans =>
    dsimp only [HostConn.serve, handleRequest] at h
    cases hout : dispatch lists cmd ans host s.aenReqList with
    | error fault =>
      rw [hout] at h
      cases h
    | ok out =>
      rw [hout] at h
      cases h
      obtain ⟨hep, hcount, hreqs⟩ := handles_dispatch hout
      have hiff : out.host.turn out.ret = none ↔ host.EndsOn out.ret := by
        rw [turn_eq_none_iff, HostConn.EndsOn, HostConn.EndsOn, hcount]
      cases hturn : out.host.turn out.ret with
      | none =>
        have hends := hiff.mp hturn
        refine Or.inl ⟨⟨out, hout, hends⟩, ?_, congrArg (fun o => replaceHost host.ep o s.hostList) hturn⟩
        -- A command that adds a request returns 0, and the connection stays.
        rcases hreqs with hreqs | ⟨hret, _⟩
        · exact hreqs
        · exact absurd hret hends.1
      | some host' =>
        have hstays : ¬host.Ends lists s.aenReqList (.msg cmd ans) := by
          rintro ⟨out', hout', hends⟩
          rw [hout] at hout'
          cases hout'
          rw [hiff.mpr hends] at hturn
          cases hturn
        refine Or.inr ⟨hstays, fun req hreq => ?_, host', (ep_of_turn hturn).trans hep,
          congrArg (fun o => replaceHost host.ep o s.hostList) hturn⟩
        have hreq : req ∈ out.aenReqList := hreq
        rcases hreqs with hreqs | ⟨_, hreqs⟩
        · exact Or.inl (hreqs ▸ hreq)
        · rw [hreqs] at hreq
          rcases List.mem_cons.mp hreq with rfl | hreq
          · exact Or.inr rfl
          · exact Or.inl hreq

theorem live_serve_iff (hlive : s.Live) (hhost : host ∈ s.hostList) (h : s.serve lists host polled = .ok s') :
    s'.Live ↔ (host.Ends lists s.aenReqList polled → ∀ req ∈ s.aenReqList, req.ep ≠ host.ep) := by
  rcases serve_cases h with ⟨hends, hreqs, hhosts⟩ | ⟨hstays, hreqs, host', hep, hhosts⟩
  · unfold State.Live
    rw [hreqs, hhosts]
    constructor
    · intro hlive' _ req hreq heq
      obtain ⟨h, hh, hhep⟩ := hlive' req hreq
      have hne := (List.mem_filter.mp hh).2
      simp only [ne_eq, decide_not, Bool.not_eq_true', decide_eq_false_iff_not] at hne
      exact hne (hhep.trans heq)
    · intro hclean req hreq
      obtain ⟨h, hh, hhep⟩ := hlive req hreq
      have hne : h.ep ≠ host.ep := fun heq => hclean hends req hreq (hhep.symm.trans heq)
      exact ⟨h, List.mem_filter.mpr ⟨hh, decide_eq_true hne⟩, hhep⟩
  · refine ⟨fun _ hends => absurd hends hstays, fun _ req hreq => ?_⟩
    rw [hhosts]
    -- The connection that the request is on is still there, with the host as it is after its turn.
    have hkept : ∀ h ∈ s.hostList, h.ep = req.ep →
        ∃ h ∈ s.hostList.map (fun h => if h.ep = host.ep then host' else h), h.ep = req.ep := by
      intro h hh hhep
      refine ⟨_, List.mem_map_of_mem hh, ?_⟩
      by_cases heq : h.ep = host.ep
      · rw [if_pos heq, hep, ← heq, hhep]
      · rw [if_neg heq, hhep]
    rcases hreqs req hreq with hold | hnew
    · obtain ⟨h, hh, hhep⟩ := hlive req hold
      exact hkept h hh hhep
    · exact hkept host hhost hnew.symm

end

/-! ## Runs -/

/-- A step keeps the requests to hosts that are connected exactly if it does not end a connection with a request pending. -/
theorem live_step_iff {s s' : State} {op : Op} (hlive : s.Live) (h : op.Step s s') : s'.Live ↔ op.Clean s := by
  cases op with
  | connect nqn =>
    obtain rfl : s' = s.connect nqn := h
    refine ⟨fun _ => trivial, fun _ req hreq => ?_⟩
    obtain ⟨host, hhost, hep⟩ := hlive req hreq
    exact ⟨host, List.mem_append_left _ hhost, hep⟩
  | serve host lists polled =>
    obtain ⟨hhost, hserve⟩ : host ∈ s.hostList ∧ s.serve lists host polled = .ok s' := h
    exact live_serve_iff hlive hhost hserve
  | notify change =>
    obtain rfl : s' = s.notify change := h
    refine ⟨fun _ => trivial, fun _ req hreq => ?_⟩
    exact hlive req (mem_of_mem_foldl_eraseP _ _ hreq)

/-- The states of the daemon's hosts, from when none is connected, in runs whose steps meet a condition. -/
def Serves (allowed : State → Op → Prop) (s : State) : Prop := Run Op.Step allowed {} s

/-- In a run in which every connection that ends has no request pending, every pending request is of a host that is connected. -/
theorem requests_live {s : State} (h : Serves (fun s op => op.Clean s) s) : s.Live := by
  refine Run.invariant h ?_ (fun s op s' hlive hclean hstep => (live_step_iff hlive hstep).mpr hclean)
  intro req hreq
  cases hreq

/-! ## Examples -/

def exampleAnswers : Answers :=
  { rmaRead := none, rmaWrite := true, malloc := some (.filled 0), allocKey := true, data := .filled 0 }

def asyncEventCmd : NvmeCommand := { opcode := nvmeAdminAsyncEvent, commandId := 1 }

def firstHost : HostConn := { ep := 1, nqn := "nqn.h", kato := retryCount, countdown := retryCount }

def withRequest : State :=
  { hostCounter := 2, hostList := [firstHost], aenReqList := [{ nqn := "nqn.h", ep := 1 }] }

/-- The poll of a connection that the other side has closed. -/
def enotconn : Int := 107

theorem serves_withRequest {allowed : State → Op → Prop} (hconnect : allowed {} (.connect "nqn.h"))
    (hserve : allowed ((({} : State).connect "nqn.h")) (.serve firstHost {} (.msg asyncEventCmd exampleAnswers))) :
    Serves allowed withRequest := by
  have hfirst : Op.Step (.connect "nqn.h") {} (({} : State).connect "nqn.h") := rfl
  have hsecond : Op.Step (.serve firstHost {} (.msg asyncEventCmd exampleAnswers)) (({} : State).connect "nqn.h") withRequest :=
    ⟨by decide, rfl⟩
  exact Run.next (Run.next Run.start hconnect hfirst) hserve hsecond

/-- A host that leaves a request and stays. -/
theorem requests_live_staying : withRequest.Live := by
  refine requests_live (serves_withRequest trivial ?_)
  rintro _ req hreq
  cases hreq

/-- A host leaves a request and its connection ends: the request is still pending, and its host is gone. -/
theorem requests_live_left_behind : ∃ s, Serves (fun _ _ => True) s ∧ ¬s.Live := by
  have hstep : Op.Step (.serve firstHost {} (.fails (-enotconn) (by decide))) withRequest { withRequest with hostList := [] } :=
    ⟨by decide, rfl⟩
  refine ⟨_, Run.next (serves_withRequest trivial trivial) trivial hstep, fun hlive => ?_⟩
  obtain ⟨host, hhost, _⟩ := hlive { nqn := "nqn.h", ep := 1 } (by decide)
  cases hhost

end NvmeDem.PseudoTarget
