import NvmeDem.Dem.Notify
import NvmeDem.Dem.PseudoTarget
import NvmeDem.Lib.Run

/-!
# The hosts that are connected

A thread of the daemon serves the connections of the hosts, and every change of the configuration answers async-event requests that
are pending. `PseudoTarget.State` has what the two share: the hosts that are connected, the requests that are pending, and which
connection is the next. A step is one new connection, one turn of the loop for one host, or one change with its notifications; the
configuration that a step finds is any.
-/

namespace NvmeDem.PseudoTarget

/-! ## Notifications -/

/-- The request that the notification of an NQN takes: its first on the list. -/
def EventRequest.isFor (nqn : String) (req : EventRequest) : Bool := req.nqn == nqn

/-- The connections that are sent a notification, and the requests that are still pending after it. -/
def sendNotifications (list : List EventNotification) (reqs : List EventRequest) : List Nat × List EventRequest :=
  (list.filterMap (fun entry => (reqs.find? (EventRequest.isFor entry.nqn)).map EventRequest.ep),
    list.foldl (fun reqs entry => reqs.eraseP (EventRequest.isFor entry.nqn)) reqs)

/-- A change of the configuration, by what it is a change of. -/
inductive Change where
  | subsys (changed : Subsystem)
  | group (lists : Lists) (isGroup : GroupHostLink → Bool) (changed : Target)
  | target (changed : Target)
  | host (nqn : String)

/-- The hosts that are told of a change. -/
def Change.eventHostList (reqs : List String) : Change → List EventNotification
  | .subsys changed => createEventHostListForSubsys reqs changed
  | .group lists isGroup changed => createEventHostListForGroup { lists with aenReqList := reqs } isGroup changed
  | .target changed => createEventHostListForTarget reqs changed
  | .host nqn => createEventHostListForHost reqs nqn

/-! ## The host thread -/

structure State where
  hostCounter : Nat := 1
  hostList : List HostConn := []
  aenReqList : List EventRequest := []
  deriving DecidableEq, Repr

/-- What a poll of a connection finds. -/
inductive Polled where
  | msg (cmd : NvmeCommand) (ans : Answers)
  /-- No message: there is none yet, or the transport has an error. -/
  | fails (ret : Int) (h : ret ≠ 0)

def eagain : Int := 11

/-- The end of a turn with a host: it stays, with the countdown it has then, or is disconnected. -/
def HostConn.turn (host : HostConn) (ret : Int) : Option HostConn :=
  if ret = 0 then some { host with countdown := host.kato }
  else if ret = -eagain ∧ host.countdown - 1 > 0 then some { host with countdown := host.countdown - 1 }
  else none

/-- A turn with a host: its message is handled, if it has one. -/
def HostConn.serve (lists : Lists) (reqs : List EventRequest) (host : HostConn) :
    Polled → Except Fault (Option HostConn × List EventRequest)
  | .msg cmd ans => (handleRequest lists cmd ans host reqs).map (fun out => (out.1.host.turn out.1.ret, out.1.aenReqList))
  | .fails ret _ => .ok (host.turn ret, reqs)

/-- The hosts after a turn with the one on a connection. -/
def replaceHost (ep : Nat) (host : Option HostConn) (list : List HostConn) : List HostConn :=
  match host with
  | some host => list.map (fun h => if h.ep = ep then host else h)
  | none => list.filter (fun h => h.ep ≠ ep)

/-- A new connection. A host that has not said its NQN yet goes by a number. -/
def State.connect (s : State) (nqn : String) : State :=
  { s with
    hostCounter := s.hostCounter + 1
    hostList := s.hostList ++
      [{ ep := s.hostCounter
         nqn := if nqn = "" then "new host inst " ++ toString s.hostCounter else nqn
         kato := retryCount
         countdown := retryCount }] }

def State.serve (s : State) (lists : Lists) (host : HostConn) (polled : Polled) : Except Fault State :=
  (host.serve lists s.aenReqList polled).map (fun out =>
    { s with hostList := replaceHost host.ep out.1 s.hostList, aenReqList := out.2 })

def State.notify (s : State) (change : Change) : State :=
  { s with
    aenReqList := (sendNotifications (change.eventHostList (s.aenReqList.map EventRequest.nqn)) s.aenReqList).2 }

inductive Op where
  | connect (nqn : String)
  | serve (host : HostConn) (lists : Lists) (polled : Polled)
  | notify (change : Change)

/-- A step. Only a host that is connected has a turn, and a command that makes the daemon fault has no step. -/
def Op.Step (op : Op) (s s' : State) : Prop :=
  match op with
  | .connect nqn => s' = s.connect nqn
  | .serve host lists polled => host ∈ s.hostList ∧ s.serve lists host polled = .ok s'
  | .notify change => s' = s.notify change

/-- Where a turn that comes to `ret` ends the connection: at any error but that there is nothing to read yet, and at that when the
countdown is over. -/
def HostConn.EndsOn (host : HostConn) (ret : Int) : Prop := ret ≠ 0 ∧ (ret ≠ -eagain ∨ host.countdown ≤ 1)

/-- Where the turn of a host ends its connection. -/
def HostConn.Ends (lists : Lists) (reqs : List EventRequest) (host : HostConn) : Polled → Prop
  | .msg cmd ans => ∃ out, dispatch lists cmd ans host reqs = .ok out ∧ host.EndsOn out.ret
  | .fails ret _ => host.EndsOn ret

/-! ## What a turn does -/

theorem turn_eq_none_iff {host : HostConn} {ret : Int} : host.turn ret = none ↔ host.EndsOn ret := by
  unfold HostConn.turn HostConn.EndsOn
  by_cases h0 : ret = 0
  · simp [h0]
  · rw [if_neg h0]
    by_cases ha : ret = -eagain ∧ host.countdown - 1 > 0
    · rw [if_pos ha]
      have hgt : ¬host.countdown ≤ 1 := by omega
      simp [ha.1, hgt]
    · rw [if_neg ha]
      refine ⟨fun _ => ⟨h0, ?_⟩, fun _ => rfl⟩
      by_cases hr : ret = -eagain
      · exact Or.inr (by have := fun h => ha ⟨hr, h⟩; omega)
      · exact Or.inl hr

theorem ep_of_turn {host host' : HostConn} {ret : Int} (h : host.turn ret = some host') : host'.ep = host.ep := by
  unfold HostConn.turn at h
  split at h
  · cases h
    rfl
  · split at h
    · cases h
      rfl
    · cases h

/-- What a handled command leaves of the host, and what it adds to the requests. -/
structure Handles (host : HostConn) (reqs : List EventRequest) (out : Handled) : Prop where
  ep : out.host.ep = host.ep
  countdown : out.host.countdown = host.countdown
  reqs : out.aenReqList = reqs ∨ (out.ret = 0 ∧ out.aenReqList = { nqn := host.nqn, ep := host.ep } :: reqs)

section

variable {lists : Lists} {cmd : NvmeCommand} {ans : Answers} {host : HostConn} {reqs : List EventRequest}

theorem handles_handleConnect : Handles host reqs (handleConnect cmd ans host reqs) := by
  unfold handleConnect
  cases ans.rmaRead with
  | none => exact ⟨rfl, rfl, Or.inl rfl⟩
  | some data => exact ⟨rfl, rfl, Or.inl rfl⟩

theorem handles_handleAsyncEvent : Handles host reqs (handleAsyncEvent ans host reqs) := by
  unfold handleAsyncEvent
  cases ans.malloc with
  | none => exact ⟨rfl, rfl, Or.inl rfl⟩
  | some _ => exact ⟨rfl, rfl, Or.inr ⟨rfl, rfl⟩⟩

theorem handles_rmaWrite (bytes : List UInt8) : Handles host reqs (rmaWrite ans host reqs bytes) := ⟨rfl, rfl, Or.inl rfl⟩

theorem handles_dispatch {out : Handled} (h : dispatch lists cmd ans host reqs = .ok out) : Handles host reqs out := by
  have hmap : ∀ {α : Type} (x : Except Fault α) (f : α → List UInt8),
      x.map (fun a => rmaWrite ans host reqs (f a)) = .ok out → Handles host reqs out := by
    intro α x f hx
    cases x with
    | error fault => cases hx
    | ok a =>
      cases hx
      exact handles_rmaWrite _
  unfold dispatch at h
  split at h
  · split at h
    · cases h
      unfold handlePropertySet
      split <;> exact ⟨rfl, rfl, Or.inl rfl⟩
    · split at h
      · cases h
        unfold handlePropertyGet
        repeat' split
        all_goals exact ⟨rfl, rfl, Or.inl rfl⟩
      · split at h
        · cases h
          exact handles_handleConnect
        · cases h
          exact ⟨rfl, rfl, Or.inl rfl⟩
  · split at h
    · cases h
      unfold handleIdentify
      split
      · exact ⟨rfl, rfl, Or.inl rfl⟩
      · exact handles_rmaWrite _
    · split at h
      · cases h
        exact ⟨rfl, rfl, Or.inl rfl⟩
      · split at h
        · split at h
          · exact hmap _ _ h
          · unfold handleGetLogPages at h
            split at h
            · cases h
              exact ⟨rfl, rfl, Or.inl rfl⟩
            · split at h
              · cases h
                exact ⟨rfl, rfl, Or.inl rfl⟩
              · exact hmap _ _ h
        · split at h
          · cases h
            unfold handleGetFeatures
            repeat' split
            all_goals exact ⟨rfl, rfl, Or.inl rfl⟩
          · split at h
            · cases h
              unfold handleSetFeatures
              repeat' split
              all_goals exact ⟨rfl, rfl, Or.inl rfl⟩
            · split at h
              · cases h
                exact handles_handleAsyncEvent
              · cases h
                exact ⟨rfl, rfl, Or.inl rfl⟩

end

end NvmeDem.PseudoTarget
