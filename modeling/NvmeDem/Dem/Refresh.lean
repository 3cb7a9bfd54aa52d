import NvmeDem.Dem.Periodic

/-!
# Refreshing the log pages of a target

A refresh marks the pages of each subsystem and throws away those of subsystems that the target does not have; then each queue that is
connected, or can be, fetches a log. An entry of a log goes over the page of its subsystem with the same address, or behind the others.
An entry for no subsystem is kept apart, unless there is one like it. A page that nothing came in for stays, and is not valid.

`World.logs` says of a request what came in; `refreshLogPages_target` says what comes in with a refresh.
-/

namespace NvmeDem.Refresh

open Conn

/-- A discovery queue: the address of its port, the place of its subsystem among those of the target, and its connection. -/
structure DiscoveryQueue where
  portid : Nat
  subsys : Option Nat
  conn : Conn.Queue
  deriving DecidableEq, Repr

/-- The log pages of a target: those of its subsystems, and those kept apart. -/
structure TargetPages where
  target : Target
  unattachedLogpageList : List Logpage := []

/-- A target as far as its log pages go. -/
structure LogTarget extends TargetPages where
  discoveryQueueList : List DiscoveryQueue := []
  logPageRetryCount : Nat := 0

/-- What a refresh meets at a queue: how it connects, and the log it reads, if it does. With an entry goes whether there is memory for
a page. -/
structure Visit where
  connect : Transport
  log : Option (List (LogEntry × Bool))

def delUnattachedLogpageList (t : TargetPages) : TargetPages := { t with unattachedLogpageList := [] }

def invalidateLogPages (t : TargetPages) : TargetPages :=
  delUnattachedLogpageList
    { t with target := { t.target with subsysList := t.target.subsysList.map Subsystem.invalidateLogPages } }

def storeLogpage (e : LogEntry) (portid : Nat) : Logpage := { portid := portid, e := e, valid := true }

/-- Whether a page is kept apart for the same entry. -/
def matchUnattached (e : LogEntry) (lp : Logpage) : Bool := lp.e.subnqn == e.subnqn && lp.matchLogpage e

/-- Without memory for a page the rest of the log is left. -/
def saveLogPages (portid : Nat) : List (LogEntry × Bool) → TargetPages → TargetPages
  | [], t => t
  | (e, mem) :: log, t =>
    match findSubsys t.target e.subnqn with
    | some subsys =>
      -- Only a new page of a subsystem needs memory.
      if mem || subsys.logpageList.any (fun p => p.matchLogpage e) then
        saveLogPages portid log { t with target := t.target.onSubsys e.subnqn (Subsystem.saveLogPage portid e) }
      else t
    | none =>
      if !mem then t
      else if t.unattachedLogpageList.any (matchUnattached e) then saveLogPages portid log t
      else
        saveLogPages portid log
          { t with unattachedLogpageList := t.unattachedLogpageList ++ [storeLogpage e portid] }

def fetchLogPages (v : Visit) (dq : DiscoveryQueue) (t : TargetPages) : TargetPages :=
  match v.log with
  | none => t
  | some log => saveLogPages dq.portid log t

def targetWithAllowAnySubsys (target : Target) : Bool := target.subsysList.any (fun subsys => !subsys.isRestricted)

def avilableDq (target : Target) (dq : DiscoveryQueue) : Bool :=
  match dq.subsys with
  | none => targetWithAllowAnySubsys target
  | some i => (target.subsysList[i]?).any (fun subsys => !subsys.hostList.isEmpty)

/-- One round of the loop over the queues. -/
def visitQueue (v : Visit) (dq : DiscoveryQueue) (t : LogTarget) : DiscoveryQueue × LogTarget :=
  if dq.conn.connected then
    ({ dq with conn := endFetch dq.conn }, { t with toTargetPages := fetchLogPages v dq t.toTargetPages })
  else if !avilableDq t.target dq then (dq, t)
  else
    let (ret, conn) := connectCtrl v.connect dq.conn
    if ret ≠ 0 then ({ dq with conn := conn }, { t with logPageRetryCount := Periodic.logPageRetry })
    else ({ dq with conn := endFetch conn }, { t with toTargetPages := fetchLogPages v dq t.toTargetPages })

/-- The loop over the queues, from the one with the number `i` on. -/
def visitQueues (visits : Nat → Visit) (i : Nat) : List DiscoveryQueue → LogTarget → List DiscoveryQueue × LogTarget
  | [], t => ([], t)
  | dq :: rest, t =>
    let (dq, t) := visitQueue (visits i) dq t
    let (rest, t) := visitQueues visits (i + 1) rest t
    (dq :: rest, t)

def refreshLogPages (visits : Nat → Visit) (t : LogTarget) : LogTarget :=
  let (queues, t) :=
    visitQueues visits 0 t.discoveryQueueList { t with toTargetPages := invalidateLogPages t.toTargetPages }
  { t with discoveryQueueList := queues }

/-! ## What comes in -/

/-- Whether a queue fetches a log: it is connected, or there is something to ask for and it connects. -/
def fetches (v : Visit) (target : Target) (dq : DiscoveryQueue) : Bool :=
  dq.conn.connected || (avilableDq target dq && decide ((connectCtrl v.connect dq.conn).1 = 0))

/-- The log that comes in through a queue. -/
def logOf (v : Visit) (target : Target) (dq : DiscoveryQueue) : List (LogEntry × Bool) :=
  if fetches v target dq then v.log.getD [] else []

/-- The pages that come in through the queues, one after the other, from the queue with the number `i` on. -/
def receivedFrom (visits : Nat → Visit) (target : Target) (i : Nat) : List DiscoveryQueue → List Logpage
  | [] => []
  | dq :: rest =>
    (logOf (visits i) target dq).map (fun x => storeLogpage x.1 dq.portid) ++ receivedFrom visits target (i + 1) rest

/-- The pages that a refresh of a target receives. -/
def received (visits : Nat → Visit) (t : LogTarget) : List Logpage := receivedFrom visits t.target 0 t.discoveryQueueList

/-! ## A round of the loop -/

variable {v : Visit} {visits : Nat → Visit} {dq : DiscoveryQueue} {t : LogTarget} {portid : Nat}

/-- What a refresh does not look at of a subsystem's pages: who is let in. -/
def accessOf (target : Target) : List (Int × List Host) := target.subsysList.map (fun s => (s.access, s.hostList))

theorem avilableDq_congr {target target' : Target} (h : accessOf target' = accessOf target) (dq : DiscoveryQueue) :
    avilableDq target' dq = avilableDq target dq := by
  unfold avilableDq
  split
  · have hany : ∀ target : Target, targetWithAllowAnySubsys target = (accessOf target).any (fun a => !(a.1 == restricted)) := by
      intro target
      simp only [targetWithAllowAnySubsys, accessOf, List.any_map, Function.comp_def, Subsystem.isRestricted]
    rw [hany, hany, h]
  · rename_i i _
    have hget : ∀ target : Target, (target.subsysList[i]?).any (fun s => !s.hostList.isEmpty) =
        ((accessOf target)[i]?).any (fun a => !a.2.isEmpty) := by
      intro target
      unfold accessOf
      rw [List.getElem?_map]
      cases target.subsysList[i]? <;> rfl
    rw [hget, hget, h]

theorem fetches_congr {target target' : Target} (h : accessOf target' = accessOf target) (v : Visit) (dq : DiscoveryQueue) :
    fetches v target' dq = fetches v target dq := by
  unfold fetches
  rw [avilableDq_congr h]

theorem accessOf_invalidateLogPages (t : TargetPages) : accessOf (invalidateLogPages t).target = accessOf t.target := by
  unfold invalidateLogPages delUnattachedLogpageList accessOf
  rw [List.map_map]
  rfl

theorem accessOf_onSubsys (target : Target) (nqn : String) (portid : Nat) (e : LogEntry) :
    accessOf (target.onSubsys nqn (Subsystem.saveLogPage portid e)) = accessOf target :=
  Keyed.map_modifyFirst_same (g := Subsystem.saveLogPage portid e) (fun _ => rfl) target.subsysList

theorem accessOf_saveLogPages (log : List (LogEntry × Bool)) (t : TargetPages) :
    accessOf (saveLogPages portid log t).target = accessOf t.target := by
  induction log generalizing t with
  | nil => rfl
  | cons x log ih =>
    obtain ⟨e, mem⟩ := x
    unfold saveLogPages
    split
    · split
      · rw [ih, accessOf_onSubsys]
      · rfl
    · split
      · rfl
      · split
        · exact ih t
        · rw [ih]

/-- The pages that a round leaves are those that the log of the queue leaves. -/
theorem pages_visitQueue (v : Visit) (dq : DiscoveryQueue) (t : LogTarget) :
    (visitQueue v dq t).2.toTargetPages = saveLogPages dq.portid (logOf v t.target dq) t.toTargetPages := by
  have hfetch : fetchLogPages v dq t.toTargetPages = saveLogPages dq.portid (v.log.getD []) t.toTargetPages := by
    unfold fetchLogPages
    cases v.log <;> rfl
  unfold visitQueue logOf fetches
  cases hc : dq.conn.connected with
  | true => simp [hfetch]
  | false =>
    cases ha : avilableDq t.target dq with
    | false => simp [saveLogPages]
    | true =>
      by_cases hret : (connectCtrl v.connect dq.conn).1 = 0
      · simp [hret, hfetch]
      · simp [hret, saveLogPages]

/-- The queue and the count that a round leaves. -/
theorem queue_visitQueue (v : Visit) (dq : DiscoveryQueue) (t : LogTarget) :
    let v' : Conn.Visit := { available := avilableDq t.target dq, connect := v.connect }
    (visitQueue v dq t).1.conn = refreshQueue v' dq.conn ∧
      (visitQueue v dq t).2.logPageRetryCount =
        if Periodic.connectFails v' dq.conn then Periodic.logPageRetry else t.logPageRetryCount := by
  unfold visitQueue refreshQueue Periodic.connectFails connectAndFetch
  dsimp only
  cases hc : dq.conn.connected with
  | true => simp
  | false =>
    cases ha : avilableDq t.target dq with
    | false => simp
    | true =>
      by_cases hret : (connectCtrl v.connect dq.conn).1 = 0
      · simp [hret]
      · simp [hret]

/-! ## The loop -/

/-- The logs of the queues are saved one after the other, from the queue with the number `i` on. -/
def saveFrom (visits : Nat → Visit) (target : Target) (i : Nat) : List DiscoveryQueue → TargetPages → TargetPages
  | [], t => t
  | dq :: rest, t => saveFrom visits target (i + 1) rest (saveLogPages dq.portid (logOf (visits i) target dq) t)

theorem pages_visitQueues {target : Target} {i : Nat} {queues : List DiscoveryQueue} (h : accessOf t.target = accessOf target) :
    (visitQueues visits i queues t).2.toTargetPages = saveFrom visits target i queues t.toTargetPages := by
  induction queues generalizing i t with
  | nil => rfl
  | cons dq rest ih =>
    have hpages := pages_visitQueue (visits i) dq t
    have hlog : logOf (visits i) t.target dq = logOf (visits i) target dq := by
      unfold logOf
      rw [fetches_congr h]
    rw [hlog] at hpages
    have haccess : accessOf (visitQueue (visits i) dq t).2.target = accessOf target := by
      rw [hpages, accessOf_saveLogPages, h]
    rw [visitQueues, saveFrom, ← hpages]
    exact ih haccess

/-- What a refresh makes of the pages. -/
theorem pages_refreshLogPages (visits : Nat → Visit) (t : LogTarget) :
    (refreshLogPages visits t).toTargetPages =
      saveFrom visits t.target 0 t.discoveryQueueList (invalidateLogPages t.toTargetPages) := by
  exact pages_visitQueues (t := { t with toTargetPages := invalidateLogPages t.toTargetPages }) (accessOf_invalidateLogPages _)

end NvmeDem.Refresh
