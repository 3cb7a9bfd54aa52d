import Mathlib.Logic.Function.Basic
import NvmeDem.Dem.Connections
import NvmeDem.Dem.Requests

/-!
# The work between requests

While it waits for requests the daemon ticks. At each tick it keeps the connections to each target alive and counts down to the
next refresh of the target; at zero it asks the target for its inventory and its log pages, and sets the count anew. A tick is
left out of the count when a connection was lost, and so are the ticks of the wait that follows.

The counts belong to the record of a target (`Timer`), by its address. The start of the daemon sets them for the targets it
loads; a target that is added later has zeroes there. What becomes of the connection for in-band management when a request uses
it makes no difference here.
-/

namespace NvmeDem

open Jansson

namespace Periodic

def minutes : Int := 60 * 1000
def logPageRetry : Nat := 200

structure Timer where
  conn : Conn.Target := { inBand := false }
  refreshCountdown : Int := 0
  logPageRetryCount : Nat := 0
  deriving DecidableEq, Repr

/-- `refresh * MINUTES / IDLE_TIMEOUT`, in the integers of C. -/
def refreshTicks (refresh : Int) : Int := (cInt (refresh * minutes)).tdiv Conn.idleTimeout

/-- What the transport answers to a target's turn in a tick. -/
structure Turn where
  keepAlive : Conn.KeepAlive
  visits : Nat → Conn.Visit

/-- Whether `keep_alive_work` returns an error: a connection was lost. -/
def keepAliveLost (k : Conn.KeepAlive) (target : Conn.Target) : Bool :=
  decide (target.katoCountdown - 1 ≤ 0) && (Conn.keepAliveQueues k.answer 0 target.discoveryQueueList).1

/-- Whether a refresh finds a queue that it cannot connect. -/
def connectFails (v : Conn.Visit) (dq : Conn.Queue) : Bool :=
  !dq.connected && v.available && decide ((Conn.connectCtrl v.connect dq).1 ≠ 0)

def Timer.refreshLogPages (visits : Nat → Conn.Visit) (t : Timer) : Timer :=
  { t with
    conn := { t.conn with discoveryQueueList := Conn.refreshLogPages visits t.conn.discoveryQueueList }
    logPageRetryCount :=
      if t.conn.discoveryQueueList.zipIdx.any (fun dq => connectFails (visits dq.2) dq.1) then logPageRetry
      else t.logPageRetryCount }

/-- A target's turn in a tick, and whether its count comes to zero there. -/
def Timer.tick (refresh : Int) (turn : Turn) (t : Timer) : Bool × Timer :=
  let lost := keepAliveLost turn.keepAlive t.conn
  let t := { t with conn := Conn.keepAliveWork turn.keepAlive t.conn }
  if lost then (false, { t with logPageRetryCount := logPageRetry })
  else if 1 < t.logPageRetryCount then (false, { t with logPageRetryCount := t.logPageRetryCount - 1 })
  else
    let t := { t with
      logPageRetryCount := t.logPageRetryCount - 1
      refreshCountdown := cInt (t.refreshCountdown - 1) }
    if t.refreshCountdown ≠ 0 then (false, t)
    else (true, { t.refreshLogPages turn.visits with refreshCountdown := refreshTicks refresh })

/-! ## The daemon with its timers -/

structure Clock where
  dem : Daemon
  timer : Nat → Timer

/-- The timers after the start, with the queues that the start made. -/
def initTimer (queues : Nat → List Conn.Queue) (target : Target) : Timer where
  conn := { inBand := target.mgmtMode == .inBandMgmt, discoveryQueueList := queues target.ptr }
  refreshCountdown := refreshTicks target.refresh
  logPageRetryCount := logPageRetry

def startClock (d : Daemon) (queues : Nat → List Conn.Queue) : Clock where
  dem := d
  timer ptr := ((d.lists.targetList.find? (fun t => t.ptr == ptr)).map (initTimer queues)).getD {}

/-- What a request allocates is zero. -/
def Clock.alloc (c : Clock) (w : World) : Nat → Timer := Function.update c.timer w.addr {}

def turnOf (timer : Nat → Timer) (turns : Nat → Turn) (target : Target) : Bool × Timer :=
  let t := timer target.ptr
  let conn := { t.conn with inBand := target.mgmtMode == .inBandMgmt }
  { t with conn := conn }.tick target.refresh (turns target.ptr)

/-- The turn of one target: its timer, and its inventory if it is due. -/
def periodicTarget (J : JsonLib) (w : World) (turns : Nat → Turn) (acc : Json × List Target × (Nat → Timer)) (target : Target) :
    Except Fault (Json × List Target × (Nat → Timer)) := do
  let (root, list, timer) := acc
  let (due, t) := turnOf timer turns target
  let timer := Function.update timer target.ptr t
  if due then
    let (_, root, target) ← getConfig J w root target
    return (root, list ++ [target], timer)
  else return (root, list ++ [target], timer)

def periodicWork (J : JsonLib) (w : World) (turns : Nat → Turn) (c : Clock) : Except Fault Clock := do
  let (root, targetList, timer) ← c.dem.lists.targetList.foldlM (periodicTarget J w turns) (c.dem.root, [], c.timer)
  return { dem := { root := root, lists := { c.dem.lists with targetList := targetList }.withLogs w }, timer := timer }

/-! ## Steps -/

inductive ClockOp where
  | addTarget (w : World) (tgt : Option String)
  | updateTarget (w : World) (tgt : Option String) (data : String)
  | periodicWork (w : World) (turns : Nat → Turn)

/-- A step is a request, for which new memory is found, or a tick. -/
def clockStep (J : JsonLib) (op : ClockOp) (c c' : Clock) : Prop :=
  match op with
  | .addTarget w tgt =>
    w.Fresh c.dem ∧ ∃ a, NvmeDem.addTarget w c.dem tgt = .ok a ∧ c' = { dem := a.dem, timer := c.alloc w }
  | .updateTarget w tgt data =>
    w.Fresh c.dem ∧ ∃ a, NvmeDem.updateTarget J w c.dem tgt data = .ok a ∧ c' = { dem := a.dem, timer := c.alloc w }
  | .periodicWork w turns => Periodic.periodicWork J w turns c = .ok c'

end Periodic

end NvmeDem
