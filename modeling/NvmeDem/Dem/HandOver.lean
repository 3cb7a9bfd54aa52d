import NvmeDem.Lib.Ring

/-!
# How an endpoint gets to the host thread

The interface thread accepts hosts and hands their endpoints over to the host thread, in a queue that the two share without a lock.
Here the two threads take turns at single reads and writes of `ep[]`, `head` and `tail`, in program order; a comparison of `head`
and `tail` may read either of them first. Every assignment that names `q->head` or `q->tail` reads it again.

Beside the queue the state keeps two lists that the program does not have: the endpoints that were queued, which an endpoint is
from the write of `head` on, and what the host thread read from the queue.

An endpoint is any pointer that is not NULL. `src/endpoint/pseudo_target.c` has the same functions.
-/

namespace NvmeDem.HandOver

def hostQueueMax : Nat := 3

structure HostQueue (α : Type) where
  ep : List (Option α)
  tail : Nat
  head : Nat

/-- Where the interface thread is. A comparison has what was read of its two operands so far. -/
inductive InterfaceThread (α : Type) where
  | waitForConnection
  /-- `is_full`, in the loop of `add_host_to_queue` or, after it, in `add_new_host_conn`. -/
  | isFull (loop : Bool) (ep : α) (head tail : Option Nat)
  /-- `q->ep[q->head] = ep` -/
  | setEp (ep : α)
  | writeEp (ep : α) (head : Nat)
  /-- `q->head = (q->head + 1) % HOST_QUEUE_MAX` -/
  | setHead (ep : α)
  | writeHead (ep : α) (head : Nat)

/-- Where the host thread is, in `get_new_host_conn`. -/
inductive HostThread where
  | isEmpty (head tail : Option Nat)
  /-- `if (!q->ep[q->tail])` -/
  | testEp
  | readTestEp (tail : Nat)
  /-- `*ep = q->ep[q->tail]` -/
  | getEp
  | readEp (tail : Nat)
  /-- `q->ep[q->tail] = NULL` -/
  | clearEp
  | writeNull (tail : Nat)
  /-- `q->tail = (q->tail + 1) % HOST_QUEUE_MAX` -/
  | setTail
  | writeTail (tail : Nat)

structure State (α : Type) where
  q : HostQueue α
  interface : InterfaceThread α
  host : HostThread
  queued : List α
  received : List (Option α)

/-- The queue is cleared before the host thread is created. -/
def start (α : Type) : State α where
  q := { ep := List.replicate hostQueueMax none, tail := 0, head := 0 }
  interface := .waitForConnection
  host := .isEmpty none none
  queued := []
  received := []

variable {α : Type}

/-- The element of `ep[]` at a place. -/
def HostQueue.get (q : HostQueue α) (i : Nat) : Option α := q.ep[i]?.join

/-- The end of `is_full`. When the daemon is being stopped the loop is left although the queue is full, and an endpoint that finds
the queue full after the loop is not queued. -/
def decideFull (loop : Bool) (ep : α) (head tail : Nat) (stopped : Bool) : InterfaceThread α :=
  if (head + 1) % hostQueueMax = tail then
    if loop then if stopped then .isFull false ep none none else .isFull true ep none none
    else .waitForConnection
  else if loop then .isFull false ep none none
  else .setEp ep

/-- One step of the interface thread. `ep` is the endpoint that the next connection gets. -/
def interfaceStep (s : State α) (ep : α) (stopped tailFirst : Bool) : State α :=
  match s.interface with
  | .waitForConnection => { s with interface := .isFull true ep none none }
  | .isFull loop ep none none =>
    if tailFirst then { s with interface := .isFull loop ep none (some s.q.tail) }
    else { s with interface := .isFull loop ep (some s.q.head) none }
  | .isFull loop ep (some head) none => { s with interface := .isFull loop ep (some head) (some s.q.tail) }
  | .isFull loop ep none (some tail) => { s with interface := .isFull loop ep (some s.q.head) (some tail) }
  | .isFull loop ep (some head) (some tail) => { s with interface := decideFull loop ep head tail stopped }
  | .setEp ep => { s with interface := .writeEp ep s.q.head }
  | .writeEp ep head => { s with q := { s.q with ep := s.q.ep.set head (some ep) }, interface := .setHead ep }
  | .setHead ep => { s with interface := .writeHead ep s.q.head }
  | .writeHead ep head =>
    { s with
      q := { s.q with head := (head + 1) % hostQueueMax }
      interface := .waitForConnection
      queued := s.queued ++ [ep] }

/-- The end of `is_empty`. -/
def decideEmpty (head tail : Nat) : HostThread := if head = tail then .isEmpty none none else .testEp

/-- The end of the test for NULL. -/
def decideNull : Option α → HostThread
  | none => .isEmpty none none
  | some _ => .getEp

/-- One step of the host thread. -/
def hostStep (s : State α) (tailFirst : Bool) : State α :=
  match s.host with
  | .isEmpty none none =>
    if tailFirst then { s with host := .isEmpty none (some s.q.tail) } else { s with host := .isEmpty (some s.q.head) none }
  | .isEmpty (some head) none => { s with host := .isEmpty (some head) (some s.q.tail) }
  | .isEmpty none (some tail) => { s with host := .isEmpty (some s.q.head) (some tail) }
  | .isEmpty (some head) (some tail) => { s with host := decideEmpty head tail }
  | .testEp => { s with host := .readTestEp s.q.tail }
  | .readTestEp tail => { s with host := decideNull (s.q.get tail) }
  | .getEp => { s with host := .readEp s.q.tail }
  | .readEp tail => { s with host := .clearEp, received := s.received ++ [s.q.get tail] }
  | .clearEp => { s with host := .writeNull s.q.tail }
  | .writeNull tail => { s with q := { s.q with ep := s.q.ep.set tail none }, host := .setTail }
  | .setTail => { s with host := .writeTail s.q.tail }
  | .writeTail tail =>
    { s with q := { s.q with tail := (tail + 1) % hostQueueMax }, host := .isEmpty none none }

/-- Whose turn it is. -/
inductive Turn (α : Type) where
  | interface (ep : α) (stopped tailFirst : Bool)
  | host (tailFirst : Bool)

def step (s : State α) : Turn α → State α
  | .interface ep stopped tailFirst => interfaceStep s ep stopped tailFirst
  | .host tailFirst => hostStep s tailFirst

/-- A run: the threads take turns in any order. -/
def run (s : State α) (turns : List (Turn α)) : State α := turns.foldl step s

end NvmeDem.HandOver
