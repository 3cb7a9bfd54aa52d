import NvmeDem.Lib.Bytes
import NvmeDem.Lib.Run
import Mathlib.Logic.Function.Basic

/-!
# Receiving over RDMA

An endpoint posts a pool of buffers, each a page. A message that arrives goes into the buffer that was posted first, and the receive
queue is told of it; the reader polls the queue, reads the buffer where it is, and posts it again. Where no buffer is posted, the
sender has to try again; a message that does not fit, or anything else that breaks the connection, gives back what is still posted
with an error.

`Conn` is an endpoint with its reader. What arrived and what the reader has dealt with are kept in it for the sake of what is said
about them.
-/

namespace NvmeDem.Rdma

def pageSize : Nat := 4096

def eagain : Int := 11
def econnreset : Int := 104

/-- An entry of the receive queue: the buffer, whether it holds a message, and the length of that. -/
structure Wc where
  qe : Nat
  success : Bool
  byteLen : Nat
  deriving DecidableEq, Repr

/-- What the receiving side of an endpoint keeps: what the buffers hold, those that are posted, and the receive queue. -/
structure Ep where
  buf : Nat → Mem
  posted : List Nat
  rcq : List Wc
  failed : Bool

/-! ## The endpoint -/

/-- Buffers that are cleared and posted. -/
def createQueueRecvPool (depth : Nat) : Ep :=
  { buf := fun _ => Mem.filled 0, posted := List.range depth, rcq := [], failed := false }

/-- A broken connection gives a buffer back at once. -/
def Ep.postRecv (qe : Nat) (ep : Ep) : Ep :=
  if ep.failed then { ep with rcq := ep.rcq ++ [⟨qe, false, 0⟩] } else { ep with posted := ep.posted ++ [qe] }

/-- The buffer is cleared and posted. -/
def repostRecv (qe : Nat) (ep : Ep) : Ep :=
  Ep.postRecv qe { ep with buf := Function.update ep.buf qe ((ep.buf qe).write 0 (List.replicate pageSize 0)) }

/-- The return value, and the entry that was taken from the queue. -/
def pollForMsg (ep : Ep) : Int × Option Wc × Ep :=
  match ep.rcq with
  | [] => (-eagain, none, ep)
  | wc :: rcq => (if wc.success then 0 else -econnreset, some wc, { ep with rcq := rcq })

/-- A message goes into a buffer that was posted. -/
def Ep.receive (qe : Nat) (posted : List Nat) (msg : List UInt8) (ep : Ep) : Ep :=
  { ep with
    buf := Function.update ep.buf qe ((ep.buf qe).write 0 msg), posted := posted, rcq := ep.rcq ++ [⟨qe, true, msg.length⟩] }

/-- The connection breaks. -/
def Ep.fail (ep : Ep) : Ep :=
  { ep with failed := true, posted := [], rcq := ep.rcq ++ ep.posted.map (fun qe => ⟨qe, false, 0⟩) }

/-! ## The reader -/

/-- What a reader finds: the page, and the length of the message. -/
abbrev Found : Type := List UInt8 × Nat

/-- What is in the buffer of an entry. -/
def view (buf : Nat → Mem) (wc : Wc) : Found := ((buf wc.qe).read 0 pageSize, wc.byteLen)

/-- An endpoint and its reader, who may hold an entry. Of the buffers, the reader has let some go, and the connection has given some
back. -/
structure Conn where
  ep : Ep
  held : Option Wc
  lost : List Nat
  flushed : List Nat
  arrived : List (List UInt8)
  handled : List Found

def start (depth : Nat) : Conn :=
  { ep := createQueueRecvPool depth, held := none, lost := [], flushed := [], arrived := [], handled := [] }

inductive Event where
  /-- The peer sends a message. -/
  | arrives (msg : List UInt8)
  | breaks
  | polls
  | finishes

/-- A server posts every buffer again when it has answered the command in it. -/
def handleRequest : Nat → Bool := fun _ => true

def sizeofCompletion : Nat := 16

/-- A client returns early on a response of another length. -/
def processNvmeRsp : Nat → Bool := fun bytes => bytes == sizeofCompletion

/-- What an event leads to, if it can happen, for a reader who posts a buffer again after messages of the lengths that `reposts` tells.
The reader looks for the next message when it is through with one. -/
def step (reposts : Nat → Bool) (c : Conn) : Event → Option Conn
  | .arrives msg =>
    match c.ep.posted with
    | [] => none
    | qe :: posted =>
      if msg.length ≤ pageSize then some { c with ep := c.ep.receive qe posted msg, arrived := c.arrived ++ [msg] }
      else some { c with ep := c.ep.fail }
  | .breaks => if c.ep.failed then none else some { c with ep := c.ep.fail }
  | .polls =>
    if c.held.isSome then none
    else
      match pollForMsg c.ep with
      | (_, none, ep) => some { c with ep := ep }
      | (ret, some wc, ep) =>
        some (if ret = 0 then { c with ep := ep, held := some wc } else { c with ep := ep, flushed := c.flushed ++ [wc.qe] })
  | .finishes =>
    match c.held with
    | none => none
    | some wc =>
      let c := { c with held := none, handled := c.handled ++ [view c.ep.buf wc] }
      some (if reposts wc.byteLen then { c with ep := repostRecv wc.qe c.ep } else { c with lost := c.lost ++ [wc.qe] })

/-- The states that a connection comes to. -/
def Reaches (reposts : Nat → Bool) (depth : Nat) (c : Conn) : Prop :=
  Run (fun e c c' => step reposts c e = some c') (fun _ _ => True) (start depth) c

end NvmeDem.Rdma
