import NvmeDem.Fabric.Exchange

/-!
# Data that comes to the client

A client that waits for data of its command reads the header of a data PDU and then the data, as much as the header says and to the place
that the header says, in a loop. Here a read finds bytes that have come, of which it takes no more than is asked for, or fails; when all has
come that comes, the connection is at its end and a read returns zero bytes.

The loop is followed for some turns. What is written to the caller's buffer are the stores, each with its place.
-/

namespace NvmeDem.InlineRead

open Tcp (Piece field directionOf sizeofDataPdu eagain enodata)

/-- What a read finds, before the end of the connection. -/
inductive ReadResult where
  | bytes (piece : Piece)
  | error (errno : Int)
  deriving DecidableEq, Repr

/-- No `read` returns more bytes than this. -/
def maxRead : Nat := 0x7ffff000

/-- Bytes that were not taken, in front of what comes later. -/
def push (bytes : List UInt8) (rest : List ReadResult) : List ReadResult := if h : bytes = [] then rest else .bytes ⟨bytes, h⟩ :: rest

/-- One `read` of at most `n` bytes. -/
def read (n : Nat) : List ReadResult → Except Int (List UInt8) × List ReadResult
  | [] => (.ok [], [])
  | .error errno :: rest => (.error errno, rest)
  | .bytes piece :: rest => (.ok (piece.bytes.take (min n maxRead)), push (piece.bytes.drop (min n maxRead)) rest)

/-- What a call has done after some turns of its loop: what it returned, if it did, and the bytes it stored with their places. -/
structure Received where
  ret : Option Int
  stores : List (Nat × List UInt8) := []
  deriving DecidableEq, Repr

def Received.after (store : Nat × List UInt8) (out : Received) : Received := { out with stores := store :: out.stores }

/-- The loop of `tcp_inline_read`. Offset and length are 32-bit words. -/
def dataLoop : Nat → Nat → Nat → List ReadResult → Received
  | 0, _, _, _ => { ret := none }
  | turns + 1, offset, length, rest =>
    if length = 0 then { ret := some 0 }
    else
      match read length rest with
      | (.error errno, rest) => if errno = eagain then dataLoop turns offset length rest else { ret := some (-errno) }
      | (.ok bytes, rest) =>
        (dataLoop turns ((offset + bytes.length) % 2 ^ 32) (length - bytes.length) rest).after (offset, bytes)

def dataOffset (hdr : List UInt8) : Nat := field hdr 12 4
def dataLength (hdr : List UInt8) : Nat := field hdr 16 4

/-- `tcp_inline_read`, which does not look at the length it is given. -/
def tcpInlineRead (turns _len : Nat) (results : List ReadResult) : Received :=
  match read sizeofDataPdu results with
  | (.error errno, _) => { ret := some (-errno) }
  | (.ok hdr, rest) =>
    if hdr.length ≠ sizeofDataPdu then { ret := some (-enodata) } else dataLoop turns (dataOffset hdr) (dataLength hdr) rest

/-- The length of the data that a command describes: from a 32-bit word to an `int`, and to a `size_t`. -/
def passedLen (cmd : List UInt8) : Nat := (cInt (field cmd 32 4) % 2 ^ 64).toNat

/-- `tcp_handle_inline_data`. A write of the data of the command fails with an error, or does not. -/
def tcpHandleInlineData (turns : Nat) (cmd : List UInt8) (wrote : Option Int) (results : List ReadResult) : Received :=
  match directionOf cmd with
  | .h2c => { ret := some (-wrote.getD 0) }
  | .c2h => tcpInlineRead turns (passedLen cmd) results
  | .other => { ret := some 0 }

end NvmeDem.InlineRead
