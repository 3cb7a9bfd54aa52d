import NvmeDem.Lib.Bytes

/-!
# Messages over TCP

A message is a PDU: a header of eight bytes, with the length of the header that the sender means, and the message. A receiver reads
the header and then the message, each with one `read`, which returns what has arrived, up to as much as was asked for.

`Arrivals` is what successive reads find: pieces of the stream, of which a read takes no more than is asked for and never more than
the piece, and places where there is nothing to read yet. Memory for the message is always to be had; what it holds is any.
-/

namespace NvmeDem.Tcp

/-! ## PDUs -/

def sizeofCommonHdr : Nat := 8
def sizeofCmd : Nat := 64
def sizeofCompletion : Nat := 16

def nvmeTcpCapsulecmd : UInt8 := 0x4
def nvmeTcpCapsuleresp : UInt8 := 0x5
def nvmeTcpC2hdata : UInt8 := 0x7

/-- What the two senders write: a command, or a completion. -/
inductive Pdu where
  | cmd (bytes : List UInt8) (h : bytes.length = sizeofCmd)
  | resp (bytes : List UInt8) (h : bytes.length = sizeofCompletion)

/-- A header: its type, two fields that are zero here, and the two lengths. -/
def commonHdr (pduType hlen : UInt8) (plen : Nat) : List UInt8 := [pduType, 0, hlen, 0] ++ leBytes 4 plen

/-- The message that the receiver is to be given. -/
def Pdu.msg : Pdu → List UInt8
  | .cmd bytes _ => bytes
  | .resp bytes _ => bytes

/-- The header that `tcp_send_msg` or `tcp_send_rsp` writes. -/
def Pdu.hdr : Pdu → List UInt8
  | .cmd _ _ => commonHdr nvmeTcpCapsulecmd 72 (sizeofCmd + sizeofCommonHdr)
  | .resp _ _ => commonHdr nvmeTcpCapsuleresp 24 (sizeofCommonHdr + sizeofCompletion)

def Pdu.bytes (pdu : Pdu) : List UInt8 := pdu.hdr ++ pdu.msg

/-! ## Reading -/

/-- Bytes that arrive together. -/
structure Piece where
  bytes : List UInt8
  nonempty : bytes ≠ []
  deriving DecidableEq, Repr

/-- What successive reads find: a piece, or nothing yet. -/
abbrev Arrivals : Type := List (Option Piece)

/-- A piece in front of what comes later, if there is anything of it. -/
def Arrivals.push (bytes : List UInt8) (rest : Arrivals) : Arrivals := if h : bytes = [] then rest else some ⟨bytes, h⟩ :: rest

/-- One `read` of at most `n` bytes: what it returns, or nothing when it would block. -/
def read (n : Nat) : Arrivals → Option (List UInt8) × Arrivals
  | [] => (none, [])
  | none :: rest => (none, rest)
  | some piece :: rest => (some (piece.bytes.take n), Arrivals.push (piece.bytes.drop n) rest)

/-- What one call of the receiver leaves. -/
structure Polled where
  ret : Int
  msg : Option (List UInt8) := none
  rest : Arrivals

def eagain : Int := 11
def enodata : Int := 61

def hlenOf (hdr : List UInt8) : Nat := (hdr.getD 2 0).toNat

/-- One call of the receiver. The message goes into memory that holds `fresh`, and all of the memory is handed on. -/
def tcpPollForMsg (fresh : Mem) (arrivals : Arrivals) : Polled :=
  let (hdr, rest) := read sizeofCommonHdr arrivals
  match hdr with
  | none => { ret := -eagain, rest := rest }
  | some hdr =>
    if hdr.length ≠ sizeofCommonHdr then { ret := -enodata, rest := rest }
    else
      let msgLen : Int := hlenOf hdr - sizeofCommonHdr
      if msgLen ≤ 0 then { ret := msgLen, rest := rest }
      else
        let (msg, rest) := read msgLen.toNat rest
        match msg with
        | none => { ret := -eagain, rest := rest }
        | some msg => { ret := 0, msg := some ((fresh.write 0 msg).read 0 msgLen.toNat), rest := rest }

/-- The messages that the calls of the receiver from the `i`-th on deliver; the memory of a call is that of its number. -/
def deliver (fresh : Nat → Mem) : Nat → Nat → Arrivals → List (List UInt8)
  | _, 0, _ => []
  | i, calls + 1, arrivals =>
    let polled := tcpPollForMsg (fresh i) arrivals
    polled.msg.toList ++ deliver fresh (i + 1) calls polled.rest

/-! ## Streams -/

/-- The bytes of a stream. -/
def Arrivals.bytes : Arrivals → List UInt8
  | [] => []
  | none :: rest => Arrivals.bytes rest
  | some piece :: rest => piece.bytes ++ Arrivals.bytes rest

/-- No more calls than this find anything. -/
def Arrivals.size : Arrivals → Nat
  | [] => 0
  | none :: rest => Arrivals.size rest + 1
  | some piece :: rest => piece.bytes.length + Arrivals.size rest

/-- The bytes of PDUs that are written one after the other. -/
def written (pdus : List Pdu) : List UInt8 := pdus.flatMap Pdu.bytes

theorem Pdu.bytes_ne_nil (pdu : Pdu) : pdu.bytes ≠ [] := by cases pdu <;> exact List.cons_ne_nil _ _

/-- Every PDU arrives whole. -/
def whole (pdus : List Pdu) : Arrivals := pdus.map (fun pdu => some ⟨pdu.bytes, pdu.bytes_ne_nil⟩)

end NvmeDem.Tcp
