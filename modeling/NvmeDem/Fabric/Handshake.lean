import NvmeDem.Fabric.Tcp
import NvmeDem.Lib.Run
import NvmeDem.Store.Basic

/-!
# How a connection over TCP begins

Once a connection is made, the client writes a request and reads the reply once; the server, whose socket does not block, reads the
header of the request and what follows the header, and writes the reply. What is written arrives in any portions, and the
connection may be reset at any time: what is on its way is lost then, and what has arrived can still be read.

`Conn` is what the two calls, `tcp_client_connect` and `tcp_accept_connection`, and the streams between them have come to, and `step`
is what can happen next. A server whose call fails closes its end.
-/

namespace NvmeDem.Handshake

open Tcp

/-! ## The two messages -/

def sizeofIcreq : Nat := 128
def sizeofIcresp : Nat := 128

def nvmeTcpIcreq : UInt8 := 0x0
def nvmeTcpIcresp : UInt8 := 0x1

def nvmeTcpPduFormatVer : Nat := 0x0
def nvmeTcpConnectFmt10 : Nat := 0x0

def eproto : Int := 71
def econnreset : Int := 104

/-- The request of the client, in memory that nothing clears. -/
def buildConnectData (fresh : Mem) : List UInt8 :=
  let connect := fresh.write 0 [nvmeTcpIcreq]
  let connect := connect.write 2 [UInt8.ofNat sizeofIcreq]
  let connect := connect.write 3 [0]
  let connect := connect.write 4 (leBytes 4 sizeofIcreq)
  let connect := connect.write 8 (leBytes 2 nvmeTcpConnectFmt10)
  let connect := connect.write 12 (leBytes 4 0)
  let connect := connect.write 11 [0]
  let connect := connect.write 10 [0]
  connect.read 0 sizeofIcreq

/-- The reply of the server, in memory that nothing clears. -/
def initRep (fresh : Mem) : List UInt8 :=
  let reply := fresh.write 0 [nvmeTcpIcresp]
  let reply := reply.write 2 [UInt8.ofNat sizeofIcresp]
  let reply := reply.write 3 [0]
  let reply := reply.write 4 (leBytes 4 sizeofIcresp)
  let reply := reply.write 8 (leBytes 2 nvmeTcpPduFormatVer)
  let reply := reply.write 12 (leBytes 4 0xffff)
  let reply := reply.write 10 [0]
  let reply := reply.write 11 [0]
  reply.read 0 sizeofIcresp

/-- The client's check of what its read left in `reply`. -/
def validateReply (reply : Mem) (len : Nat) : Int :=
  if reply 0 ≠ nvmeTcpIcresp then -einval
  else if len ≠ sizeofIcresp then -einval
  else if ofLe (reply.read 4 4) ≠ sizeofIcresp then -einval
  else if (reply 2).toNat ≠ sizeofIcresp then -einval
  else if ofLe (reply.read 8 2) ≠ nvmeTcpConnectFmt10 then -einval
  else if reply 11 ≠ 0 then -einval
  else if reply 10 ≠ 0 then -einval
  else 0

/-! ## The streams -/

/-- The bytes of one direction: those on their way, and those that have arrived and are not read. -/
structure Stream where
  flight : List UInt8 := []
  arrived : List UInt8 := []
  deriving DecidableEq, Repr

namespace Stream

/-- All the bytes that are still to be read, in order. -/
def bytes (stream : Stream) : List UInt8 := stream.arrived ++ stream.flight

def send (bytes : List UInt8) (stream : Stream) : Stream := { stream with flight := stream.flight ++ bytes }

/-- The next `n` bytes arrive. -/
def deliver (n : Nat) (stream : Stream) : Stream :=
  { flight := stream.flight.drop n, arrived := stream.arrived ++ stream.flight.take n }

/-- A read of at most `n` bytes takes them away. -/
def recv (n : Nat) (stream : Stream) : Stream := { stream with arrived := stream.arrived.drop n }

/-- What was on its way is lost. -/
def lose (stream : Stream) : Stream := { stream with flight := [] }

end Stream

/-! ## The two calls -/

/-- Where `tcp_client_connect` is: before its write, before its read, or back. -/
inductive Client where
  | write
  | read
  | returned (ret : Int)
  deriving DecidableEq, Repr

/-- Where `tcp_accept_connection` is: before the read of the header, before the read of the rest, before its write, or back. -/
inductive Server where
  | readHdr
  | readInitReq
  | write
  | returned (ret : Int)
  deriving DecidableEq, Repr

/-- A server whose call failed has closed its end. -/
def Server.Closed : Server → Prop
  | .returned ret => ret ≠ 0
  | _ => False

instance : (server : Server) → Decidable server.Closed
  | .readHdr => inferInstanceAs (Decidable False)
  | .readInitReq => inferInstanceAs (Decidable False)
  | .write => inferInstanceAs (Decidable False)
  | .returned ret => inferInstanceAs (Decidable (ret ≠ 0))

/-- What the two ends bring: the request that the client is given, and what the memory of the two messages and of the client's
buffer holds before anything is put there. -/
structure Ends where
  request : List UInt8
  initReq : Mem
  initRep : Mem
  reply : Mem

/-- What the two calls and the streams between them have come to. -/
structure Conn where
  client : Client := .write
  server : Server := .readHdr
  request : Stream := {}
  reply : Stream := {}
  reset : Bool := false
  deriving DecidableEq, Repr

inductive Event where
  | clientWrite
  | requestArrives (n : Nat)
  | serverReadHdr
  | serverReadInitReq
  | serverWrite
  | replyArrives (n : Nat)
  | clientRead
  | reset
  deriving DecidableEq, Repr

/-- What the server does about a header; with nothing to read, the read fails. -/
def acceptHdr (hdr : List UInt8) : Server :=
  if hdr = [] then .returned (-eagain)
  else if hdr.length ≠ sizeofCommonHdr then .returned (-enodata)
  else if hdr.getD 0 0 = nvmeTcpIcreq then .readInitReq
  else .write

/-- What the server does about what follows the header. It is read to where the header of a request would be, and so is the field
that is looked at. -/
def acceptInitReq (fresh : Mem) (rest : List UInt8) : Server :=
  if rest.length ≠ sizeofIcreq - sizeofCommonHdr then .returned (-enodata)
  else if (fresh.write 0 rest) 10 ≠ 0 then .returned (-eproto)
  else .write

/-- What the client returns on what it has read. -/
def connectRet (fresh : Mem) (reply : List UInt8) : Int :=
  let ret := validateReply (fresh.write 0 reply) reply.length
  if ret ≠ -einval then 0 else ret

variable (ends : Ends)

/-- What an event leads to, if it can happen. -/
def step (s : Conn) : Event → Option Conn
  | .clientWrite =>
    if s.client ≠ .write then none
    else if s.reset then some { s with client := .returned (-econnreset) }
    else some { s with client := .read, request := s.request.send ends.request }
  | .requestArrives n =>
    if 0 < n ∧ n ≤ s.request.flight.length then some { s with request := s.request.deliver n } else none
  | .serverReadHdr =>
    if s.server ≠ .readHdr then none
    else
      let hdr := s.request.arrived.take sizeofCommonHdr
      some { s with server := acceptHdr hdr, request := s.request.recv sizeofCommonHdr }
  | .serverReadInitReq =>
    if s.server ≠ .readInitReq then none
    else
      let rest := s.request.arrived.take (sizeofIcreq - sizeofCommonHdr)
      some { s with server := acceptInitReq ends.initReq rest, request := s.request.recv (sizeofIcreq - sizeofCommonHdr) }
  | .serverWrite =>
    if s.server ≠ .write then none
    else if s.reset then some { s with server := .returned (-1) }
    else some { s with server := .returned 0, reply := s.reply.send (initRep ends.initRep) }
  | .replyArrives n =>
    if 0 < n ∧ n ≤ s.reply.flight.length then some { s with reply := s.reply.deliver n } else none
  | .clientRead =>
    if s.client ≠ .read then none
    else if s.reply.arrived ≠ [] then
      let reply := s.reply.arrived.take sizeofIcresp
      some { s with client := .returned (connectRet ends.reply reply), reply := s.reply.recv sizeofIcresp }
    else if s.reset then some { s with client := .returned (-econnreset) }
    -- The end of the stream: nothing is read.
    else if s.server.Closed ∧ s.reply.flight = [] then some { s with client := .returned (connectRet ends.reply []) }
    -- The client's socket blocks.
    else none
  | .reset =>
    if s.reset then none else some { s with reset := true, request := s.request.lose, reply := s.reply.lose }

/-- The states that a handshake comes to. -/
def Reaches (s : Conn) : Prop := Run (fun e s s' => step ends s e = some s') (fun _ _ => True) {} s

end NvmeDem.Handshake
