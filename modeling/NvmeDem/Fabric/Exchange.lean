import NvmeDem.Endpoint.Target
import NvmeDem.Fabric.Tcp
import NvmeDem.Lib.Run

/-!
# Commands and data in one stream

Over TCP the data of a command is in the same stream as the commands and the completions. The client decides from two bits of the
opcode, or of the type of a fabrics command, whether data follows its command, or comes before the completion; the server reads or
writes data where its handler does.

`exchange` is one command: what the client writes, what the server reads of it and writes, and what the client reads of that. Every
read waits until all it asks for is there, and every write succeeds. A side that waits for what does not come waits for good.
-/

namespace NvmeDem.Tcp

open PseudoTarget (NvmeCommand NvmeCompletion HostConn ConnectData EventRequest Transfer)

/-! ## Commands as bytes -/

/-- A field of `n` bytes of a record. -/
def field (bytes : List UInt8) (off n : Nat) : Nat := ofLe ((bytes.drop off).take n)

/-- The command that a server finds in a message. -/
def commandOf (bytes : List UInt8) : NvmeCommand where
  opcode := field bytes 0 1
  fctype := field bytes 4 1
  commandId := field bytes 2 2
  length := .ofNat 24 (field bytes 32 3)
  cns := field bytes 40 1
  cdw10 := .ofNat 32 (field bytes 40 4)
  cdw11 := .ofNat 32 (field bytes 44 4)
  offset := field bytes 44 4
  value := field bytes 48 8
  fcid := field bytes 48 1

/-- A text in a field of 256 bytes. -/
def textOf (bytes : List UInt8) (off : Nat) : String :=
  String.ofList ((((bytes.drop off).take 256).takeWhile (fun b => b ≠ 0)).map (fun b => Char.ofNat b.toNat))

def sizeofConnectData : Nat := 1024

def connectDataOf (bytes : List UInt8) : ConnectData where
  hostnqn := textOf bytes 512
  subsysnqn := textOf bytes 256
  cntlid := field bytes 16 2

/-- `tcp_set_sgl`: a command that is zero but for its opcode, its flags and the data it describes. -/
def setSgl (opcode len addr : Nat) : Mem :=
  let cmd := (Mem.filled 0).write 1 (leBytes 1 0x40)
  let cmd := cmd.write 0 (leBytes 1 opcode)
  let cmd := cmd.write 32 (leBytes 4 len)
  let cmd := cmd.write 39 (leBytes 1 (if opcode = PseudoTarget.nvmeAdminGetLogPage then 0x5A else 0x01))
  cmd.write 24 (leBytes 8 addr)

/-- What a client sends: the functions that send a command, with what they are given. -/
inductive Send where
  | fabricConnect (kato : Nat) (data : List UInt8) (h : data.length = sizeofConnectData)
  | getProperty (reg : Nat)
  | setProperty (reg val : Nat)
  | asyncEventRequest
  | keepAlive
  | miReceive (fcid len : Nat)
  | miSend (fcid : Nat) (data : List UInt8) (h : data.length < 2 ^ 31)
  | getLogPage (logSize : Nat)
  | getFeatures (fid : Nat)
  | setFeatures (fid dword11 : Nat)

/-- The data that a command describes for the server to read. -/
def Send.data : Send → List UInt8
  | .fabricConnect _ data _ | .miSend _ data _ => data
  | _ => []

def Send.opcode : Send → Nat
  | .fabricConnect _ _ _ | .getProperty _ | .setProperty _ _ => PseudoTarget.nvmeFabricsCommand
  | .asyncEventRequest => PseudoTarget.nvmeAdminAsyncEvent
  | .keepAlive => PseudoTarget.nvmeAdminKeepAlive
  | .miReceive _ _ => PseudoTarget.nvmeMiReceive
  | .miSend _ _ _ => PseudoTarget.nvmeMiSend
  | .getLogPage _ => PseudoTarget.nvmeAdminGetLogPage
  | .getFeatures _ => PseudoTarget.nvmeAdminGetFeatures
  | .setFeatures _ _ => PseudoTarget.nvmeAdminSetFeatures

/-- How many bytes a command says it has data for. -/
def Send.len : Send → Nat
  | .fabricConnect _ _ _ => sizeofConnectData
  | .miReceive _ len => len
  | .miSend _ data _ => data.length
  | .getLogPage logSize => logSize
  | _ => 0

/-- The fields that are set besides: where they are, and their bytes. -/
def Send.args : Send → List (Nat × List UInt8)
  | .fabricConnect kato _ _ =>
    [(4, leBytes 1 PseudoTarget.nvmeFabricsTypeConnect), (42, leBytes 2 0), (44, leBytes 2 2), (48, leBytes 4 kato)]
  | .getProperty reg => [(4, leBytes 1 PseudoTarget.nvmeFabricsTypePropertyGet), (40, leBytes 1 1), (44, leBytes 4 reg)]
  | .setProperty reg val =>
    [(4, leBytes 1 PseudoTarget.nvmeFabricsTypePropertySet), (44, leBytes 4 reg), (48, leBytes 8 val)]
  | .asyncEventRequest | .keepAlive => []
  | .miReceive fcid _ => [(44, leBytes 1 0x0D), (48, leBytes 1 fcid)]
  | .miSend fcid _ _ => [(44, leBytes 1 0x0C), (48, leBytes 1 fcid)]
  | .getLogPage logSize =>
    let size := (logSize / 4 + (2 ^ 32 - 1)) % 2 ^ 32
    [(40, leBytes 1 0x70), (42, leBytes 2 size), (44, leBytes 2 (size / 2 ^ 16))]
  | .getFeatures fid => [(40, leBytes 4 fid)]
  | .setFeatures fid dword11 => [(40, leBytes 4 fid), (44, leBytes 4 dword11)]

/-- The memory that a command is written in; `addr` is where its data is, if it has any. -/
def Send.mem (addr : Nat) (send : Send) : Mem :=
  send.args.foldl (fun cmd arg => cmd.write arg.1 arg.2) (setSgl send.opcode send.len (if send.len = 0 then 0 else addr))

def Send.cmd (addr : Nat) (send : Send) : List UInt8 := (send.mem addr).read 0 sizeofCmd

/-! ## The client -/

inductive Direction where
  | h2c | c2h | other
  deriving DecidableEq, Repr

/-- `tcp_handle_inline_data` takes the two low bits of the opcode, or of the type of a fabrics command. -/
def directionOfCodes (opcode fctype : Nat) : Direction :=
  let code := if opcode = PseudoTarget.nvmeFabricsCommand then fctype else opcode
  if code % 4 = 1 then .h2c else if code % 4 = 2 then .c2h else .other

def directionOf (cmd : List UInt8) : Direction := directionOfCodes (field cmd 0 1) (field cmd 4 1)

/-- What the client writes for a command. -/
def Send.written (addr : Nat) (send : Send) : List UInt8 :=
  let cmd := send.cmd addr
  commonHdr nvmeTcpCapsulecmd 72 (sizeofCmd + sizeofCommonHdr) ++ cmd ++ if directionOf cmd = .h2c then send.data else []

/-- A message off a stream, if all of it is there, and what comes behind it. -/
def takeMsg (s : List UInt8) : Option (List UInt8 × List UInt8) :=
  let n := hlenOf s - sizeofCommonHdr
  if sizeofCommonHdr + n ≤ s.length then some ((s.drop sizeofCommonHdr).take n, s.drop (sizeofCommonHdr + n)) else none

def sizeofDataPdu : Nat := 24

/-- `tcp_inline_read`: a data PDU off a stream, with as much data as it says, and what comes behind it. -/
def takeData (s : List UInt8) : Option (List UInt8) :=
  let n := field s 16 4
  if sizeofDataPdu + n ≤ s.length then some (s.drop (sizeofDataPdu + n)) else none

/-- What is left of a stream when the client has its data and its completion. -/
def receive (direction : Direction) (s : List UInt8) : Option (List UInt8) :=
  ((if direction = .c2h then takeData s else some s).bind takeMsg).map Prod.snd

/-! ## The server -/

/-- The server at the other end, and what a command meets there. -/
inductive Server where
  | dem (lists : Lists) (host : HostConn) (reqs : List EventRequest) (ans : PseudoTarget.Answers)
  | manager (host : HostConn) (ans : EndpointTarget.Answers)

/-- A command is handled; `behind` is what is in the stream behind it. -/
def Server.handle (cmd : NvmeCommand) (behind : List UInt8) : Server → Except Fault (List Transfer × NvmeCompletion)
  | .dem lists host reqs ans =>
    let ans := { ans with rmaRead := some (connectDataOf (behind.take cmd.length.toNat)), rmaWrite := true }
    (PseudoTarget.handleRequest lists cmd ans host reqs).map (fun out => (out.1.transfers, out.2))
  | .manager host ans =>
    let ans := { ans with rmaRead := .ok (connectDataOf (behind.take cmd.length.toNat)), rmaWrite := true }
    (EndpointTarget.handleRequest cmd ans host).map (fun out => (out.1.transfers, out.2))

/-- `tcp_rma_write`: the header of a data PDU and the data. Two fields that nobody reads are zero here. -/
def dataPdu (cccid : Nat) (bytes : List UInt8) : List UInt8 :=
  commonHdr nvmeTcpC2hdata 24 (sizeofDataPdu + bytes.length) ++ leBytes 2 cccid ++ leBytes 2 0 ++ leBytes 4 0 ++
    leBytes 4 bytes.length ++ List.replicate 4 0 ++ bytes

/-- The transfers of a handler: what it leaves of the one stream and adds to the other, if it does not wait. -/
def runTransfers (cccid : Nat) : List Transfer → List UInt8 → List UInt8 → Option (List UInt8 × List UInt8)
  | [], c2s, s2c => some (c2s, s2c)
  | .read n :: rest, c2s, s2c => if n ≤ c2s.length then runTransfers cccid rest (c2s.drop n) s2c else none
  | .write bytes :: rest, c2s, s2c => runTransfers cccid rest c2s (s2c ++ dataPdu cccid bytes)

/-- A completion as bytes. -/
def completionBytes (rsp : NvmeCompletion) : List UInt8 :=
  leBytes 8 rsp.result.toNat ++ leBytes 2 0 ++ leBytes 2 0 ++ leBytes 2 rsp.commandId ++ leBytes 2 rsp.status.toNat

def respPdu (rsp : NvmeCompletion) : List UInt8 :=
  commonHdr nvmeTcpCapsuleresp 24 (sizeofCommonHdr + sizeofCompletion) ++ completionBytes rsp

/-! ## One command -/

/-- The two streams of a connection: what was written and not read yet, and whether a side waits for more. -/
structure Conn where
  c2s : List UInt8 := []
  s2c : List UInt8 := []
  waiting : Bool := false
  deriving DecidableEq, Repr

/-- The streams are empty and nobody waits. -/
structure Conn.InStep (c : Conn) : Prop where
  c2s : c.c2s = []
  s2c : c.s2c = []
  waiting : c.waiting = false

/-- The completion is written, and the client reads what it reads. -/
def reply (direction : Direction) (rsp : NvmeCompletion) (c2s s2c : List UInt8) : Conn :=
  match receive direction (s2c ++ respPdu rsp) with
  | none => { c2s := c2s, s2c := s2c ++ respPdu rsp, waiting := true }
  | some left => { c2s := c2s, s2c := left }

/-- What is left of the streams once a command was handled: the server's transfers and its completion, and then the client. -/
def finish (cccid : Nat) (direction : Direction) (out : List Transfer × NvmeCompletion) (c2s s2c : List UInt8) : Conn :=
  match runTransfers cccid out.1 c2s s2c with
  | none => { c2s := c2s, s2c := s2c, waiting := true }
  | some streams => reply direction out.2 streams.1 streams.2

/-- A command from the client's write to the completion. A server that faults does not answer. -/
def exchange (server : Server) (addr : Nat) (send : Send) (c : Conn) : Except Fault Conn :=
  let c2s := c.c2s ++ send.written addr
  match takeMsg c2s with
  | none => .ok { c with c2s := c2s, waiting := true }
  | some (msg, behind) =>
    (server.handle (commandOf msg) behind).map (fun out =>
      finish (commandOf msg).commandId (directionOf (send.cmd addr)) out behind c.s2c)

/-- A command that is sent to a server. -/
structure Op where
  server : Server
  addr : Nat
  send : Send

def Op.Step (op : Op) (c c' : Conn) : Prop := c.waiting = false ∧ exchange op.server op.addr op.send c = .ok c'

end NvmeDem.Tcp
