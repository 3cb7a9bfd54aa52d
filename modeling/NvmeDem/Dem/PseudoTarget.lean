import NvmeDem.Dem.Logpages
import NvmeDem.Lib.Bytes

/-!
# What the daemon does with a host's command

A host on the fabric has a connection to the daemon and sends commands on it. `handleRequest` handles one: it says which status the
completion has, what is read from the host and written to it on the way, and what the command leaves behind, which is the host's
own record and, for an async-event request, an entry of `aen_req_list`.

What the daemon does not decide itself comes in as `Answers`: whether memory and keys are to be had, what a fresh piece of memory
holds, and how the transfers end. A command is a record of the fields that are read of it; in the C code they share the bytes of a
union.

Memory that is written beyond the end of a piece is other memory: it is not transferred.
-/

namespace NvmeDem.PseudoTarget

/-! ## Commands and completions -/

structure NvmeCommand where
  opcode : Nat
  fctype : Nat := 0
  commandId : Nat := 0
  /-- The length of the keyed SGL, three bytes. -/
  length : BitVec 24 := 0
  cns : Nat := 0
  cdw10 : BitVec 32 := 0
  cdw11 : BitVec 32 := 0
  offset : Nat := 0
  value : Nat := 0
  fcid : Nat := 0
  deriving DecidableEq, Repr

def nvmeAdminGetLogPage : Nat := 0x02
def nvmeAdminIdentify : Nat := 0x06
def nvmeAdminSetFeatures : Nat := 0x09
def nvmeAdminGetFeatures : Nat := 0x0A
def nvmeAdminAsyncEvent : Nat := 0x0C
def nvmeAdminKeepAlive : Nat := 0x18
def nvmeMiSend : Nat := 0x1D
def nvmeMiReceive : Nat := 0x1E
def nvmeFabricsCommand : Nat := 0x7F

def nvmeFabricsTypePropertySet : Nat := 0x00
def nvmeFabricsTypeConnect : Nat := 0x01
def nvmeFabricsTypePropertyGet : Nat := 0x04

def nvmeScInvalidOpcode : Int := 0x1
def nvmeScInvalidField : Int := 0x2
def nvmeScInternal : Int := 0x6
def nvmeScBadAttributes : Int := 0x180
def nvmeScConnectInvalidParam : Int := 0x182
def nvmeScConnectInvalidHost : Int := 0x184
def nvmeScWriteFault : Int := 0x280
def nvmeScReadError : Int := 0x281
def nvmeScAccessDenied : Int := 0x286
def nvmeScDnr : BitVec 16 := 0x4000

structure NvmeCompletion where
  result : BitVec 64 := 0
  commandId : Nat := 0
  status : BitVec 16 := 0
  deriving DecidableEq, Repr

/-! ## A host's connection -/

/-- The connection of a host; `ep` tells it from every other, also from those that are gone. -/
structure HostConn where
  ep : Nat
  nqn : String
  csts : Int := 0
  kato : Int
  countdown : Int
  deriving DecidableEq, Repr

/-- An async-event request that is pending. -/
structure EventRequest where
  nqn : String
  ep : Nat
  deriving DecidableEq, Repr

/-- The data of a connect command. -/
structure ConnectData where
  hostnqn : String
  subsysnqn : String
  cntlid : Nat
  deriving DecidableEq, Repr

/-- What the transport and the allocator give a command. -/
structure Answers where
  /-- The data of a read, if it succeeds. -/
  rmaRead : Option ConnectData
  rmaWrite : Bool
  /-- What fresh memory holds, if there is any. -/
  malloc : Option Mem
  allocKey : Bool
  /-- What the buffer of the connection holds. -/
  data : Mem

/-- Data that goes along with a command: so many bytes are read from the host, or these are written to it. -/
inductive Transfer where
  | read (len : Nat)
  | write (bytes : List UInt8)
  deriving DecidableEq, Repr

/-- What a handler leaves. -/
structure Handled where
  ret : Int
  result : BitVec 64 := 0
  host : HostConn
  aenReqList : List EventRequest
  transfers : List Transfer := []
  deriving DecidableEq, Repr

/-! ## The handlers -/

def nvmeDiscSubsysName : String := "nqn.2014-08.org.nvmexpress.discovery"

def nvmeRegCap : Nat := 0
def nvmeRegVs : Nat := 0x08
def nvmeRegCc : Nat := 0x14
def nvmeRegCsts : Nat := 0x1C

def nvmeVer : Nat := 0x10201
def nvmeFeatAsyncEvent : BitVec 32 := 0x0B
def nvmeFeatKato : BitVec 32 := 0x0F
def nvmeAerNotice : BitVec 32 := 0xF002

def delayTimeout : Nat := 100
def katoInterval : Nat := 500
def retryCount : Int := 200

section

variable (cmd : NvmeCommand) (ans : Answers) (host : HostConn) (reqs : List EventRequest)

def handlePropertySet : Handled :=
  if cmd.offset = nvmeRegCc then
    { ret := 0, host := { host with csts := if cmd.value = 0x460001 then 1 else 8 }, aenReqList := reqs }
  else { ret := nvmeScInvalidField, host := host, aenReqList := reqs }

def handlePropertyGet : Handled :=
  if cmd.offset = nvmeRegCsts then { ret := 0, result := .ofInt 64 host.csts, host := host, aenReqList := reqs }
  else if cmd.offset = nvmeRegCap then { ret := 0, result := 0x200f0003ff, host := host, aenReqList := reqs }
  else if cmd.offset = nvmeRegVs then { ret := 0, result := .ofNat 64 nvmeVer, host := host, aenReqList := reqs }
  else { ret := nvmeScInvalidField, host := host, aenReqList := reqs }

def handleGetFeatures : Handled :=
  if cmd.cdw10 &&& 0xff = nvmeFeatAsyncEvent then
    { ret := 0, result := nvmeAerNotice.setWidth 64, host := host, aenReqList := reqs }
  else if cmd.cdw10 &&& 0xff = nvmeFeatKato then
    { ret := 0, result := (BitVec.ofInt 32 host.kato).setWidth 64, host := host, aenReqList := reqs }
  else { ret := nvmeScInvalidField, host := host, aenReqList := reqs }

def handleSetFeatures : Handled :=
  if cmd.cdw10 &&& 0xff = nvmeFeatAsyncEvent then { ret := 0, host := host, aenReqList := reqs }
  else if cmd.cdw10 &&& 0xff = nvmeFeatKato then
    -- The product has 32 bits and becomes an int.
    let kato := (cmd.cdw11 * .ofNat 32 (katoInterval / delayTimeout)).toInt
    { ret := 0, host := { host with kato := kato }, aenReqList := reqs }
  else { ret := nvmeScInvalidField, host := host, aenReqList := reqs }

def handleAsyncEvent : Handled :=
  match ans.malloc with
  | none => { ret := -enomem, host := host, aenReqList := reqs }
  | some _ => { ret := 0, host := host, aenReqList := { nqn := host.nqn, ep := host.ep } :: reqs }

def handleConnect : Handled :=
  let transfers := [Transfer.read cmd.length.toNat]
  match ans.rmaRead with
  | none => { ret := nvmeScReadError, host := host, aenReqList := reqs, transfers := transfers }
  | some data =>
    let host := { host with nqn := data.hostnqn }
    let ret := if data.subsysnqn ≠ nvmeDiscSubsysName then nvmeScConnectInvalidHost else 0
    let ret := if data.cntlid ≠ 0xffff then nvmeScConnectInvalidParam else ret
    { ret := ret, host := host, aenReqList := reqs, transfers := transfers }

def sizeofIdCtrl : Nat := 4096

/-- The texts of C are written a character a byte. -/
def cstring (s : String) : List UInt8 := s.toList.map (fun c => UInt8.ofNat c.toNat)

/-- The identify data: the fields that are set, in a record that is zero elsewhere. -/
def idCtrl : Mem :=
  let id := (Mem.filled 0).write 64 (cstring " ")
  let id := id.write 80 (leBytes 4 nvmeVer)
  let id := id.write 261 (leBytes 1 4)
  let id := id.write 514 (leBytes 2 2)
  let id := id.write 536 (leBytes 4 (2 ^ 0 + 2 ^ 2 + 2 ^ 20))
  id.write 768 (cstring nvmeDiscSubsysName)

/-- The end of a handler that writes to the host. -/
def rmaWrite (bytes : List UInt8) : Handled :=
  { ret := if ans.rmaWrite then 0 else nvmeScWriteFault, host := host, aenReqList := reqs, transfers := [.write bytes] }

def handleIdentify : Handled :=
  if cmd.cns ≠ 1 then { ret := nvmeScBadAttributes, host := host, aenReqList := reqs }
  else rmaWrite ans host reqs (idCtrl.read 0 (min cmd.length.toNat sizeofIdCtrl))

end

/-! ## Log pages -/

def sizeofRspPageHdr : Nat := 1024
def sizeofRspPageEntry : Nat := 1024

/-- A text in a field of `n` bytes. -/
def textField (n : Nat) (s : String) : List UInt8 := (cstring s).take n ++ List.replicate (n - s.length) 0

/-- An entry as it is in memory. -/
def entryBytes (e : LogEntry) : List UInt8 :=
  [e.trtype, e.adrfam, e.subtype, e.treq] ++ leBytes 2 e.portid.toNat ++ leBytes 2 e.cntlid.toNat ++ List.replicate 24 0 ++
    textField 32 e.trsvcid ++ List.replicate 192 0 ++ textField 256 e.subnqn ++ textField 256 e.traddr ++
    [e.qptype, e.prtype, e.cms] ++ List.replicate 5 0 ++ leBytes 2 e.pkey.toNat ++ List.replicate 246 0

/-- The two fields of the header that are set: `genctr` and `numrec`. -/
def writeHdr (log : Mem) (numrec : Nat) : Mem := (log.write 8 (leBytes 8 numrec)).write 0 (leBytes 8 1)

/-- The entries that are copied behind the header, the first at `off`. -/
def copyEntries : List LogEntry → Nat → Mem → Mem
  | [], _, log => log
  | e :: rest, off, log => copyEntries rest (off + sizeofRspPageEntry) (log.write off (entryBytes e))

section

variable (lists : Lists) (cmd : NvmeCommand) (ans : Answers) (host : HostConn) (reqs : List EventRequest)

/-- The pages are only counted, and the header is written into the buffer of the connection. -/
def handleGetLogPageCount : Except Fault Handled :=
  (NvmeDem.handleGetLogPageCount lists host.nqn).map (fun numrec =>
    rmaWrite ans host reqs ((writeHdr ans.data numrec).read 0 cmd.length.toNat))

/-- The pages are copied into fresh memory, as many as there are, and as many bytes as were asked for are written to the host. -/
def handleGetLogPages : Except Fault Handled :=
  match ans.malloc with
  | none => .ok { ret := nvmeScInternal, host := host, aenReqList := reqs }
  | some log =>
    if !ans.allocKey then .ok { ret := nvmeScInternal, host := host, aenReqList := reqs }
    else
      (NvmeDem.handleGetLogPages lists host.nqn).map (fun entries =>
        rmaWrite ans host reqs
          ((writeHdr (copyEntries entries sizeofRspPageHdr log) entries.length).read 0 cmd.length.toNat))

/-- One command of a host. -/
def dispatch : Except Fault Handled :=
  if cmd.opcode = nvmeFabricsCommand then
    if cmd.fctype = nvmeFabricsTypePropertySet then .ok (handlePropertySet cmd host reqs)
    else if cmd.fctype = nvmeFabricsTypePropertyGet then .ok (handlePropertyGet cmd host reqs)
    else if cmd.fctype = nvmeFabricsTypeConnect then .ok (handleConnect cmd ans host reqs)
    else .ok { ret := nvmeScInvalidOpcode, host := host, aenReqList := reqs }
  else if cmd.opcode = nvmeAdminIdentify then .ok (handleIdentify cmd ans host reqs)
  else if cmd.opcode = nvmeAdminKeepAlive then .ok { ret := 0, host := host, aenReqList := reqs }
  else if cmd.opcode = nvmeAdminGetLogPage then
    if cmd.length.toNat = 16 then handleGetLogPageCount lists cmd ans host reqs
    else handleGetLogPages lists cmd ans host reqs
  else if cmd.opcode = nvmeAdminGetFeatures then .ok (handleGetFeatures cmd host reqs)
  else if cmd.opcode = nvmeAdminSetFeatures then .ok (handleSetFeatures cmd host reqs)
  else if cmd.opcode = nvmeAdminAsyncEvent then .ok (handleAsyncEvent ans host reqs)
  else .ok { ret := nvmeScInvalidOpcode, host := host, aenReqList := reqs }

/-- The completion that `handleRequest` answers a handled command with. -/
def Handled.resp (out : Handled) (commandId : Nat) : NvmeCompletion :=
  { result := out.result
    commandId := commandId
    status := if out.ret = 0 then 0 else (nvmeScDnr ||| .ofInt 16 out.ret) <<< 1 }

/-- A command is handled, and answered with a completion that has its id. -/
def handleRequest : Except Fault (Handled × NvmeCompletion) :=
  (dispatch lists cmd ans host reqs).map (fun out => (out, out.resp cmd.commandId))

end

end NvmeDem.PseudoTarget
