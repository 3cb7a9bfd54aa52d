import NvmeDem.Dem.PseudoTarget
import NvmeDem.Endpoint.Reports

/-!
# What a manager does with a command

A manager is asked in band: it has the commands of a connection, and two more to send it a piece of configuration and to have it
report. Of what a piece of configuration does there is only what it returns here (`ops`).
-/

namespace NvmeDem.EndpointTarget

open PseudoTarget (NvmeCommand NvmeCompletion HostConn ConnectData Transfer)

/-- What the transport gives a command, and what the configuration returns. -/
structure Answers where
  /-- The data of a read, if it succeeds; it matters to a connect command only. -/
  rmaRead : Except Int ConnectData
  rmaWrite : Bool
  /-- What the buffer of the connection holds. -/
  data : Mem
  /-- What the change of a configuration returns, by the kind of change. -/
  ops : Nat → Int
  devices : List Nsdev
  interfaces : List FabricIface

structure Handled where
  ret : Int
  result : BitVec 64 := 0
  host : HostConn
  transfers : List Transfer := []

def nvmfGetNsConfig : Nat := 0x01
def nvmfGetXportConfig : Nat := 0x02
def nvmfResetConfig : Nat := 0x00
def nvmfUnlinkHostConfig : Nat := 0x0c

def bswap32 (x : BitVec 32) : BitVec 32 :=
  x.extractLsb' 0 8 ++ x.extractLsb' 8 8 ++ x.extractLsb' 16 8 ++ x.extractLsb' 24 8

/-- The bytes of a report of devices. -/
def nsDevicesBytes (msg : MiReceive GetNsDevicesEntry) : List UInt8 :=
  UInt8.ofBitVec msg.numEntries ::
    msg.entries.flatMap (fun entry => [UInt8.ofBitVec entry.devid, UInt8.ofBitVec entry.nsid] ++ List.replicate 6 0)

/-- The bytes of a report of interfaces. -/
def transportsBytes (msg : MiReceive GetTransportsEntry) : List UInt8 :=
  UInt8.ofBitVec msg.numEntries ::
    msg.entries.flatMap (fun entry =>
      [entry.trtype, entry.adrfam] ++ List.replicate 6 0 ++ PseudoTarget.textField 256 entry.traddr)

section

variable (cmd : NvmeCommand) (ans : Answers) (host : HostConn)

def handlePropertySet : Handled :=
  if cmd.offset = PseudoTarget.nvmeRegCc then { ret := 0, host := { host with csts := if cmd.value = 0x460001 then 1 else 8 } }
  else { ret := PseudoTarget.nvmeScInvalidField, host := host }

def handlePropertyGet : Handled :=
  if cmd.offset = PseudoTarget.nvmeRegCsts then { ret := 0, result := .ofInt 64 host.csts, host := host }
  else if cmd.offset = PseudoTarget.nvmeRegCap then { ret := 0, result := 0x200f0003ff, host := host }
  else if cmd.offset = PseudoTarget.nvmeRegVs then { ret := 0, result := .ofNat 64 PseudoTarget.nvmeVer, host := host }
  else { ret := PseudoTarget.nvmeScInvalidField, host := host }

/-- The words of the command are read as if they came in network order. -/
def handleSetFeatures : Handled :=
  if bswap32 cmd.cdw10 &&& 0xff = 0 then
    let kato := (bswap32 cmd.cdw11 * .ofNat 32 (PseudoTarget.katoInterval / PseudoTarget.delayTimeout)).toInt
    { ret := 0, host := { host with kato := kato } }
  else { ret := PseudoTarget.nvmeScInvalidField, host := host }

def handleConnect : Handled :=
  let transfers := [Transfer.read cmd.length.toNat]
  match ans.rmaRead with
  | .error ret => { ret := ret, host := host, transfers := transfers }
  | .ok data =>
    let ret := if data.subsysnqn ≠ PseudoTarget.nvmeDiscSubsysName then PseudoTarget.nvmeScConnectInvalidHost else 0
    let ret := if data.cntlid ≠ 0xffff then PseudoTarget.nvmeScConnectInvalidParam else ret
    { ret := ret, host := { host with nqn := data.hostnqn }, transfers := transfers }

def rmaWrite (bytes : List UInt8) : Handled :=
  { ret := if ans.rmaWrite then 0 else PseudoTarget.nvmeScWriteFault, host := host, transfers := [.write bytes] }

def handleIdentify : Handled :=
  if cmd.cns ≠ 1 then { ret := PseudoTarget.nvmeScBadAttributes, host := host }
  else rmaWrite ans host (PseudoTarget.idCtrl.read 0 (min cmd.length.toNat PseudoTarget.sizeofIdCtrl))

/-- A report is as long as its entries need; anything else is answered with what is in the buffer. -/
def handleMiReceive : Except Fault Handled :=
  if cmd.fcid = nvmfGetNsConfig then (getNsdev ans.devices).map (fun msg => rmaWrite ans host (nsDevicesBytes msg))
  else if cmd.fcid = nvmfGetXportConfig then (getXport ans.interfaces).map (fun msg => rmaWrite ans host (transportsBytes msg))
  else .ok (rmaWrite ans host (ans.data.read 0 cmd.length.toNat))

def handleMiSend : Handled :=
  let transfers := [Transfer.read cmd.length.toNat]
  match ans.rmaRead with
  | .error ret => { ret := ret, host := host, transfers := transfers }
  | .ok _ =>
    let ret :=
      if cmd.fcid = nvmfResetConfig then 0
      else if cmd.fcid ≤ nvmfUnlinkHostConfig then if ans.ops cmd.fcid = 0 then 0 else PseudoTarget.nvmeScAccessDenied
      else PseudoTarget.nvmeScInvalidField
    { ret := ret, host := host, transfers := transfers }

/-- One command. -/
def dispatch : Except Fault Handled :=
  if cmd.opcode = PseudoTarget.nvmeFabricsCommand then
    if cmd.fctype = PseudoTarget.nvmeFabricsTypePropertySet then .ok (handlePropertySet cmd host)
    else if cmd.fctype = PseudoTarget.nvmeFabricsTypePropertyGet then .ok (handlePropertyGet cmd host)
    else if cmd.fctype = PseudoTarget.nvmeFabricsTypeConnect then .ok (handleConnect cmd ans host)
    else .ok { ret := PseudoTarget.nvmeScInvalidOpcode, host := host }
  else if cmd.opcode = PseudoTarget.nvmeMiSend then .ok (handleMiSend cmd ans host)
  else if cmd.opcode = PseudoTarget.nvmeMiReceive then handleMiReceive cmd ans host
  else if cmd.opcode = PseudoTarget.nvmeAdminIdentify then .ok (handleIdentify cmd ans host)
  else if cmd.opcode = PseudoTarget.nvmeAdminKeepAlive then .ok { ret := 0, host := host }
  else if cmd.opcode = PseudoTarget.nvmeAdminSetFeatures then .ok (handleSetFeatures cmd host)
  else .ok { ret := PseudoTarget.nvmeScInvalidOpcode, host := host }

def Handled.resp (out : Handled) (commandId : Nat) : NvmeCompletion :=
  { result := out.result
    commandId := commandId
    status := if out.ret = 0 then 0 else (PseudoTarget.nvmeScDnr ||| .ofInt 16 out.ret) <<< 1 }

/-- A command is handled, and answered with a completion that has its id. -/
def handleRequest : Except Fault (Handled × NvmeCompletion) :=
  (dispatch cmd ans host).map (fun out => (out, out.resp cmd.commandId))

end

end NvmeDem.EndpointTarget
