import NvmeDem.Dem.World
import NvmeDem.Endpoint.Manager
import NvmeDem.Lib.Link

/-!
# Telling a target its configuration

A target that is reconfigured is reset and told everything again. In band the daemon fills in the fields of one message after the
other and stops at the first that fails; out of band it posts JSON texts to URIs that it writes into a buffer of fixed size, and
of most of them it does not look at the result. The two ways send the parts of a subsystem in different orders.

What a target reports afterwards is not read here.
-/

namespace NvmeDem

namespace Push

open Jansson Link

/-- What is between the daemon and a manager: how the attempts to reach it go, its web server and its JSON parser. -/
structure Wire where
  net : Nat → Int
  http : HttpLib
  json : JsonLib

/-- A program of the daemon that sends messages to one manager. -/
abbrev Sends : Type := Prog Fault (Finset Item)

/-! ## In-band messages -/

/-- An NQN in a field of a message: cut to the size of the field, which has no terminating zero then. -/
def nqnEntry (nqn : String) : String := cCut maxNqnSize nqn

def nvmfTreqNotRequired : UInt8 := 2

def buildSetPortConfigInb (portid : Portid) : PortConfigEntry where
  portid := BitVec.ofInt 16 portid.portid
  treq := nvmfTreqNotRequired
  trtype := toTrtype portid.type
  adrfam := toAdrfam portid.family
  traddr := portid.address
  trsvcid := toString portid.portNum

def buildSubsysConfigInb (subsys : Subsystem) : SubsysConfigEntry where
  allowanyhost := BitVec.ofInt 8 subsys.access
  subnqn := nqnEntry subsys.nqn

def buildLinkHostInb (subsys : Subsystem) (host : Host) : LinkHostEntry where
  subnqn := nqnEntry subsys.nqn
  hostnqn := nqnEntry host.nqn

def buildHostConfigInb (hostnqn : String) : HostConfigEntry where
  hostnqn := nqnEntry hostnqn

def buildLinkPortInb (subsys : Subsystem) (portid : Portid) : LinkPortEntry where
  subnqn := nqnEntry subsys.nqn
  portid := BitVec.ofInt 16 portid.portid

def buildNsConfigInb (subsys : Subsystem) (ns : Ns) : NsConfigEntry where
  subnqn := nqnEntry subsys.nqn
  nsid := BitVec.ofInt 32 ns.nsid
  deviceid := BitVec.ofInt 32 (if ns.devid = nullbDevid then nvmfNullbDevid else ns.devid)
  devicensid := BitVec.ofInt 32 ns.devns

/-! ## Out-of-band texts -/

def jsStr (tag val : String) : String := s!"\"{tag}\":\"{val}\""
def jsIndx (tag : String) (val : Int) : String := s!"\"{tag}\":{val}"
def jsObject (fields : List String) : String := "\x7b" ++ ",".intercalate fields ++ "\x7d"

def buildSetPortOob (portid : Portid) : String :=
  jsObject [jsStr tagType portid.type, jsStr tagFamily portid.family, jsStr tagAddress portid.address,
    jsIndx tagTrsvcid portid.portNum]

def buildSetHostOob (nqn : String) : String := jsObject [jsStr tagHostnqn nqn]

def buildSetSubsysOob (subsys : Subsystem) : String :=
  jsObject [jsStr tagSubnqn subsys.nqn, jsIndx tagAllowAny subsys.access]

def buildSetNsOob (ns : Ns) : String :=
  jsObject [jsIndx tagNsid ns.nsid, jsIndx tagDevid ns.devid, jsIndx tagDevnsid ns.devns]

def buildSetPortidOob (portid : Int) : String := jsObject [jsIndx tagPortid portid]

/-! ## Sending in band -/

def connectCtrl (w : Wire) : Sends := attempt w.net (fun config => .ok (0, config))

def sendMiSend (w : Wire) (msg : MiSend) : Sends := attempt w.net (fun config => handleMiSend config msg)

def setConnected (connected : Bool) : Sends := fun s => .ok (0, { s with connected := connected })

/-- Connect and send. -/
def reconnectAndSend (w : Wire) (msg : MiSend) : Sends :=
  andThen (connectCtrl w) (andThen (setConnected true) (sendMiSend w msg))

/-- A message that fails on a connection is sent once more, on a new one. -/
def sendSetConfig (w : Wire) (msg : MiSend) : Sends := fun s =>
  if s.connected then
    match sendMiSend w msg s with
    | .error f => .error f
    | .ok (ret, s') => if ret = 0 then .ok (0, s') else reconnectAndSend w msg { s' with connected := false }
  else reconnectAndSend w msg s

def configPortidInb (w : Wire) (portid : Portid) : Sends := sendSetConfig w (.setPortConfig (buildSetPortConfigInb portid))

def configSubsysInb (w : Wire) (subsys : Subsystem) : Sends := sendSetConfig w (.setSubsysConfig (buildSubsysConfigInb subsys))

def sendHostConfigInb (w : Wire) (host : Host) : Sends := sendSetConfig w (.setHostConfig (buildHostConfigInb host.nqn))

def sendLinkHostInb (w : Wire) (subsys : Subsystem) (host : Host) : Sends :=
  sendSetConfig w (.linkHostConfig (buildLinkHostInb subsys host))

def sendSetNsInb (w : Wire) (subsys : Subsystem) (ns : Ns) : Sends := sendSetConfig w (.setNsConfig (buildNsConfigInb subsys ns))

def sendLinkPortidInb (w : Wire) (subsys : Subsystem) (portid : Portid) : Sends :=
  sendSetConfig w (.linkPortConfig (buildLinkPortInb subsys portid))

/-! ## Sending out of band -/

def maxUriSize : Nat := 128

def getUri (target : Target) : String := s!"http://{target.oob.address}:{target.oob.port}/"

/-- A URI of a manager is written into a buffer. -/
def uriTo (target : Target) (path : String) : Except Fault String :=
  if (getUri target ++ path).length < maxUriSize then .ok (getUri target ++ path) else .error .outOfBounds

/-- A request for a URL at the manager: it fails when the manager does not get it, and when the manager does not answer that all
is well. -/
def request (w : Wire) (url : String) (handle : Finset Item → List String → Except Fault (Int × Finset Item))
    (config : Finset Item) : Except Fault (Int × Finset Item) :=
  match w.http.uri url with
  | none => .ok (-einval, config)
  | some uri => (handle config (parseUri uri)).map (fun out => (if out.1 = 0 then 0 else -einval, out.2))

def execRequest (w : Wire) (target : Target) (path : String)
    (handle : Finset Item → List String → Except Fault (Int × Finset Item)) : Sends := fun s =>
  match uriTo target path with
  | .error f => .error f
  | .ok url => attempt w.net (request w url handle) s

def execPost (w : Wire) (target : Target) (path body : String) : Sends :=
  execRequest w target path (fun config parts => postRequest w.json config parts body)

def execDelete (w : Wire) (target : Target) (path : String) : Sends :=
  execRequest w target path (fun config parts => .ok (deleteRequest config parts))

def configPortidOob (w : Wire) (target : Target) (portid : Portid) : Sends :=
  execPost w target s!"{uriPortid}/{portid.portid}" (buildSetPortOob portid)

def sendSetConfigOob (w : Wire) (target : Target) (tag buf : String) : Sends := execPost w target tag buf

def sendUpdateSubsysOob (w : Wire) (target : Target) (subsys tag buf : String) : Sends :=
  execPost w target s!"{uriSubsystem}/{subsys}/{tag}" buf

def sendLinkPortidOob (w : Wire) (target : Target) (subsys : Subsystem) (portid : Portid) : Sends :=
  sendUpdateSubsysOob w target subsys.nqn uriPortid (buildSetPortidOob portid.portid)

/-! ## The configuration of a target -/

/-- A restricted subsystem that allows no host is linked to no port. -/
def isHidden (subsys : Subsystem) : Bool := subsys.isRestricted && subsys.hostList.isEmpty

def configSubsysPartsInb (w : Wire) (target : Target) (subsys : Subsystem) : Sends :=
  andThen (configSubsysInb w subsys)
    (andThen
      (if subsys.isRestricted then
        each (fun host => andThen (sendHostConfigInb w host) (sendLinkHostInb w subsys host)) subsys.hostList
      else done)
      (andThen (each (sendSetNsInb w subsys) subsys.nsList)
        (if isHidden subsys then done else each (sendLinkPortidInb w subsys) target.portidList)))

def configTargetInb (w : Wire) (target : Target) : Sends :=
  andThen (fun s => if s.connected then done s else connectCtrl w s)
    (andThen (each (configPortidInb w) target.portidList) (each (configSubsysPartsInb w target) target.subsysList))

def configSubsysOob (w : Wire) (target : Target) (subsys : Subsystem) : Sends :=
  andThen (sendSetConfigOob w target uriSubsystem (buildSetSubsysOob subsys))
    (regardless
      (eachRegardless (fun ns => sendUpdateSubsysOob w target subsys.nqn uriNamespace (buildSetNsOob ns)) subsys.nsList)
      (regardless
        (eachRegardless
          (fun host =>
            andThen (sendSetConfigOob w target uriHost (buildSetHostOob host.nqn))
              (sendUpdateSubsysOob w target subsys.nqn uriHost (buildSetHostOob host.nqn)))
          subsys.hostList)
        (if isHidden subsys then done
        else eachRegardless (sendLinkPortidOob w target subsys) target.portidList)))

def configTargetOob (w : Wire) (target : Target) : Sends :=
  andThen (each (configPortidOob w target) target.portidList) (each (configSubsysOob w target) target.subsysList)

def configTarget (w : Wire) (target : Target) : Sends :=
  match target.mgmtMode with
  | .inBandMgmt => configTargetInb w target
  | .outOfBandMgmt => configTargetOob w target
  | .localMgmt => done

def sendDelTarget (w : Wire) (target : Target) : Sends :=
  match target.mgmtMode with
  | .inBandMgmt => sendSetConfig w .resetConfig
  | .outOfBandMgmt => execDelete w target uriConfig
  | .localMgmt => done

/-- Whether the target could be reset is not looked at. -/
def targetReconfig (w : Wire) (lists : Lists) (tgt : String) : Sends :=
  match findTarget lists tgt with
  | none => fun s => .ok (-enoent, s)
  | some target => regardless (sendDelTarget w target) (configTarget w target)

end Push

end NvmeDem
