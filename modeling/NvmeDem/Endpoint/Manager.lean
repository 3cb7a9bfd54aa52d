import Mathlib.Algebra.Group.Int.Defs
import NvmeDem.Dem.Address
import NvmeDem.Lib.Upsert

/-!
# The endpoint manager of a target

A managed target runs a manager that keeps the configuration of the target: ports, subsystems that allow any host or not, their
namespaces, hosts, and links of hosts and of ports to subsystems. It takes records in band, in the fixed fields of a message, and
requests out of band, as a URI and a JSON text. Setting or linking writes one item over what has the same key; deleting takes an
item and what hangs on it, and a reset takes everything.

The manager's own tools to write the configuration do what they are asked to. Its web server is not part of the repository:
`HttpLib.uri` stands for the URI that it hands over for the URL a client used.
-/

namespace NvmeDem

open Jansson Upsert

/-! ## The configuration -/

/-- What a configuration is made of. -/
inductive Item where
  | port (portid : Int) (fam typ : String) (treq : Int) (addr : String) (svcid : Int)
  | subsys (nqn : String) (allowany : Bool)
  | ns (subnqn : String) (nsid devid devnsid : Int)
  | host (nqn : String)
  | hostLink (subnqn hostnqn : String)
  | portLink (subnqn : String) (portid : Int)
  deriving DecidableEq, Repr

/-- What tells one item from another: the item without its attributes. -/
def Item.key : Item → Item
  | .port portid _ _ _ _ _ => .port portid "" "" 0 "" 0
  | .subsys nqn _ => .subsys nqn false
  | .ns subnqn nsid _ _ => .ns subnqn nsid 0 0
  | .host nqn => .host nqn
  | .hostLink subnqn hostnqn => .hostLink subnqn hostnqn
  | .portLink subnqn portid => .portLink subnqn portid

/-- What a request deletes. -/
inductive Deleted where
  | port (portid : Int)
  | subsys (nqn : String)
  | ns (subnqn : String) (nsid : Int)
  | host (nqn : String)
  | hostLink (subnqn hostnqn : String)
  | portLink (subnqn : String) (portid : Int)
  deriving DecidableEq, Repr

/-- Whether an item goes: with a port its links, with a subsystem its namespaces and links. -/
def Deleted.takes : Deleted → Item → Bool
  | .port id, .port portid _ _ _ _ _ => portid == id
  | .port id, .portLink _ portid => portid == id
  | .subsys nqn, .subsys subnqn _ => subnqn == nqn
  | .subsys nqn, .ns subnqn _ _ _ => subnqn == nqn
  | .subsys nqn, .hostLink subnqn _ => subnqn == nqn
  | .subsys nqn, .portLink subnqn _ => subnqn == nqn
  | .ns nqn id, .ns subnqn nsid _ _ => subnqn == nqn && nsid == id
  | .host nqn, .host hostnqn => hostnqn == nqn
  | .hostLink nqn name, .hostLink subnqn hostnqn => subnqn == nqn && hostnqn == name
  | .portLink nqn id, .portLink subnqn portid => subnqn == nqn && portid == id
  | _, _ => false

/-- A change of a configuration. -/
inductive Change where
  | reset
  | put (item : Item)
  | delete (deleted : Deleted)
  deriving DecidableEq, Repr

def applyChange (config : Finset Item) : Change → Finset Item
  | .reset => ∅
  | .put item => upsert Item.key config item
  | .delete deleted => config.filter (fun item => deleted.takes item = false)

/-- Every operation of the manager succeeds. -/
def changed (config : Finset Item) (change : Change) : Int × Finset Item := (0, applyChange config change)

def resetConfig (config : Finset Item) : Int × Finset Item := changed config .reset

def createPortid (config : Finset Item) (portid : Int) (fam typ : String) (req : Int) (addr : String) (svcid : Int) :
    Int × Finset Item := changed config (.put (.port portid fam typ req addr svcid))

def createSubsys (config : Finset Item) (subsys : String) (allowany : Int) : Int × Finset Item :=
  changed config (.put (.subsys subsys (allowany ≠ 0)))

def createNs (config : Finset Item) (subsys : String) (nsid devid devnsid : Int) : Int × Finset Item :=
  changed config (.put (.ns subsys nsid devid devnsid))

def createHost (config : Finset Item) (host : String) : Int × Finset Item := changed config (.put (.host host))

def linkHostToSubsys (config : Finset Item) (subsys host : String) : Int × Finset Item :=
  changed config (.put (.hostLink subsys host))

def linkPortToSubsys (config : Finset Item) (subsys : String) (portid : Int) : Int × Finset Item :=
  changed config (.put (.portLink subsys portid))

def deletePortid (config : Finset Item) (portid : Int) : Int × Finset Item := changed config (.delete (.port portid))

def deleteSubsys (config : Finset Item) (subsys : String) : Int × Finset Item := changed config (.delete (.subsys subsys))

def deleteNs (config : Finset Item) (subsys : String) (nsid : Int) : Int × Finset Item :=
  changed config (.delete (.ns subsys nsid))

def deleteHost (config : Finset Item) (host : String) : Int × Finset Item := changed config (.delete (.host host))

def unlinkHostFromSubsys (config : Finset Item) (subsys host : String) : Int × Finset Item :=
  changed config (.delete (.hostLink subsys host))

def unlinkPortFromSubsys (config : Finset Item) (subsys : String) (portid : Int) : Int × Finset Item :=
  changed config (.delete (.portLink subsys portid))

/-! ## In band -/

def nvmfNqnFieldLen : Nat := 256

/-- The text in an NQN field: reading goes on behind a field that has no terminating zero. -/
def nqnField (field : String) : Except Fault String :=
  if field.length < nvmfNqnFieldLen then .ok field else .error .outOfBounds

structure PortConfigEntry where
  trtype : UInt8
  adrfam : UInt8
  treq : UInt8
  portid : BitVec 16
  trsvcid : String
  traddr : String
  deriving DecidableEq, Repr

structure SubsysConfigEntry where
  subnqn : String
  allowanyhost : BitVec 8
  deriving DecidableEq, Repr

structure NsConfigEntry where
  subnqn : String
  nsid : BitVec 32
  deviceid : BitVec 32
  devicensid : BitVec 32
  deriving DecidableEq, Repr

structure HostConfigEntry where
  hostnqn : String
  deriving DecidableEq, Repr

structure SubsysDeleteEntry where
  subnqn : String
  deriving DecidableEq, Repr

structure NsDeleteEntry where
  subnqn : String
  nsid : BitVec 32
  deriving DecidableEq, Repr

structure HostDeleteEntry where
  hostnqn : String
  deriving DecidableEq, Repr

structure PortDeleteEntry where
  portid : BitVec 16
  deriving DecidableEq, Repr

structure LinkHostEntry where
  subnqn : String
  hostnqn : String
  deriving DecidableEq, Repr

structure LinkPortEntry where
  subnqn : String
  portid : BitVec 16
  deriving DecidableEq, Repr

/-- A message of the management interface. -/
inductive MiSend where
  | resetConfig
  | setPortConfig (entry : PortConfigEntry)
  | delPortConfig (entry : PortDeleteEntry)
  | linkPortConfig (entry : LinkPortEntry)
  | unlinkPortConfig (entry : LinkPortEntry)
  | setSubsysConfig (entry : SubsysConfigEntry)
  | delSubsysConfig (entry : SubsysDeleteEntry)
  | setNsConfig (entry : NsConfigEntry)
  | delNsConfig (entry : NsDeleteEntry)
  | setHostConfig (entry : HostConfigEntry)
  | delHostConfig (entry : HostDeleteEntry)
  | linkHostConfig (entry : LinkHostEntry)
  | unlinkHostConfig (entry : LinkHostEntry)
  deriving DecidableEq, Repr

/-- The device of an entry: the null block device has a number of its own on the wire. -/
def entryDevid (entry : NsConfigEntry) : Int :=
  if entry.deviceid = 255 then -1 else entry.deviceid.toInt

def handleMiSend (config : Finset Item) : MiSend → Except Fault (Int × Finset Item)
  | .resetConfig => .ok (NvmeDem.resetConfig config)
  | .setPortConfig entry =>
    .ok (createPortid config entry.portid.toNat (adrfamStr entry.adrfam) (trtypeStr entry.trtype) entry.treq.toNat entry.traddr
      (atoi entry.trsvcid.toList))
  | .linkPortConfig entry => do
    let subnqn ← nqnField entry.subnqn
    return linkPortToSubsys config subnqn entry.portid.toNat
  | .setSubsysConfig entry => do
    let subnqn ← nqnField entry.subnqn
    return createSubsys config subnqn entry.allowanyhost.toNat
  | .setNsConfig entry => do
    let subnqn ← nqnField entry.subnqn
    return createNs config subnqn entry.nsid.toInt (entryDevid entry) entry.devicensid.toInt
  | .setHostConfig entry => do
    let hostnqn ← nqnField entry.hostnqn
    return createHost config hostnqn
  | .linkHostConfig entry => do
    let subnqn ← nqnField entry.subnqn
    let hostnqn ← nqnField entry.hostnqn
    return linkHostToSubsys config subnqn hostnqn
  | .delPortConfig entry => .ok (deletePortid config entry.portid.toNat)
  | .unlinkPortConfig entry => do
    let subnqn ← nqnField entry.subnqn
    return unlinkPortFromSubsys config subnqn entry.portid.toNat
  | .delSubsysConfig entry => do
    let subnqn ← nqnField entry.subnqn
    return deleteSubsys config subnqn
  | .delNsConfig entry => do
    let subnqn ← nqnField entry.subnqn
    return deleteNs config subnqn entry.nsid.toInt
  | .delHostConfig entry => do
    let hostnqn ← nqnField entry.hostnqn
    return deleteHost config hostnqn
  | .unlinkHostConfig entry => do
    let subnqn ← nqnField entry.subnqn
    let hostnqn ← nqnField entry.hostnqn
    return unlinkHostFromSubsys config subnqn hostnqn

/-! ## Out of band -/

def uriConfig : String := "config"
def uriSubsystem : String := "subsystem"
def uriPortid : String := "portid"
def uriHost : String := "host"
def uriNamespace : String := "namespace"
def methodShutdown : String := "shutdown"
def tagTreq : String := "TREQ"

def minPortid : Int := 1
def maxPortid : Int := 0xfffe

def httpErrPageNotFound : Int := 404
def httpErrInternal : Int := 500
def httpErrNotImplemented : Int := 501

/-- The web server: the URI it hands over for a URL, or nothing when no request comes in. -/
structure HttpLib where
  uri : String → Option String

/-- The parts of a URI behind its slashes. Those behind the eighth are not looked at; no request has more than four. -/
def parseUri (uri : String) : List String := ((uri.toList.splitOn '/').drop 1).map String.ofList

def badRequest (config : Finset Item) : Int × Finset Item := (httpErrNotImplemented, config)

def invalidData (config : Finset Item) : Int × Finset Item := (httpErrInternal, config)

/-- Whether the number under a key is there and not zero. -/
def flagField (tag : String) (new : Json) : Int :=
  match new.objectGet tag with
  | some obj => if obj.integerValue = 0 then 0 else 1
  | none => 0

def postPortid (J : JsonLib) (config : Finset Item) (port : Option String) (body : String) :
    Except Fault (Int × Finset Item) :=
  match port with
  | none => .error .nullString
  | some port =>
    if atoi port.toList < minPortid ∨ maxPortid < atoi port.toList then .ok (invalidData config)
    else
      match J.loads body with
      | none => .ok (invalidData config)
      | some new =>
        match new.objectGet tagType, new.objectGet tagFamily, new.objectGet tagAddress, new.objectGet tagTrsvcid with
        | some typ, some fam, some addr, some svcid =>
          match typ.stringValue, fam.stringValue, addr.stringValue with
          | some typ, some fam, some addr =>
            .ok (createPortid config (atoi port.toList) fam typ (flagField tagTreq new) addr (cInt svcid.integerValue))
          | _, _, _ => .error .nullString
        | _, _, _, _ => .ok (invalidData config)

def postSubsys (J : JsonLib) (config : Finset Item) (subsys : Option String) (body : String) : Int × Finset Item :=
  match J.loads body with
  | none => invalidData config
  | some new =>
    match subsys.or (new.strField tagSubnqn) with
    | none => invalidData config
    | some subsys => createSubsys config subsys (flagField tagAllowAny new)

def postNs (J : JsonLib) (config : Finset Item) (subsys : String) (ns : Option String) (body : String) : Int × Finset Item :=
  match J.loads body with
  | none => invalidData config
  | some new =>
    match (ns.map (fun ns => atoi ns.toList)).or ((new.objectGet tagNsid).map (fun obj => cInt obj.integerValue)) with
    | none => invalidData config
    | some nsid =>
      match (new.objectGet tagDevid).map (fun obj => cInt obj.integerValue) with
      | none => invalidData config
      | some devid =>
        match new.objectGet tagDevnsid with
        | some obj => createNs config subsys nsid devid (cInt obj.integerValue)
        | none => if devid = -1 then createNs config subsys nsid devid 0 else invalidData config

/-- A host, or a link of a host: `create` is given the NQN of the body. -/
def postNqn (J : JsonLib) (config : Finset Item) (body : String) (create : String → Int × Finset Item) :
    Except Fault (Int × Finset Item) :=
  match (J.loads body).bind (fun new => new.objectGet tagHostnqn) with
  | none => .ok (invalidData config)
  | some obj =>
    match obj.stringValue with
    | none => .error .nullString
    | some host => .ok (create host)

def postHost (J : JsonLib) (config : Finset Item) (body : String) : Except Fault (Int × Finset Item) :=
  postNqn J config body (createHost config)

def linkHostRequest (J : JsonLib) (config : Finset Item) (subsys body : String) : Except Fault (Int × Finset Item) :=
  postNqn J config body (linkHostToSubsys config subsys)

def linkPortidRequest (J : JsonLib) (config : Finset Item) (subsys body : String) : Int × Finset Item :=
  match (J.loads body).bind (fun new => new.objectGet tagPortid) with
  | none => invalidData config
  | some obj => linkPortToSubsys config subsys (cInt obj.integerValue)

def postRequest (J : JsonLib) (config : Finset Item) (parts : List String) (body : String) :
    Except Fault (Int × Finset Item) :=
  if parts = [] then .ok (httpErrPageNotFound, config)
  else if body = "" then .ok (if parts = [methodShutdown] then (0, config) else badRequest config)
  else
    match parts with
    | [p] =>
      if p = uriSubsystem then .ok (postSubsys J config none body)
      else if p = uriPortid then postPortid J config none body
      else if p = uriHost then postHost J config body
      else .ok (badRequest config)
    | [p, name] =>
      if p = uriSubsystem then .ok (postSubsys J config (some name) body)
      else if p = uriPortid then postPortid J config (some name) body
      else .ok (badRequest config)
    | [p, subsys, kind] =>
      if p ≠ uriSubsystem then .ok (badRequest config)
      else if kind = uriNamespace then .ok (postNs J config subsys none body)
      else if kind = uriHost then linkHostRequest J config subsys body
      else if kind = uriPortid then .ok (linkPortidRequest J config subsys body)
      else .ok (badRequest config)
    | [p, subsys, kind, ns] =>
      if p ≠ uriSubsystem ∨ kind ≠ uriNamespace then .ok (badRequest config)
      else .ok (postNs J config subsys (some ns) body)
    | _ => .ok (badRequest config)

def deleteRequest (config : Finset Item) (parts : List String) : Int × Finset Item :=
  if parts = [] then (httpErrPageNotFound, config)
  else if parts = [uriConfig] then resetConfig config
  else
    match parts with
    | [p, name] =>
      if p = uriSubsystem then deleteSubsys config name
      else if p = uriPortid then deletePortid config (atoi name.toList)
      else if p = uriHost then deleteHost config name
      else badRequest config
    | [p, subsys, kind, name] =>
      if p ≠ uriSubsystem then badRequest config
      else if kind = uriNamespace then deleteNs config subsys (atoi name.toList)
      else if kind = uriPortid then unlinkPortFromSubsys config subsys (atoi name.toList)
      else if kind = uriHost then unlinkHostFromSubsys config subsys name
      else badRequest config
    | _ => badRequest config

end NvmeDem
