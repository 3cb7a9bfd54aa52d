import NvmeDem.Dem.Address
import NvmeDem.Dem.State
import NvmeDem.Lib.Collect

/-!
# Loading a configuration

At its start the daemon builds its targets from the JSON root: five nested loops over the arrays of the root, each of which
skips the entries it can make nothing of. A text is copied as it is; a number becomes a C `int`.

The parser of an address cuts the JSON library's own copy of the text at a slash. Nothing reads that text again while the lists
are built, and the root is not part of what a load gives back here.
-/

namespace NvmeDem

open Jansson

def nvmeRdmaIpPort : Int := 4420
def configPortSize : Nat := 8

/-! ## Subsystems -/

/-- The record that a mention in an access list makes of a host of the root. -/
def checkMention (name nqn : Option String) (obj : Json) : Except Fault (List Host) :=
  match name, obj.stringValue with
  | some n, some s =>
    if n = s then do
      let nqn ← strcpy maxNqnSize nqn
      let name ← strcpy maxAliasSize name
      return [{ name := name, nqn := nqn }]
    else .ok []
  | _, _ => .error .nullString

def checkHost (acl : Json) (name nqn : Option String) : Except Fault (List Host) :=
  collect (checkMention name nqn) acl.elems

def checkHosts (acl hosts : Json) : Except Fault (List Host) :=
  collect (fun iter =>
    match iter.objectGet tagAlias, iter.objectGet tagHostnqn with
    | some name, some nqn => checkHost acl name.stringValue nqn.stringValue
    | _, _ => .ok []) hosts.elems

def checkNamespace (iter : Json) : Option Ns :=
  match iter.intField tagNsid, iter.intField tagDevid with
  | some nsid, some devid =>
    let devns := if cInt devid = nullBlkDevid then 0 else ((iter.intField tagDevnsid).map cInt).getD 0
    some { nsid := cInt nsid, devid := cInt devid, devns := devns }
  | _, _ => none

def checkNamespaces (list : Json) : List Ns := list.elems.filterMap checkNamespace

/-- The hosts of a subsystem: those that its list allows, if it is restricted and there is a list. -/
def allowedHosts (access : Int) (acl hosts : Option Json) : Except Fault (List Host) :=
  match acl, hosts with
  | some acl, some hosts => if access = 0 then checkHosts acl hosts else .ok []
  | _, _ => .ok []

/-- The subsystem of one entry; an entry without an NQN makes none. -/
def checkSubsystem (hosts : Option Json) (iter : Json) : Except Fault (List Subsystem) :=
  match iter.objectGet tagSubnqn with
  | none => .ok []
  | some nqn => do
    let nqn ← strcpy maxNqnSize nqn.stringValue
    let nsList := ((iter.objectGet tagNsids).map checkNamespaces).getD []
    let access := ((iter.intField tagAllowAny).map cInt).getD 0
    let hostList ← allowedHosts access (iter.objectGet tagHosts) hosts
    return [{ nqn := nqn, access := access, hostList := hostList, nsList := nsList }]

def checkSubsystems (array : Json) (hosts : Option Json) : Except Fault (List Subsystem) :=
  collect (checkSubsystem hosts) array.elems

/-! ## Ports -/

/-- A text copied with a bound: what does not fit is left out. -/
def strncpy (size : Nat) : Option String → Except Fault String
  | none => .error .nullString
  | some s => .ok (cCut size s)

def familyToAddr (family str : String) : Option (Except Fault AddrOut) :=
  if family = "ipv4" then some (ipv4ToAddr str)
  else if family = "ipv6" then some (ipv6ToAddr str)
  else if family = "fc" then some (fcToAddr str)
  else none

/-- Fill in a port from its entry: whether the entry was good, and the port as far as it was filled in. -/
def getTransportInfo (grp : Json) (portid : Portid) : Except Fault (Bool × Portid) :=
  match grp.objectGet tagType with
  | none => .ok (false, portid)
  | some type => do
    let type ← strncpy configTypeSize type.stringValue
    let id := cInt ((grp.objectGet tagPortid).map Json.integerValue |>.getD 0)
    let portid := { portid with type := type, portid := id }
    match grp.objectGet tagFamily with
    | none => return (false, portid)
    | some family =>
      let family ← strncpy configFamilySize family.stringValue
      let portid := { portid with family := family }
      match grp.objectGet tagAddress with
      | none => return (false, portid)
      | some address =>
        -- A bad family is found before the text of the address is looked at.
        match familyToAddr family (address.stringValue.getD ""), address.stringValue with
        | none, _ => return (false, portid)
        | some _, none => .error .nullString
        | some out, some _ =>
          let out ← out
          if out.ret < 0 then return (false, portid)
          else
            let portNum := cInt ((grp.objectGet tagTrsvcid).map Json.integerValue |>.getD nvmeRdmaIpPort)
            return (true, { portid with
              addr := out.addr
              address := cCut configAddressSize (String.ofList out.text)
              portNum := portNum
              port := cCut (configPortSize - 1) (toString portNum) })

/-- Add a port. It is linked first; when its entry is no good it is given back and stays linked. -/
def addPortToTarget (target : Target) (ptr : Nat) (obj : Json) : Except Fault (Int × Target) := do
  let (good, portid) ← getTransportInfo obj { ptr := ptr }
  if good then return (0, { target with portidList := target.portidList ++ [portid] })
  else return (-einval, { target with portidList := target.portidList ++ [{ portid with freed := true }] })

/-! ## Targets -/

def setupOobTarget (parent : Json) (target : Target) : Except Fault (Bool × Target) :=
  match parent.objectGet tagInterface with
  | none => .ok (false, target)
  | some iface =>
    match iface.strField tagIfaddress with
    | none => .ok (false, target)
    | some address => do
      let address ← strcpy configAddressSize (some address)
      match iface.intField tagIfport with
      | none => return (false, { target with oob := { target.oob with address := address } })
      | some port => return (true, { target with oob := { address := address, port := cInt port } })

/-- A target whose in-band interface is not complete is managed locally. -/
def setupInbTarget (parent : Json) (target : Target) : Except Fault Target :=
  let reset := { target with mgmtMode := .localMgmt }
  match parent.objectGet tagInterface with
  | none => .ok reset
  | some iface =>
    match iface.strField tagType with
    | none => .ok reset
    | some type => do
      let type ← strcpy configTypeSize (some type)
      match iface.strField tagFamily with
      | none => return reset
      | some family =>
        let family ← strcpy configFamilySize (some family)
        match iface.strField tagAddress with
        | none => return reset
        | some address =>
          let address ← strcpy configAddressSize (some address)
          match iface.intField tagTrsvcid with
          | none => return reset
          | some port =>
            return { target with inb :=
              { target.inb with type := type, family := family, address := address, portNum := cInt port } }

/-- The interface of a target: whether the target can be used, and the target with it. -/
def setupTarget (parent : Json) (target : Target) : Except Fault (Bool × Target) :=
  match target.mgmtMode with
  | .outOfBandMgmt => setupOobTarget parent target
  | .inBandMgmt => (setupInbTarget parent target).map (fun t => (true, t))
  | .localMgmt => .ok (true, target)

/-- Build a target from its entry: the target that is now on the list, if there is one, and whether the caller is given a
pointer to it. -/
def addToTargetList (ptr : Nat) (parent : Json) (hosts : Option Json) : Except Fault (Option Target × Bool) :=
  match parent.objectGet tagAlias with
  | none => .ok (none, false)
  | some obj => do
    let name ← strncpy maxAliasSize obj.stringValue
    let refresh := ((parent.intField tagRefresh).map cInt).getD 0
    let mode := ((parent.strField tagMgmtMode).map getMgmtMode).getD .localMgmt
    let (good, target) ← setupTarget parent { ptr := ptr, name := name, mgmtMode := mode }
    if good then
      let subsysList ← ((parent.objectGet tagSubsystems).map (fun s => checkSubsystems s hosts)).getD (.ok [])
      return (some { target with refresh := refresh, subsysList := subsysList }, true)
    else return (some target, false)

/-- One port of a target's entry. It is added through the pointer to the target, which may be NULL (`good` is false). -/
def addPort (good : Bool) (target : Option Target) (obj : Json × Nat) : Except Fault (Option Target) :=
  match target, good with
  | some t, true => (addPortToTarget t obj.2 obj.1).map (fun r : Int × Target => some r.2)
  | _, _ => .error .nullPointer

def addPorts (target : Option Target × Bool) (iter : Json) : Except Fault (Option Target) :=
  match iter.objectGet tagPortids with
  | none => .ok target.1
  | some ports => ports.elems.zipIdx.foldlM (addPort target.2) target.1

/-- The target of one entry, with its ports. -/
def loadTarget (hosts : Option Json) (ptr : Nat) (iter : Json) : Except Fault (List Target) := do
  let target ← addToTargetList ptr iter hosts
  let target ← addPorts target iter
  return target.toList

def buildTargetList (root : Json) : Except Fault (List Target) :=
  match root.objectGet tagTargets with
  | none => .ok []
  | some array => collect (fun iter => loadTarget (root.objectGet tagHosts) iter.2 iter.1) array.elems.zipIdx

end NvmeDem
