import NvmeDem.Endpoint.Calls
import NvmeDem.Endpoint.Nvmet

/-!
# The back end of a manager that has its target run by the kernel

Each operation goes to a directory and makes, writes, links or deletes what it is asked to there; that something is there already, or not
there any more, is no error. It does not look at whether an attribute took what was written to it, except for those of a port that was
there before.

A name is one component of a path. Paths are made in buffers of a fixed size; those that are made of the names in a directory fit.
-/

namespace NvmeDem.Configfs

open Nvmet

/-! ## Paths -/

def cfsPath : String := "/sys/kernel/config/nvmet/"
def cfsSubsys : String := "subsystems/"
def cfsNs : String := "namespaces/"
def cfsHosts : String := "hosts/"
def cfsAllowed : String := "allowed_hosts/"

def maxPathLen : Nat := 512

/-- Make a path in a buffer. -/
def sprintf (path : String) : Except Fault Unit := if path.length < maxPathLen then .ok () else .error .outOfBounds

/-- A number that names a directory, in the buffer that it is made in. -/
def numName (n : Int) : String := cCut 6 (toString n)

def nullBlkDevice : String := "/dev/nullb0"

def nvmeDevice (devid devnsid : Int) : String := s!"/dev/nvme{devid}n{devnsid}"

def nullbDevid : Int := -1

def devicePath (devid devnsid : Int) : String := if devid = nullbDevid then nullBlkDevice else nvmeDevice devid devnsid

def nvmfTreqRequired : Int := 1
def nvmfTreqNotRequired : Int := 2

def treqStr (req : Int) : String :=
  if req = nvmfTreqRequired then "required" else if req = nvmfTreqNotRequired then "not required" else "not specified"

/-- What is there already is as good as made. -/
def madeOr (out : Int × Tree) : Int × Tree := (if out.1 = eexist then 0 else -out.1, out.2)

/-- What is not there is as good as deleted. -/
def goneOr (out : Int × Tree) : Int × Tree := (if out.1 = enoent then 0 else -out.1, out.2)

/-! ## Subsystems -/

def deleteAllAllowedHosts (t : Tree) (subsys : String) : Tree :=
  (t.filterMap (Node.allowedOf subsys)).foldl (fun t host => (unlink t (.allowed subsys host)).2) t

def deleteAllNs (k : Kernel) (t : Tree) (subsys : String) : Tree :=
  (t.filterMap (Node.nsOf subsys)).foldl (fun t name => (rmdir (writeEnable k t subsys name false) (.ns subsys name)).2) t

/-- The directory of every port is looked through. -/
def unlinkAllPorts (t : Tree) (subsys : String) : Tree :=
  (t.filterMap Node.portName).foldl
    (fun t name => if has t (.portLink name subsys) then (unlink t (.portLink name subsys)).2 else t) t

def deleteSubsysIn (k : Kernel) (t : Tree) (subsys : String) : Tree :=
  if has t (.subsys subsys) then
    (rmdir (unlinkAllPorts (deleteAllNs k (deleteAllAllowedHosts t subsys) subsys) subsys) (.subsys subsys)).2
  else t

def deleteSubsys (k : Kernel) (t : Tree) (subsys : String) : Except Fault (Int × Tree) := do
  sprintf (cfsPath ++ cfsSubsys ++ subsys)
  return (0, if k.loaded then deleteSubsysIn k t subsys else t)

def createSubsys (k : Kernel) (t : Tree) (subsys : String) (allowany : Int) : Except Fault (Int × Tree) :=
  if k.loaded then
    let (ret, t) := madeOr (mkdir k t (.subsys subsys false))
    .ok (ret, if ret = 0 then writeAllowAny t subsys (allowany ≠ 0) else t)
  else .ok (-enoent, t)

/-! ## Namespaces -/

/-- Write the device of a namespace, and put it in use. -/
def useDevice (k : Kernel) (t : Tree) (subsys name path : String) : Tree :=
  writeEnable k (writePath k t subsys name path) subsys name true

def createNs (k : Kernel) (t : Tree) (subsys : String) (nsid devid devnsid : Int) : Except Fault (Int × Tree) :=
  if k.loaded then do
    sprintf s!"{subsys}/{cfsNs}{nsid}"
    let (ret, t) := madeOr (mkdir k t (.ns subsys (toString nsid) "" false))
    .ok (ret, if ret = 0 then useDevice k t subsys (toString nsid) (devicePath devid devnsid) else t)
  else .ok (-enoent, t)

def deleteNs (k : Kernel) (t : Tree) (subsys : String) (nsid : Int) : Except Fault (Int × Tree) :=
  if k.loaded then do
    sprintf s!"{subsys}/{cfsNs}{nsid}"
    .ok (0, if has t (.ns subsys (toString nsid)) then
      (rmdir (writeEnable k t subsys (toString nsid) false) (.ns subsys (toString nsid))).2 else t)
  else .ok (0, t)

/-! ## Hosts -/

def createHost (k : Kernel) (t : Tree) (host : String) : Except Fault (Int × Tree) :=
  .ok (if k.loaded then madeOr (mkdir k t (.host host)) else (-enoent, t))

def deleteHostIn (t : Tree) (host : String) : Tree := (rmdir t (.host host)).2

/-- Whether the host could be deleted is not looked at. -/
def deleteHost (k : Kernel) (t : Tree) (host : String) : Except Fault (Int × Tree) :=
  .ok (0, if k.loaded then deleteHostIn t host else t)

/-! ## Ports -/

/-- What the attributes of a port are to be. -/
def askedAttrs (fam typ : String) (req : Int) (addr : String) (svcid : Int) : PortAttrs :=
  { adrfam := fam, trtype := typ, traddr := addr, treq := treqStr req, trsvcid := numName svcid }

def writeAttrs (k : Kernel) (t : Tree) (name : String) (asked : PortAttrs) : Tree :=
  PortAttr.all.foldl (fun t attr => writePort k t name attr (asked.get attr)) t

/-- Whether every attribute reads as it was written. -/
def readsBack (t : Tree) (name : String) (asked : PortAttrs) : Bool :=
  PortAttr.all.all (fun attr => readPort t name attr == asked.get attr)

/-- The attributes of a new port are not looked at, those of one that was there are. -/
def createPortid (k : Kernel) (t : Tree) (portid : Int) (fam typ : String) (req : Int) (addr : String) (svcid : Int) :
    Except Fault (Int × Tree) :=
  if k.loaded then
    let (err, t) := mkdir k t (.port (numName portid) k.fresh)
    let asked := askedAttrs fam typ req addr svcid
    if err ≠ 0 ∧ err ≠ eexist then .ok (-err, t)
    else
      let t := writeAttrs k t (numName portid) asked
      .ok (if err = 0 ∨ readsBack t (numName portid) asked then 0 else -ebusy, t)
  else .ok (-enoent, t)

def deletePortidIn (t : Tree) (name : String) : Tree :=
  if has t (.port name) then
    let t := (t.filterMap (Node.linkOf name)).foldl (fun t nqn => (unlink t (.portLink name nqn)).2) t
    (rmdir t (.port name)).2
  else t

def deletePortid (k : Kernel) (t : Tree) (portid : Int) : Except Fault (Int × Tree) :=
  .ok (0, if k.loaded then deletePortidIn t (toString portid) else t)

/-! ## Links -/

def linkHostToSubsys (k : Kernel) (t : Tree) (subsys host : String) : Except Fault (Int × Tree) :=
  if k.loaded then do
    sprintf (cfsPath ++ cfsHosts ++ host)
    sprintf s!"{subsys}/{cfsAllowed}{host}"
    .ok (madeOr (symlink k t (.allowed subsys host)))
  else .ok (-enoent, t)

def unlinkHostFromSubsys (k : Kernel) (t : Tree) (subsys host : String) : Except Fault (Int × Tree) :=
  if k.loaded then do
    sprintf s!"{subsys}/{cfsAllowed}{host}"
    .ok (goneOr (unlink t (.allowed subsys host)))
  else .ok (-enoent, t)

def linkPortToSubsys (k : Kernel) (t : Tree) (subsys : String) (portid : Int) : Except Fault (Int × Tree) :=
  if k.loaded then do
    sprintf (cfsPath ++ cfsSubsys ++ subsys)
    sprintf s!"{portid}/{cfsSubsys}{subsys}"
    .ok (madeOr (symlink k t (.portLink (toString portid) subsys)))
  else .ok (-enoent, t)

def unlinkPortFromSubsys (k : Kernel) (t : Tree) (subsys : String) (portid : Int) : Except Fault (Int × Tree) :=
  if k.loaded then do
    sprintf s!"{portid}/{cfsSubsys}{subsys}"
    .ok (goneOr (unlink t (.portLink (toString portid) subsys)))
  else .ok (-enoent, t)

/-! ## Everything -/

/-- Every subsystem, then every port, by the number that its name says, then every host. -/
def resetConfig (k : Kernel) (t : Tree) : Except Fault (Int × Tree) := do
  if !k.loaded then return (0, t)
  let t ← (t.filterMap Node.subsysName).foldlM (fun t nqn => (deleteSubsys k t nqn).map Prod.snd) t
  let t ← (t.filterMap Node.portName).foldlM (fun t name => (deletePortid k t (atoi name.toList)).map Prod.snd) t
  let t ← (t.filterMap Node.hostName).foldlM (fun t host => (deleteHost k t host).map Prod.snd) t
  return (0, t)

end NvmeDem.Configfs

namespace NvmeDem

open Nvmet in
/-- A call of an operation, on the directories. -/
def OpsCall.cfgfsRun (k : Kernel) (t : Tree) : OpsCall → Except Fault (Int × Tree)
  | .resetConfig => Configfs.resetConfig k t
  | .createPortid portid fam typ req addr svcid => Configfs.createPortid k t portid fam typ req addr svcid
  | .deletePortid portid => Configfs.deletePortid k t portid
  | .createSubsys subsys allowany => Configfs.createSubsys k t subsys allowany
  | .deleteSubsys subsys => Configfs.deleteSubsys k t subsys
  | .createNs subsys nsid devid devnsid => Configfs.createNs k t subsys nsid devid devnsid
  | .deleteNs subsys nsid => Configfs.deleteNs k t subsys nsid
  | .createHost name => Configfs.createHost k t name
  | .deleteHost name => Configfs.deleteHost k t name
  | .linkHostToSubsys subsys name => Configfs.linkHostToSubsys k t subsys name
  | .unlinkHostFromSubsys subsys name => Configfs.unlinkHostFromSubsys k t subsys name
  | .linkPortToSubsys subsys portid => Configfs.linkPortToSubsys k t subsys portid
  | .unlinkPortFromSubsys subsys portid => Configfs.unlinkPortFromSubsys k t subsys portid

end NvmeDem
