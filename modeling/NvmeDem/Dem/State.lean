import NvmeDem.Store.Targets

/-!
# The daemon's own copy of the configuration

Beside the JSON root the daemon keeps linked lists: its targets with their subsystems and ports, its groups with the targets
linked to them, and one list of the hosts of all groups. A request changes both; what a host on the fabric may see is read from
these lists alone.

A linked list is a list. Where the C code compares pointers, the record carries the address it was allocated at (`ptr`), and no
two records that are allocated have the same.
-/

namespace NvmeDem

/-! ## Targets -/

/-- An entry of a discovery log page. -/
structure LogEntry where
  trtype : UInt8 := 0
  adrfam : UInt8 := 0
  subtype : UInt8 := 0
  treq : UInt8 := 0
  portid : UInt16 := 0
  cntlid : UInt16 := 0
  trsvcid : String := ""
  subnqn : String := ""
  traddr : String := ""
  qptype : UInt8 := 0
  prtype : UInt8 := 0
  cms : UInt8 := 0
  pkey : UInt16 := 0
  deriving DecidableEq, Repr

/-- A log page that was fetched from a target, through one of its ports. -/
structure Logpage where
  portid : Nat
  e : LogEntry
  valid : Bool
  deriving DecidableEq, Repr

/-- A host that a subsystem allows; `name` is its alias. -/
structure Host where
  name : String
  nqn : String
  deriving DecidableEq, Repr

/-- A namespace of a subsystem. -/
structure Ns where
  nsid : Int
  devid : Int
  devns : Int
  deriving DecidableEq, Repr

structure Subsystem where
  nqn : String
  access : Int := 0
  hostList : List Host := []
  nsList : List Ns := []
  logpageList : List Logpage := []
  deriving DecidableEq, Repr

def Subsystem.isRestricted (subsys : Subsystem) : Bool := subsys.access == restricted

/-- A port of a target. Of `addr` the elements that the address family has; the rest of the array is never written. -/
structure Portid where
  ptr : Nat
  portid : Int := 0
  type : String := ""
  family : String := ""
  address : String := ""
  port : String := ""
  portNum : Int := 0
  addr : List Int := []
  /-- The record was given back and is still linked. -/
  freed : Bool := false
  deriving DecidableEq, Repr

/-! The null block device: in the JSON root, in the lists, and as a target reports it in band. -/

def nullBlkDevid : Int := -1
def nullbDevid : Int := -1
def nvmfNullbDevid : Int := 255

/-- A device that a target reports. -/
structure Nsdev where
  nsdev : Int
  nsid : Int
  deriving DecidableEq, Repr

/-- An interface that a target reports. -/
structure FabricIface where
  type : String
  fam : String
  addr : String
  deriving DecidableEq, Repr

/-- A target; `name` is its alias. -/
structure Target where
  ptr : Nat
  name : String
  mgmtMode : MgmtMode := .localMgmt
  refresh : Int := 0
  groupMember : Bool := false
  oob : OobIface := { address := "", port := 0 }
  inb : PortArg := { portid := 0, type := "", family := "", address := "", portNum := 0 }
  subsysList : List Subsystem := []
  portidList : List Portid := []
  deviceList : List Nsdev := []
  fabricIfaceList : List FabricIface := []
  deriving DecidableEq, Repr

/-! ## Groups -/

/-- A group and the targets that are linked to it. -/
structure Group where
  ptr : Nat
  name : String
  targetList : List Nat := []
  deriving DecidableEq, Repr

/-- A host of a group; `name` is its alias. The group is NULL when it was not found. -/
structure GroupHostLink where
  group : Option Nat
  name : String
  nqn : String
  deriving DecidableEq, Repr

/-! ## The lists -/

structure Lists where
  targetList : List Target := []
  groupList : List Group := []
  hostList : List GroupHostLink := []
  /-- The host NQNs of the async-event requests that are pending. -/
  aenReqList : List String := []
  deriving DecidableEq, Repr

end NvmeDem
