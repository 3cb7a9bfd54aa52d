import NvmeDem.Dem.Inventory
import NvmeDem.Dem.Address

/-!
# What a manager reports in band

A manager holds a list of its devices and one of its interfaces. Asked in band it writes a header and an entry for each into a
page, and the daemon reads as many entries as the header counts. The header counts them in one byte, and so does an entry number
the device.
-/

namespace NvmeDem

def pageSize : Nat := 4096

/-! ## Records -/

structure GetNsDevicesEntry where
  devid : BitVec 8
  nsid : BitVec 8
  deriving DecidableEq, Repr

structure GetTransportsEntry where
  trtype : UInt8
  adrfam : UInt8
  traddr : String
  deriving DecidableEq, Repr

/-- A header and the entries behind it. -/
structure MiReceive (α : Type) where
  numEntries : BitVec 8
  entries : List α
  deriving DecidableEq, Repr

/-- The bytes of a page that entries of a size take, behind a header of one byte. -/
def reportSize (size count : Nat) : Nat := count * size + 1

/-- Entries written one after the other: what is behind the page is not the manager's to write. -/
def writeEntries {α β : Type} (size : Nat) (entry : α → β) (xs : List α) : Except Fault (MiReceive β) :=
  if reportSize size xs.length ≤ pageSize then .ok { numEntries := BitVec.ofNat 8 xs.length, entries := xs.map entry }
  else .error .outOfBounds

/-! ## The manager -/

def sentNsdev (dev : Nsdev) : GetNsDevicesEntry where
  devid := BitVec.ofInt 8 dev.nsdev
  nsid := BitVec.ofInt 8 dev.nsid

def getNsdev (devices : List Nsdev) : Except Fault (MiReceive GetNsDevicesEntry) := writeEntries 8 sentNsdev devices

def sentXport (xport : FabricIface) : GetTransportsEntry where
  trtype := toTrtype xport.type
  adrfam := toAdrfam xport.fam
  traddr := xport.addr

def getXport (interfaces : List FabricIface) : Except Fault (MiReceive GetTransportsEntry) :=
  writeEntries 264 sentXport interfaces

/-- The types and families of the interfaces that a manager has: it does not take another from its configuration. -/
def validTrtype (type : String) : Bool := type == "rdma" || type == "tcp"
def validAdrfam (family : String) : Bool := family == "ipv4" || family == "ipv6"

/-! ## The daemon -/

def receivedNsdev (entry : GetNsDevicesEntry) : Nsdev where
  nsdev := entry.devid.toNat
  nsid := entry.nsid.toNat

/-- The devices that the daemon finds in a report, the null block device under the number it has there. -/
def receivedNsdevs (msg : MiReceive GetNsDevicesEntry) : List Nsdev :=
  (msg.entries.take msg.numEntries.toNat).map receivedNsdev

def receivedXport (entry : GetTransportsEntry) : Except Fault FabricIface := do
  let type ← strcpy configTypeSize (some (trtypeStr entry.trtype))
  let fam ← strcpy configFamilySize (some (adrfamStr entry.adrfam))
  return { type := type, fam := fam, addr := cCut configAddressSize entry.traddr }

def receivedXports (msg : MiReceive GetTransportsEntry) : Except Fault (List FabricIface) :=
  (msg.entries.take msg.numEntries.toNat).mapM receivedXport

end NvmeDem
