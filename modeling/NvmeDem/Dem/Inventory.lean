import NvmeDem.Dem.World
import NvmeDem.Lib.Collect

/-!
# The inventory of a target

A managed target reports its devices and its interfaces. The daemon keeps both in its lists and writes them to the entry of the
target in the root. Out of band the target answers with a JSON text for each, in band with records.

What is in a list and is reported again is marked valid, and what is not marked is taken off; the devices that are reported in
band are the exception, of which none is taken off.
-/

namespace NvmeDem

open Jansson

def tagNsdevs : String := "NSDevices"
def tagInterfaces : String := "Interfaces"

/-! ## Lists with marks -/

section

variable {α : Type}

/-- The first element of a list that is the same as `x` is marked; when there is none, `x` is added with a mark. -/
def markOrAdd (same : α → α → Bool) (list : List (α × Bool)) (x : α) : List (α × Bool) :=
  if list.any (fun y => same y.1 x) then Keyed.modifyFirst (fun y => same y.1 x) (fun y => (y.1, true)) list
  else list ++ [(x, true)]

/-- A list before anything is marked. -/
def unmarked (list : List α) : List (α × Bool) := list.map (fun x => (x, false))

/-- What is marked. -/
def marked (list : List (α × Bool)) : List α := (list.filter Prod.snd).map Prod.fst

end

/-- The entry of a target in the root is given an array. -/
def setTargetArray (root : Json) (name tag : String) (array : List Json) : Option Json :=
  (findArray (root.arrayOr tagTargets) tagAlias name).map (fun i =>
    root.putAt tagTargets i ((arrayGet (root.arrayOr tagTargets) i).objectSet tag (.array array)))

/-! ## Out of band -/

/-- A device as the target spells it. Of the null block device the namespace is not read. -/
def oobNsdev (iter : Json) : Option Nsdev :=
  match iter.intField tagDevid with
  | none => none
  | some devid =>
    if cInt devid = nullBlkDevid then some { nsdev := cInt devid, nsid := 0 }
    else (iter.intField tagDevnsid).map (fun nsid => { nsdev := cInt devid, nsid := cInt nsid })

def sameNsdev (x y : Nsdev) : Bool := x.nsdev == y.nsdev && (y.nsdev == nullBlkDevid || x.nsid == y.nsid)

/-- The entry of a device in the root. -/
def nsdevEntry (dev : Nsdev) : Json :=
  let iter := jsonSetInt (.object []) tagDevid dev.nsdev
  if dev.nsdev = nullBlkDevid then iter else jsonSetInt iter tagDevnsid dev.nsid

/-- The loop of `setJsonOobNsdevs`: it stops at the first entry that is no good. -/
def readOobNsdevs : List Json → List Json → List (Nsdev × Bool) → Bool × List Json × List (Nsdev × Bool)
  | [], array, list => (true, array, list)
  | iter :: rest, array, list =>
    match oobNsdev iter with
    | none => (false, array, list)
    | some dev => readOobNsdevs rest (array ++ [nsdevEntry dev]) (markOrAdd sameNsdev list dev)

def setJsonOobNsdevs (J : JsonLib) (root : Json) (target : Target) (data : String) : Except Fault (Int × Json × Target) :=
  match J.loads data with
  | none => .ok (-einval, root, target)
  | some new =>
    let (good, array, list) := readOobNsdevs (new.entries tagNsdevs) [] (unmarked target.deviceList)
    match setTargetArray root target.name tagNsdevs array with
    | none => .error .freed
    | some root =>
      if good then .ok (0, root, { target with deviceList := marked list })
      else .ok (-einval, root, { target with deviceList := list.map Prod.fst })

/-- An interface as the target spells it; an entry that is no good is skipped. -/
def oobXport (iter : Json) : Except Fault (List FabricIface) :=
  match iter.strField tagType, iter.strField tagFamily, iter.strField tagAddress with
  | some type, some fam, some addr => do
    let type ← strcpy configTypeSize (some type)
    let fam ← strcpy configFamilySize (some fam)
    let addr ← strcpy configAddressSize (some addr)
    return [{ type := type, fam := fam, addr := addr }]
  | _, _, _ => .ok []

/-- The entry of an interface in the root. -/
def ifaceEntry (iface : FabricIface) : Json :=
  jsonSetString (jsonSetString (jsonSetString (.object []) tagType iface.type) tagFamily iface.fam) tagAddress iface.addr

def setJsonOobInterfaces (J : JsonLib) (root : Json) (target : Target) (data : String) :
    Except Fault (Int × Json × Target) :=
  match J.loads data with
  | none => .ok (-einval, root, target)
  | some new => do
    let ifaces ← collect oobXport (new.entries tagInterfaces)
    match setTargetArray root target.name tagInterfaces (ifaces.map ifaceEntry) with
    | none => .error .freed
    | some root =>
      let list := ifaces.foldl (markOrAdd (fun x y => x == y)) (unmarked target.fabricIfaceList)
      return (0, root, { target with fabricIfaceList := marked list })

def getOobConfig (J : JsonLib) (inv : Inventory) (root : Json) (target : Target) : Except Fault (Int × Json × Target) :=
  if inv.oobNsdevs.1 ≠ 0 then .ok (inv.oobNsdevs.1, root, target)
  else do
    let (ret, root, target) ← setJsonOobNsdevs J root target inv.oobNsdevs.2
    if ret ≠ 0 then return (ret, root, target)
    else if inv.oobXports.1 ≠ 0 then return (inv.oobXports.1, root, target)
    else setJsonOobInterfaces J root target inv.oobXports.2

/-! ## In band -/

/-- A device as the lists spell it. -/
def inbNsdev (dev : Nsdev) : Nsdev := if dev.nsdev = nvmfNullbDevid then { dev with nsdev := nullbDevid } else dev

/-- A device that is new is added to the list of the target, and becomes the one device of its entry in the root. -/
def addInbNsdev (acc : Json × Target) (dev : Nsdev) : Json × Target :=
  if dev ∈ acc.2.deviceList then acc
  else
    ((setTargetArray acc.1 acc.2.name tagNsdevs [nsdevEntry dev]).getD acc.1,
      { acc.2 with deviceList := acc.2.deviceList ++ [dev] })

def getInbNsdevs (root : Json) (target : Target) (devs : List Nsdev) : Json × Target :=
  (devs.map inbNsdev).foldl addInbNsdev (root, target)

/-- The interfaces that a target reports become its list. The root is given those that are new. -/
def getInbXports (root : Json) (target : Target) (ifaces : List FabricIface) : Json × Target :=
  let list := ifaces.foldl (markOrAdd (fun x y => x == y)) (unmarked target.fabricIfaceList)
  let fresh := (list.drop target.fabricIfaceList.length).map Prod.fst
  ((setTargetArray root target.name tagInterfaces (fresh.map ifaceEntry)).getD root,
    { target with fabricIfaceList := marked list })

/-- Whether there is a transport of a type. -/
def registerOps (type : String) : Bool := type == "rdma" || type == "tcp"

def getInbConfig (inv : Inventory) (root : Json) (target : Target) : Int × Json × Target :=
  if !registerOps target.inb.type then (-einval, root, target)
  else if inv.connect ≠ 0 then (inv.connect, root, target)
  else if inv.inbNsdevs.1 ≠ 0 then (inv.inbNsdevs.1, root, target)
  else
    let (root, target) := getInbNsdevs root target inv.inbNsdevs.2
    if inv.inbXports.1 ≠ 0 then (inv.inbXports.1, root, target)
    else if inv.inbXports.2 = [] then (0, root, target)
    else
      let (root, target) := getInbXports root target inv.inbXports.2
      (0, root, target)

/-- Ask a target for its inventory. -/
def getConfig (J : JsonLib) (w : World) (root : Json) (target : Target) : Except Fault (Int × Json × Target) :=
  match target.mgmtMode with
  | .inBandMgmt => .ok (getInbConfig (w.inventory target.ptr) root target)
  | .outOfBandMgmt => getOobConfig J (w.inventory target.ptr) root target
  | .localMgmt => .ok (0, root, target)

end NvmeDem
