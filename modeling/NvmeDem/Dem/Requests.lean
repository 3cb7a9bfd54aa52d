import NvmeDem.Dem.Groups
import NvmeDem.Dem.Hosts
import NvmeDem.Dem.Load
import NvmeDem.Dem.Subsystems
import NvmeDem.Dem.Targets

/-!
# The daemon as a system

The daemon loads its configuration, builds its lists from it and asks its targets for their inventories. From then on it handles
requests, one at a time. A step is a request that returns, whatever it returns and whatever the world does meanwhile.
-/

namespace NvmeDem

open Jansson

/-! ## The start -/

/-- A target that a group of the configuration names is linked to the group; a name that is not a text is compared with the
first target. -/
def loadGroupTarget (group : Group) (lists : Lists) (obj : Json) : Except Fault Lists :=
  match obj.stringValue with
  | some name => addTargetToGroup lists (some group) name
  | none => if lists.targetList = [] then .ok lists else .error .nullString

/-- A host that a group of the configuration names; `buf` is what the buffer for its NQN holds before each of the links. -/
def loadGroupHost (root : Json) (buf : Nat → String) (group : Group) (lists : Lists) (obj : Json) : Except Fault Lists :=
  match obj.stringValue with
  | some name => addHostToGroup root lists (some group) name (buf lists.hostList.length)
  | none => .error .nullString

def loadGroup (root : Json) (buf : Nat → String) (lists : Lists) (iter : Json × Nat) : Except Fault Lists := do
  let name ← strncpy maxAliasSize (iter.1.strField tagName)
  let group : Group := { ptr := iter.2, name := name }
  let lists := { lists with groupList := lists.groupList ++ [group] }
  let lists ← (iter.1.entries tagTargets).foldlM (loadGroupTarget group) lists
  (iter.1.entries tagHosts).foldlM (loadGroupHost root buf group) lists

def buildGroupList (root : Json) (buf : Nat → String) (lists : Lists) : Except Fault Lists :=
  (root.entries tagGroups).zipIdx.foldlM (loadGroup root buf) lists

def buildLists (root : Json) (buf : Nat → String) : Except Fault Lists := do
  let targetList ← buildTargetList root
  buildGroupList root buf { targetList := targetList }

/-- A target is asked for its inventory. Whether it can then be told its configuration makes no difference here. -/
def initTarget (J : JsonLib) (w : World) (acc : Json × List Target) (target : Target) :
    Except Fault (Json × List Target) := do
  let (_, root, target) ← getConfig J w acc.1 target
  return (root, acc.2 ++ [target])

def initTargets (J : JsonLib) (w : World) (d : Daemon) : Except Fault Daemon := do
  let (root, targetList) ← d.lists.targetList.foldlM (initTarget J w) (d.root, [])
  return { root := root, lists := { d.lists with targetList := targetList }.withLogs w }

/-- The daemon after it loaded a configuration. -/
def loadDaemon (J : JsonLib) (w : World) (buf : Nat → String) (root : Json) : Except Fault Daemon := do
  let lists ← buildLists root buf
  initTargets J w { root := root, lists := lists }

/-- A daemon without a configuration. -/
def emptyDaemon : Daemon := { root := emptyRoot, lists := {} }

/-- A daemon with a target that has nothing. -/
def bareDaemon : Daemon where
  root := .object [(tagTargets, .array [.object [(tagAlias, .string "t")]])]
  lists := { targetList := [{ ptr := 0, name := "t" }] }

/-! ## Requests -/

inductive Request where
  | addGroup (name : Option String)
  | updateGroup (name : Option String) (data : String)
  | setGroupMember (name : String) (data : Option String) (member : String) (kind : Member)
  | delGroupMember (name : String) (member : Option String) (kind : Member)
  | delGroup (name : String)
  | addHost (host : Option String)
  | updateHost (host : Option String) (data : String)
  | delHost (host : Option String)
  | linkHost (tgt subnqn : String) (host : Option String) (data : String)
  | unlinkHost (tgt subnqn host : String)
  | setSubsys (tgt : String) (nqn : Option String) (data : String)
  | delSubsys (tgt nqn : String)
  | setPortid (tgt : String) (id : Int) (data : String)
  | delPortid (tgt : String) (id : Int)
  | setNs (tgt nqn data : String)
  | delNs (tgt nqn : String) (nsid : Int)
  | addTarget (tgt : Option String)
  | updateTarget (tgt : Option String) (data : String)
  | delTarget (tgt : Option String)
  | setInterface (tgt data : String)
  | targetRefresh (tgt : String)
  | targetReconfig (tgt : String)
  deriving DecidableEq, Repr

def Request.run (J : JsonLib) (w : World) (d : Daemon) : Request → Except Fault Answer
  | .addGroup name => NvmeDem.addGroup w d name
  | .updateGroup name data => NvmeDem.updateGroup J w d name data
  | .setGroupMember name data member kind => NvmeDem.setGroupMember J w d name data member kind
  | .delGroupMember name member kind => NvmeDem.delGroupMember d name member kind
  | .delGroup name => NvmeDem.delGroup d name
  | .addHost host => NvmeDem.addHost d host
  | .updateHost host data => NvmeDem.updateHost J w d host data
  | .delHost host => NvmeDem.delHost w d host
  | .linkHost tgt subnqn host data => NvmeDem.linkHost J w d tgt subnqn host data
  | .unlinkHost tgt subnqn host => NvmeDem.unlinkHost w d tgt subnqn host
  | .setSubsys tgt nqn data => NvmeDem.setSubsys J w d tgt nqn data
  | .delSubsys tgt nqn => NvmeDem.delSubsys w d tgt nqn
  | .setPortid tgt id data => NvmeDem.setPortid J w d tgt id data
  | .delPortid tgt id => NvmeDem.delPortid w d tgt id
  | .setNs tgt nqn data => NvmeDem.setNs J w d tgt nqn data
  | .delNs tgt nqn nsid => NvmeDem.delNs w d tgt nqn nsid
  | .addTarget tgt => NvmeDem.addTarget w d tgt
  | .updateTarget tgt data => NvmeDem.updateTarget J w d tgt data
  | .delTarget tgt => NvmeDem.delTarget d tgt
  | .setInterface tgt data => NvmeDem.setInterface J w d tgt data
  | .targetRefresh tgt => .ok (NvmeDem.targetRefresh w d tgt)
  | .targetReconfig tgt => .ok (NvmeDem.targetReconfig w d tgt)

/-- The addresses of the records that are allocated. -/
def Lists.addresses (lists : Lists) : List Nat :=
  lists.targetList.map Target.ptr ++ lists.groupList.map Group.ptr ++
    lists.targetList.flatMap (fun t => t.portidList.map Portid.ptr)

/-- What a request allocates is not allocated already. -/
def World.Fresh (w : World) (d : Daemon) : Prop := w.addr ∉ d.lists.addresses

instance (w : World) (d : Daemon) : Decidable (w.Fresh d) := inferInstanceAs (Decidable (¬_))

/-- A request that returns leads from one daemon to the next. -/
def demStep (J : JsonLib) (op : World × Request) (d d' : Daemon) : Prop :=
  op.1.Fresh d ∧ ∃ a, op.2.run J op.1 d = .ok a ∧ a.dem = d'

/-- A run goes on with one more request. -/
theorem Run.request {J : JsonLib} {allowed : Daemon → World × Request → Prop} {d₀ d : Daemon} {a : Answer} (w : World)
    (req : Request) (h : Run (demStep J) allowed d₀ d) (ha : allowed d (w, req)) (hf : w.Fresh d)
    (hr : req.run J w d = .ok a) : Run (demStep J) allowed d₀ a.dem := .next h ha ⟨hf, a, hr, rfl⟩

end NvmeDem
