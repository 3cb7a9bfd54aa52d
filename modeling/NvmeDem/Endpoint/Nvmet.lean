import NvmeDem.Store.Basic

/-!
# The directories of the kernel target

A manager can have its target run by the kernel, which shows its configuration as directories: subsystems with their namespaces and links to
the hosts they allow, hosts, and ports with links to the subsystems that are reached there. What is in a directory is an attribute or a
directory or link of its own. A directory stays as long as something is in it or a link is to it.

The kernel is not part of the repository. What it refuses by its rules is said here: a link to what is not there, hosts of a subsystem that
allows any, another device for a namespace that is in use, other addresses for a port that is. What else it refuses, and whether a device
is there, is told by `Kernel`. A value that it takes is stored as it is.
-/

namespace NvmeDem.Nvmet

/-! ## Places -/

/-- A directory or a link, by the names on the way to it. -/
inductive Place where
  | subsys (nqn : String)
  | ns (nqn name : String)
  | allowed (nqn host : String)
  | host (nqn : String)
  | port (name : String)
  | portLink (name nqn : String)
  deriving DecidableEq, Repr

/-- The directory that a place is in, besides those that are always there. -/
def Place.parent : Place → Option Place
  | .ns nqn _ | .allowed nqn _ => some (.subsys nqn)
  | .portLink name _ => some (.port name)
  | _ => none

/-- The directory that a link is to. -/
def Place.target : Place → Option Place
  | .allowed _ name => some (.host name)
  | .portLink _ nqn => some (.subsys nqn)
  | _ => none

/-- A directory cannot go while something is in it or a link is to it. -/
def Place.holds (p q : Place) : Bool := p.parent == some q || p.target == some q

/-! ## What is at a place -/

inductive PortAttr where
  | adrfam | trtype | traddr | treq | trsvcid
  deriving DecidableEq, Repr

def PortAttr.all : List PortAttr := [.adrfam, .trtype, .traddr, .treq, .trsvcid]

structure PortAttrs where
  adrfam : String
  trtype : String
  traddr : String
  treq : String
  trsvcid : String
  deriving DecidableEq, Repr

def PortAttrs.get (attrs : PortAttrs) : PortAttr → String
  | .adrfam => attrs.adrfam
  | .trtype => attrs.trtype
  | .traddr => attrs.traddr
  | .treq => attrs.treq
  | .trsvcid => attrs.trsvcid

def PortAttrs.set (attrs : PortAttrs) (value : String) : PortAttr → PortAttrs
  | .adrfam => { attrs with adrfam := value }
  | .trtype => { attrs with trtype := value }
  | .traddr => { attrs with traddr := value }
  | .treq => { attrs with treq := value }
  | .trsvcid => { attrs with trsvcid := value }

inductive Node where
  | subsys (nqn : String) (allowAny : Bool)
  | ns (nqn name devicePath : String) (enable : Bool)
  | allowed (nqn host : String)
  | host (nqn : String)
  | port (name : String) (attrs : PortAttrs)
  | portLink (name nqn : String)
  deriving DecidableEq, Repr

def Node.place : Node → Place
  | .subsys nqn _ => .subsys nqn
  | .ns nqn name _ _ => .ns nqn name
  | .allowed nqn name => .allowed nqn name
  | .host nqn => .host nqn
  | .port name _ => .port name
  | .portLink name nqn => .portLink name nqn

abbrev Tree : Type := List Node

/-! The names in a directory. -/

def Node.subsysName : Node → Option String
  | .subsys nqn _ => some nqn
  | _ => none

def Node.nsOf (subsys : String) : Node → Option String
  | .ns nqn name _ _ => if nqn = subsys then some name else none
  | _ => none

def Node.allowedOf (subsys : String) : Node → Option String
  | .allowed nqn name => if nqn = subsys then some name else none
  | _ => none

def Node.hostName : Node → Option String
  | .host nqn => some nqn
  | _ => none

def Node.portName : Node → Option String
  | .port name _ => some name
  | _ => none

def Node.linkOf (port : String) : Node → Option String
  | .portLink name nqn => if name = port then some nqn else none
  | _ => none

def has (t : Tree) (p : Place) : Bool := t.any (fun node => node.place == p)

/-- What the kernel decides by itself. -/
structure Kernel where
  /-- Its directory is there. -/
  loaded : Bool := true
  admits : Place → Bool := fun _ => true
  takes : PortAttr → String → Bool := fun _ _ => true
  takesPath : String → Bool := fun _ => true
  opens : String → Bool := fun _ => true
  /-- The attributes of a new port. -/
  fresh : PortAttrs := ⟨"", "", "", "", ""⟩

/-! ## Directories and links: an error number and what is left -/

def ebusy : Int := 16

def remove (t : Tree) (p : Place) : Tree := t.filter (fun node => node.place != p)

def mkdir (k : Kernel) (t : Tree) (node : Node) : Int × Tree :=
  if node.place.parent.any (fun q => !has t q) then (enoent, t)
  else if has t node.place then (eexist, t)
  else if k.admits node.place then (0, t ++ [node])
  else (einval, t)

def rmdir (t : Tree) (p : Place) : Int × Tree :=
  if !has t p then (enoent, t)
  else if t.any (fun node => node.place.holds p) then (ebusy, t)
  else (0, remove t p)

/-- A subsystem that allows any host has no links to hosts. -/
def allowsAny (t : Tree) : Place → Bool
  | .allowed nqn _ => t.contains (.subsys nqn true)
  | _ => false

def symlink (k : Kernel) (t : Tree) (node : Node) : Int × Tree :=
  if node.place.parent.any (fun q => !has t q) then (enoent, t)
  else if has t node.place then (eexist, t)
  else if node.place.target.any (fun q => !has t q) then (enoent, t)
  else if allowsAny t node.place || !k.admits node.place then (einval, t)
  else (0, t ++ [node])

def unlink (t : Tree) (p : Place) : Int × Tree := if has t p then (0, remove t p) else (enoent, t)

/-! ## Attributes -/

/-- What is at a place, changed. -/
def update (t : Tree) (p : Place) (f : Node → Node) : Tree := t.map (fun node => if node.place = p then f node else node)

def writeAllowAny (t : Tree) (nqn : String) (allowAny : Bool) : Tree :=
  if allowAny && t.any (fun node => (node.allowedOf nqn).isSome) then t
  else update t (.subsys nqn) (fun _ => .subsys nqn allowAny)

/-- A namespace in use keeps its device. Writing nothing is no write. -/
def Node.writePath (k : Kernel) (path : String) : Node → Node
  | .ns nqn name old false => .ns nqn name (if path ≠ "" ∧ k.takesPath path then path else old) false
  | node => node

def writePath (k : Kernel) (t : Tree) (nqn name path : String) : Tree := update t (.ns nqn name) (Node.writePath k path)

/-- A namespace is in use once its device could be opened. -/
def Node.writeEnable (k : Kernel) (enable : Bool) : Node → Node
  | .ns nqn name path old => .ns nqn name path (if enable then old || k.opens path else false)
  | node => node

def writeEnable (k : Kernel) (t : Tree) (nqn name : String) (enable : Bool) : Tree :=
  update t (.ns nqn name) (Node.writeEnable k enable)

/-- A port is in use while there is a link in it. -/
def inUse (t : Tree) (name : String) : Bool := t.any (fun node => (node.linkOf name).isSome)

def Node.writePort (attr : PortAttr) (value : String) : Node → Node
  | .port name attrs => .port name (attrs.set value attr)
  | node => node

def writePort (k : Kernel) (t : Tree) (name : String) (attr : PortAttr) (value : String) : Tree :=
  if value ≠ "" ∧ inUse t name = false ∧ k.takes attr value then update t (.port name) (Node.writePort attr value) else t

def Node.attrsOf (port : String) : Node → Option PortAttrs
  | .port name attrs => if name = port then some attrs else none
  | _ => none

/-- The size of the buffer that an attribute is read into, and what there is room for in it. -/
def maxStrLen : Nat := 64

/-- What is read of a text: one line, or as much of it as there is room for. -/
def oneLine (text : String) : String := String.ofList ((text.toList.take (maxStrLen - 2)).takeWhile (fun c => c ≠ '\n'))

def readPort (t : Tree) (name : String) (attr : PortAttr) : String :=
  match t.findSome? (Node.attrsOf name) with
  | none => ""
  | some attrs => oneLine (attrs.get attr)

end NvmeDem.Nvmet
