import Mathlib.Data.Finset.Basic
import NvmeDem.Dem.Address
import NvmeDem.Lib.Keyed

/-!
# The SPDK back end of a manager

A manager can have its target run by SPDK. It keeps tables of its own: the ports, and the subsystems with the hosts they allow and
the ports they are linked to. SPDK is told of a change by remote calls, and knows of no ports: a link of a port to a subsystem is a
listener at the address of the port. Each operation changes its tables and makes its calls in an order of its own; of some calls
the result is not looked at.

SPDK is not part of the repository. A call of it either fails and changes nothing, or does what it is asked to; it refuses to make
what is there and to take away what is not. How a call fares on its way is told by `net`.
-/

namespace NvmeDem.Spdk

/-! ## SPDK -/

/-- The address of a listener. -/
structure Listener where
  trtype : String
  adrfam : String
  traddr : String
  trsvcid : String
  deriving DecidableEq, Repr

/-- A subsystem that SPDK provides. -/
structure Provided where
  hosts : Finset String := ∅
  listeners : Finset Listener := ∅
  deriving DecidableEq

/-- What is asked of SPDK for one subsystem. -/
inductive Method where
  | subsystemCreate (allowAnyHost : Bool)
  | deleteSubsystem
  | addHost (host : String)
  | removeHost (host : String)
  | addListener (listener : Listener)
  | removeListener (listener : Listener)
  deriving DecidableEq, Repr

/-- What a call makes of a subsystem; nothing when it is refused. -/
def Method.act : Method → Option Provided → Option (Option Provided)
  | .subsystemCreate _, none => some (some {})
  | .subsystemCreate _, some _ => none
  | .deleteSubsystem, some _ => some none
  | .addHost host, some p => if host ∈ p.hosts then none else some (some { p with hosts := insert host p.hosts })
  | .removeHost host, some p => if host ∈ p.hosts then some (some { p with hosts := p.hosts.erase host }) else none
  | .addListener l, some p => if l ∈ p.listeners then none else some (some { p with listeners := insert l p.listeners })
  | .removeListener l, some p =>
    if l ∈ p.listeners then some (some { p with listeners := p.listeners.erase l }) else none
  | _, none => none

/-! ## The tables -/

structure Portid where
  ptr : Nat
  portid : Int
  type : String
  family : String
  address : String
  port : String
  deriving DecidableEq, Repr

def Portid.listener (p : Portid) : Listener where
  trtype := p.type
  adrfam := p.family
  traddr := p.address
  trsvcid := p.port

/-- A subsystem, the NQNs of its hosts and the addresses of the ports it is linked to. -/
structure Subsys where
  nqn : String
  allowany : Bool := false
  hostList : List String := []
  portidList : List Nat := []
  deriving DecidableEq, Repr

structure State where
  portidList : List Portid := []
  subsysList : List Subsys := []
  /-- Where the next port is allocated. -/
  next : Nat := 0
  server : String → Option Provided := fun _ => none
  /-- The number of calls of SPDK so far. -/
  sent : Nat := 0

def State.findSubsys (s : State) (nqn : String) : Option Subsys := s.subsysList.find? (fun subsys => subsys.nqn == nqn)

def State.findPortid (s : State) (id : Int) : Option Portid := s.portidList.find? (fun portid => portid.portid == id)

/-- The port at an address, if it was not given back. -/
def State.portAt (s : State) (ptr : Nat) : Option Portid := s.portidList.find? (fun portid => portid.ptr == ptr)

def State.onSubsys (s : State) (nqn : String) (f : Subsys → Subsys) : State :=
  { s with subsysList := Keyed.modifyFirst (fun subsys => subsys.nqn == nqn) f s.subsysList }

/-! ## Names -/

def nqnMinSize : Nat := 15

/-- A number as `sscanf` reads it in a field of a width: space before it does not count. -/
def scanInt (width : Nat) (cs : List Char) : Option (Int × List Char) :=
  let cs := cs.dropWhile isSpace
  let signed := cs.head? = some '-' ∨ cs.head? = some '+'
  let width := if signed then width - 1 else width
  let rest := if signed then cs.drop 1 else cs
  let digits := (rest.take width).takeWhile Char.isDigit
  let value : Int := digits.foldl (fun n c => n * 10 + (c.toNat - '0'.toNat)) 0
  if digits = [] then none else some (if cs.head? = some '-' then -value else value, rest.drop digits.length)

/-- A word as `sscanf` reads it in a field of a width. -/
def scanWord (width : Nat) (cs : List Char) : Option (List Char × List Char) :=
  let cs := cs.dropWhile isSpace
  let word := (cs.take width).takeWhile (fun c => !isSpace c)
  if word = [] then none else some (word, cs.drop word.length)

/-- A character of the format. -/
def scanChar (c : Char) : List Char → Option (List Char)
  | [] => none
  | d :: ds => if d = c then some ds else none

/-- `sscanf` with `%3s.%4d-%2d.%s`. -/
def scanNqn (nqn : String) : Option (List Char × Int × Int × List Char) := do
  let (part1, cs) ← scanWord 3 nqn.toList
  let (part2, cs) ← scanInt 4 (← scanChar '.' cs)
  let (part3, cs) ← scanInt 2 (← scanChar '-' cs)
  let (part4, _) ← scanWord nqn.length (← scanChar '.' cs)
  return (part1, part2, part3, part4)

def validNqn (nqn : String) : Bool :=
  if nqn.length < nqnMinSize ∨ maxNqnSize < nqn.length then false
  else
    match scanNqn nqn with
    | none => false
    | some (part1, part2, part3, part4) =>
      part1 == "nqn".toList && !(part2 == 0 || part3 == 0 || decide (12 < part3)) && part4.contains ':'

/-! ## Calls of SPDK -/

/-- What SPDK answers to a call that it refuses. -/
def invalidParams : Int := -32602

/-- One call for a subsystem: its result, and what it leaves. -/
def State.rpc (net : Nat → Int) (nqn : String) (method : Method) (s : State) : Int × State :=
  if net s.sent ≠ 0 then (net s.sent, { s with sent := s.sent + 1 })
  else
    match method.act (s.server nqn) with
    | none => (invalidParams, { s with sent := s.sent + 1 })
    | some p => (0, { s with server := Function.update s.server nqn p, sent := s.sent + 1 })

/-- Calls whose results are not looked at. -/
def State.rpcs (net : Nat → Int) (nqn : String) (methods : List Method) (s : State) : State :=
  methods.foldl (fun s method => (s.rpc net nqn method).2) s

/-! ## Operations -/

section

variable (net : Nat → Int)

def spdkDeleteSubsys (nqn : String) (s : State) : Int × State :=
  match s.findSubsys nqn with
  | none => (-enoent, s)
  | some subsys =>
    let s := (s.rpc net subsys.nqn .deleteSubsystem).2
    (0, { s with subsysList := s.subsysList.eraseP (fun subsys => subsys.nqn == nqn) })

/-- The subsystem is in the table before SPDK is asked for it. -/
def spdkCreateSubsys (subnqn : String) (allowany : Int) (s : State) : Int × State :=
  if !validNqn subnqn then (-einval, s)
  else if (s.findSubsys subnqn).isSome then (-eexist, s)
  else
    let subsys : Subsys := { nqn := subnqn, allowany := allowany ≠ 0 }
    { s with subsysList := subsys :: s.subsysList }.rpc net subnqn (.subsystemCreate subsys.allowany)

def configPortSize : Nat := 8

def spdkCreatePortid (id : Int) (fam typ : String) (_req : Int) (addr : String) (trsvcid : Int) (s : State) :
    Except Fault (Int × State) :=
  if (s.findPortid id).isSome then .ok (-eexist, s)
  else do
    let family ← strcpy configFamilySize (some fam)
    let type ← strcpy configTypeSize (some typ)
    let address ← strcpy configAddressSize (some addr)
    let port ← strcpy configPortSize (some (toString trsvcid))
    let portid : Portid :=
      { ptr := s.next, portid := id, type := type, family := family, address := address, port := port }
    return (0, { s with portidList := portid :: s.portidList, next := s.next + 1 })

/-- The ports that a subsystem is linked to. A port that was given back cannot be read. -/
def linkedPorts (s : State) : List Nat → Except Fault (List Portid)
  | [] => .ok []
  | ptr :: rest =>
    match s.portAt ptr with
    | none => .error .freed
    | some portid => (linkedPorts s rest).map (fun ports => portid :: ports)

/-- The ports whose listeners are taken away while a host is added: all ports when it is the first host of the subsystem. -/
def reconnected (s : State) (subsys : Subsys) : Except Fault (List Portid) :=
  if subsys.hostList.isEmpty then linkedPorts s subsys.portidList else .ok []

def spdkLinkHostToSubsys (subnqn hostnqn : String) (s : State) : Except Fault (Int × State) :=
  if !validNqn hostnqn then .ok (-einval, s)
  else
    match s.findSubsys subnqn with
    | none => .ok (-enoent, s)
    | some subsys =>
      if hostnqn ∈ subsys.hostList then .ok (0, s)
      else do
        let ports ← reconnected s subsys
        let s := s.rpcs net subsys.nqn (ports.map (fun p => .removeListener p.listener))
        let (rc, s) := s.rpc net subsys.nqn (.addHost hostnqn)
        if rc ≠ 0 then return (rc, s)
        else
          let s := s.onSubsys subnqn (fun subsys => { subsys with hostList := subsys.hostList ++ [hostnqn] })
          return (0, s.rpcs net subsys.nqn (ports.map (fun p => .addListener p.listener)))

def spdkUnlinkHostFromSubsys (subnqn hostnqn : String) (s : State) : Int × State :=
  match s.findSubsys subnqn with
  | none => (-enoent, s)
  | some subsys =>
    if hostnqn ∈ subsys.hostList then
      let (rc, s) := s.rpc net subsys.nqn (.removeHost hostnqn)
      (rc, s.onSubsys subnqn (fun subsys => { subsys with hostList := subsys.hostList.erase hostnqn }))
    else (0, s)

def spdkLinkPortToSubsys (nqn : String) (id : Int) (s : State) : Int × State :=
  match s.findPortid id, s.findSubsys nqn with
  | some portid, some subsys =>
    if portid.ptr ∈ subsys.portidList then (0, s)
    else
      let (rc, s) := s.rpc net subsys.nqn (.addListener portid.listener)
      if rc ≠ 0 then (rc, s)
      else (0, s.onSubsys nqn (fun subsys => { subsys with portidList := portid.ptr :: subsys.portidList }))
  | _, _ => (-einval, s)

/-- Whether the port is linked is asked after SPDK was told to stop listening. -/
def spdkUnlinkPortFromSubsys (nqn : String) (id : Int) (s : State) : Int × State :=
  match s.findPortid id, s.findSubsys nqn with
  | some portid, some subsys =>
    let (rc, s) := s.rpc net subsys.nqn (.removeListener portid.listener)
    if rc ≠ 0 then (rc, s)
    else (0, s.onSubsys nqn (fun subsys => { subsys with portidList := subsys.portidList.erase portid.ptr }))
  | _, _ => (-enoent, s)

/-- The port is given back, whether or not it could be unlinked. -/
def deletePortid (portid : Portid) (s : State) : State :=
  let s := s.subsysList.foldl (fun s subsys => (spdkUnlinkPortFromSubsys net subsys.nqn portid.portid s).2) s
  { s with portidList := s.portidList.eraseP (fun p => p.ptr == portid.ptr) }

def spdkDeletePortid (id : Int) (s : State) : Int × State :=
  match s.findPortid id with
  | none => (0, s)
  | some portid => (0, deletePortid net portid s)

def spdkResetConfig (s : State) : State :=
  let s := s.portidList.foldl (fun s portid => deletePortid net portid s) s
  s.subsysList.foldl (fun s subsys => (spdkDeleteSubsys net subsys.nqn s).2) s

end

/-- An operation of the back end on its tables of ports and subsystems. -/
inductive Op where
  | createSubsys (subnqn : String) (allowany : Int)
  | deleteSubsys (nqn : String)
  | linkHostToSubsys (subnqn hostnqn : String)
  | unlinkHostFromSubsys (subnqn hostnqn : String)
  | createPortid (id : Int) (fam typ : String) (req : Int) (addr : String) (trsvcid : Int)
  | deletePortid (id : Int)
  | linkPortToSubsys (nqn : String) (id : Int)
  | unlinkPortFromSubsys (nqn : String) (id : Int)
  | resetConfig
  deriving DecidableEq, Repr

/-- What an operation returns and leaves. -/
def Op.run (net : Nat → Int) (s : State) : Op → Except Fault (Int × State)
  | .createSubsys subnqn allowany => .ok (spdkCreateSubsys net subnqn allowany s)
  | .deleteSubsys nqn => .ok (spdkDeleteSubsys net nqn s)
  | .linkHostToSubsys subnqn hostnqn => spdkLinkHostToSubsys net subnqn hostnqn s
  | .unlinkHostFromSubsys subnqn hostnqn => .ok (spdkUnlinkHostFromSubsys net subnqn hostnqn s)
  | .createPortid id fam typ req addr trsvcid => spdkCreatePortid id fam typ req addr trsvcid s
  | .deletePortid id => .ok (spdkDeletePortid net id s)
  | .linkPortToSubsys nqn id => .ok (spdkLinkPortToSubsys net nqn id s)
  | .unlinkPortFromSubsys nqn id => .ok (spdkUnlinkPortFromSubsys net nqn id s)
  | .resetConfig => .ok (0, spdkResetConfig net s)

/-- The back end takes one operation after another. -/
def Step (net : Nat → Int) (op : Op) (s s' : State) : Prop := ∃ ret : Int, op.run net s = .ok (ret, s')

end NvmeDem.Spdk
