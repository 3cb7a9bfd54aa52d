import NvmeDem.Dem.Notify
import NvmeDem.Store.Ops

/-!
# The daemon and the world around it

A request reads and changes the JSON root and the lists. Part of what it does is not its own doing: whether a managed target
can be reached, what a target answers, where memory is allocated and what it holds before it is written to. For each request
that is a `World`.

Most messages to a target are sent without a look at the result; `World.send` is asked about the others. A target that is
managed locally is sent nothing.

Which logs a request fetches from which targets depends on the queues that are connected to them, which are not modelled: the
world says what comes in. A log changes the log pages of the subsystems of a target and nothing else, so that it makes no
difference where in a request it comes in; requests save it last.
-/

namespace NvmeDem

open Jansson

/-! ## Messages -/

/-- A message to a target (by its address) whose result the daemon looks at. -/
inductive Msg where
  | linkHost (target : Nat) (subnqn hostnqn : String)
  | delHost (target : Nat) (hostnqn : String)
  | configSubsys (target : Nat) (subnqn : String)
  | delSubsys (target : Nat) (subnqn : String)
  | configPortid (target : Nat) (portid : Int)
  | delPortid (target : Nat) (portid : Int)
  | setNs (target : Nat) (subnqn : String) (nsid : Int)
  | delNs (target : Nat) (subnqn : String) (nsid : Int)
  | configTarget (target : Nat)
  deriving DecidableEq, Repr

/-- What a target answers that is asked for its devices and its interfaces: out of band a text each, in band a list each; with
an error number, zero when the answer came. -/
structure Inventory where
  connect : Int := 0
  oobNsdevs : Int × String := (0, "")
  oobXports : Int × String := (0, "")
  inbNsdevs : Int × List Nsdev := (0, [])
  inbXports : Int × List FabricIface := (0, [])

/-- What happens to the log pages of a target: a refresh starts with the first, and saves what comes in through each port. -/
inductive LogEvent where
  | invalidate
  | fetch (portid : Nat) (log : List LogEntry)
  deriving DecidableEq, Repr

structure World where
  send : Msg → Int := fun _ => 0
  logs : Nat → List LogEvent := fun _ => []
  inventory : Nat → Inventory := fun _ => {}
  /-- The address of what the request allocates. -/
  addr : Nat := 0
  -- What the variables hold that a request may read before it has written to them.
  name : String := ""
  host : HostOut := { newalias := "", nqn := "" }
  port : PortArg := { portid := 0, type := "", family := "", address := "", portNum := 0 }
  ns : NsArg := { nsid := 0, devid := 0, devns := 0 }
  oob : OobIface := { address := "", port := 0 }

/-! ## The daemon -/

structure Daemon where
  root : Json
  lists : Lists

/-- What a request leaves: its return value, the text for the client and the daemon. -/
structure Answer where
  ret : Int
  resp : String
  dem : Daemon

/-- A request starts with a call of the store, and goes on if that returns zero. -/
def afterStore {α : Type} (d : Daemon) (x : Except Fault (Reply α)) (k : Reply α → Except Fault Answer) :
    Except Fault Answer :=
  match x with
  | .error f => .error f
  | .ok r => if r.ret = 0 then k r else .ok { ret := r.ret, resp := r.resp, dem := { d with root := r.root } }

theorem afterStore_ok {α : Type} {d : Daemon} {x : Except Fault (Reply α)} {k : Reply α → Except Fault Answer} {a : Answer}
    (h : afterStore d x k = .ok a) :
    ∃ r, x = .ok r ∧ ((r.ret ≠ 0 ∧ a = { ret := r.ret, resp := r.resp, dem := { d with root := r.root } }) ∨
      (r.ret = 0 ∧ k r = .ok a)) := by
  unfold afterStore at h
  split at h
  · cases h
  · rename_i r
    refine ⟨r, rfl, ?_⟩
    split at h
    · rename_i hz
      exact Or.inr ⟨hz, h⟩
    · rename_i hne
      exact Or.inl ⟨hne, (Except.ok.inj h).symm⟩

/-- Two accounts of one call agree on whether it was refused. -/
theorem ret_cases {ret : Int} {P P' Q Q' : Prop} (h : (ret ≠ 0 ∧ P) ∨ (ret = 0 ∧ Q)) (h' : (ret ≠ 0 ∧ P') ∨ (ret = 0 ∧ Q')) :
    (P ∧ P') ∨ (Q ∧ Q') := by
  rcases h with ⟨hne, hp⟩ | ⟨hz, hq⟩
  · rcases h' with ⟨-, hp'⟩ | ⟨hz', -⟩
    · exact Or.inl ⟨hp, hp'⟩
    · exact absurd hz' hne
  · rcases h' with ⟨hne', -⟩ | ⟨-, hq'⟩
    · exact absurd hz hne'
    · exact Or.inr ⟨hq, hq'⟩

/-- What an account of a call says of one that was refused. -/
theorem refused_of {ret : Int} {P Q : Prop} (h : (ret ≠ 0 ∧ P) ∨ (ret = 0 ∧ Q)) (hne : ret ≠ 0) : P := by
  rcases h with ⟨-, hp⟩ | ⟨hz, -⟩
  · exact hp
  · exact absurd hz hne

/-- The result of a message to a target. -/
def sendTo (w : World) (target : Target) (msg : Msg) : Int :=
  match target.mgmtMode with
  | .localMgmt => 0
  | _ => w.send msg

def configAlert (name : String) : String := s!"ALERT - DEM config updated but failed to connect to '{name}'"

def targetErr : String := " - target not found"

/-- The text for the client after a message: an alert if it failed. -/
def alertIf (ret : Int) (target : Target) (resp : String) : String := if ret = 0 then resp else configAlert target.name

/-! ## Searching and changing the lists -/

def findTarget (lists : Lists) (name : String) : Option Target := lists.targetList.find? (fun t => t.name == name)

def findSubsys (target : Target) (nqn : String) : Option Subsystem := target.subsysList.find? (fun s => s.nqn == nqn)

def findPortid (target : Target) (id : Int) : Option Portid := target.portidList.find? (fun p => p.portid == id)

def findGroup (lists : Lists) (name : String) : Option Group := lists.groupList.find? (fun g => g.name == name)

/-- The target that `findTarget` finds is changed. -/
def Lists.onTarget (lists : Lists) (name : String) (f : Target → Target) : Lists :=
  { lists with targetList := Keyed.modifyFirst (fun t => t.name == name) f lists.targetList }

/-- The subsystem that `findSubsys` finds is changed. -/
def Target.onSubsys (target : Target) (nqn : String) (f : Subsystem → Subsystem) : Target :=
  { target with subsysList := Keyed.modifyFirst (fun s => s.nqn == nqn) f target.subsysList }

/-- The hosts to notify are sent a notification, and their requests are taken off the list. -/
def Lists.notify (lists : Lists) (list : List EventNotification) : Lists :=
  { lists with aenReqList := (sendNotifications list lists.aenReqList).2 }

/-! ## Log pages -/

def Subsystem.invalidateLogPages (subsys : Subsystem) : Subsystem :=
  { subsys with logpageList := subsys.logpageList.map (fun p => { p with valid := false }) }

def Logpage.matchLogpage (logpage : Logpage) (e : LogEntry) : Bool :=
  e.traddr == logpage.e.traddr && e.trsvcid == logpage.e.trsvcid && e.trtype == logpage.e.trtype &&
    e.adrfam == logpage.e.adrfam

/-- Save an entry of a log with its subsystem: over the page with the same address, if there is one. -/
def Subsystem.saveLogPage (portid : Nat) (e : LogEntry) (subsys : Subsystem) : Subsystem :=
  let page : Logpage := { portid := portid, e := e, valid := true }
  { subsys with
    logpageList :=
      if subsys.logpageList.any (fun p => p.matchLogpage e) then
        Keyed.modifyFirst (fun p => p.matchLogpage e) (fun _ => page) subsys.logpageList
      else subsys.logpageList ++ [page] }

/-- An entry of a log goes to the first subsystem with its NQN. -/
def Target.logEvent (target : Target) : LogEvent → Target
  | .invalidate => { target with subsysList := target.subsysList.map Subsystem.invalidateLogPages }
  | .fetch portid log => log.foldl (fun target e => target.onSubsys e.subnqn (Subsystem.saveLogPage portid e)) target

/-- The lists with the logs that came in. -/
def Lists.withLogs (lists : Lists) (w : World) : Lists :=
  { lists with targetList := lists.targetList.map (fun t => (w.logs t.ptr).foldl Target.logEvent t) }

end NvmeDem
