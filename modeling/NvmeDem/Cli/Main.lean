import NvmeDem.Cli.Commands

/-!
# The command line of the client

A verb and an object select a command from a table. The first three characters of a verb and the first of an object do instead of them. A
user who is not root may only look. The options were read before: `args` are the words that are left.
-/

namespace NvmeDem.Cli

open Rest

/-! ## The table of verbs -/

/-- The entity that a command is about, which is the first part of its URLs. -/
inductive Entity where
  | dem | target | host | group
  deriving DecidableEq, Repr

def groups : Entity → String
  | .dem => uriDem
  | .target => uriTarget
  | .host => uriHost
  | .group => uriGroup

/-- The function of a verb and an object. -/
inductive Command where
  | demConfig | demShutdown
  | listGroup | addGroup | setGroup | getGroup | delGroup | renameGroup
  | listTarget | addTarget | setTarget | getTarget | delTarget
  | setLocalMgmt | setInbMgmt | setOobMgmt | setRefresh
  | renameTarget | refreshTarget | reconfigTarget | usageTarget | linkTarget | unlinkTarget
  | addSubsys | setSubsys | editSubsys | delSubsys | renameSubsys
  | setPortid | editPortid | delPortid
  | setAcl | delAcl
  | setNs | delNs
  | listHost | addHost | getHost | setHost | editHost | delHost | renameHost | linkHost | unlinkHost
  deriving DecidableEq, Repr

/-- A negative number of arguments is a least number of them. -/
structure Verb where
  function : Command
  target : Entity
  numArgs : Int
  verb : String
  object : Option String
  deriving DecidableEq, Repr

def verbList : List Verb :=
  [⟨.demConfig, .dem, 0, "config", none⟩, ⟨.demShutdown, .dem, 0, "shutdown", none⟩,
    ⟨.listGroup, .group, 0, "list", some "group"⟩, ⟨.addGroup, .group, 1, "add", some "group"⟩,
    ⟨.setGroup, .group, 1, "set", some "group"⟩, ⟨.getGroup, .group, 1, "get", some "group"⟩,
    ⟨.delGroup, .group, -1, "delete", some "group"⟩, ⟨.renameGroup, .group, 2, "rename", some "group"⟩,
    ⟨.listTarget, .target, 0, "list", some "target"⟩, ⟨.addTarget, .target, 1, "add", some "target"⟩,
    ⟨.setTarget, .target, 1, "set", some "target"⟩, ⟨.getTarget, .target, 1, "get", some "target"⟩,
    ⟨.delTarget, .target, -1, "delete", some "target"⟩, ⟨.setLocalMgmt, .target, 1, "set", some "local"⟩,
    ⟨.setInbMgmt, .target, 5, "set", some "inband"⟩, ⟨.setOobMgmt, .target, 4, "set", some "outofband"⟩,
    ⟨.setRefresh, .target, 2, "set", some "refresh"⟩, ⟨.renameTarget, .target, 2, "rename", some "target"⟩,
    ⟨.refreshTarget, .target, 1, "refresh", some "target"⟩, ⟨.reconfigTarget, .target, 1, "reconfigure", some "target"⟩,
    ⟨.usageTarget, .target, 1, "usage", some "target"⟩, ⟨.linkTarget, .group, 2, "link", some "target"⟩,
    ⟨.unlinkTarget, .group, 2, "unlink", some "target"⟩,
    ⟨.addSubsys, .target, 2, "add", some "subsystem"⟩, ⟨.setSubsys, .target, 3, "set", some "subsystem"⟩,
    ⟨.editSubsys, .target, 3, "edit", some "subsystem"⟩, ⟨.delSubsys, .target, -2, "delete", some "subsystem"⟩,
    ⟨.renameSubsys, .target, 3, "rename", some "subsystem"⟩,
    ⟨.setPortid, .target, 6, "set", some "portid"⟩, ⟨.editPortid, .target, 6, "edit", some "portid"⟩,
    ⟨.delPortid, .target, -2, "delete", some "portid"⟩,
    ⟨.setAcl, .target, 3, "set", some "acl"⟩, ⟨.delAcl, .target, -3, "delete", some "acl"⟩,
    ⟨.setNs, .target, 5, "set", some "ns"⟩, ⟨.delNs, .target, -3, "delete", some "ns"⟩,
    ⟨.listHost, .host, 0, "list", some "host"⟩, ⟨.addHost, .host, 1, "add", some "host"⟩,
    ⟨.getHost, .host, 1, "get", some "host"⟩, ⟨.setHost, .host, 2, "set", some "host"⟩,
    ⟨.editHost, .host, 2, "edit", some "host"⟩, ⟨.delHost, .host, -1, "delete", some "host"⟩,
    ⟨.renameHost, .host, 2, "rename", some "host"⟩, ⟨.linkHost, .group, 2, "link", some "host"⟩,
    ⟨.unlinkHost, .group, 2, "unlink", some "host"⟩]

/-- What a user who is not root may do. -/
def verbEnabled (p : Verb) (updateEnabled : Bool) : Bool :=
  updateEnabled || p.verb == "get" || p.verb == "list" || p.verb == "config"

/-- The verb itself, or its first three characters. -/
def namesVerb (verb : String) (p : Verb) : Bool :=
  verb == p.verb || (verb.length == 3 && verb.toList.take 3 == p.verb.toList.take 3)

/-- The object itself, or its first character. -/
def namesObject (object name : String) : Bool :=
  object == name || (object.length == 1 && object.toList.head? == name.toList.head?)

/-- The loop of `find_verb`. It ends at a verb that the user may not use, and at one that needs an object when there is none. -/
def findVerbLoop (verb : String) (object : Option String) (updateEnabled : Bool) : List Verb → Option Verb
  | [] => none
  | p :: rest =>
    if !namesVerb verb p then findVerbLoop verb object updateEnabled rest
    else if !verbEnabled p updateEnabled then none
    else
      match p.object, object with
      | none, _ => some p
      | some _, none => none
      | some name, some object' =>
        if namesObject object' name then some p else findVerbLoop verb object updateEnabled rest

def findVerb (verb : String) (object : Option String) (updateEnabled : Bool) : Option Verb :=
  findVerbLoop verb object updateEnabled verbList

/-- Whether the number of words is right. -/
def validArguments (argc : Nat) (entity : Entity) (expect : Int) : Bool :=
  let base : Nat := if entity = .dem then 1 else 2
  if expect < 0 then decide (base + expect.natAbs ≤ argc) else decide (base + expect.natAbs = argc)

/-! ## A run of the client -/

/-- What the options and the user give: `p` are the words behind the verb and the object. -/
def Command.run (prompt : Prompt) (base : String) (p : List String) : Command → Except Fault Plan
  | .demConfig => Cli.demConfig base
  | .demShutdown => Cli.demShutdown base
  | .listGroup => Cli.listGroup base
  | .addGroup => Cli.addGroup base p
  | .setGroup => Cli.setGroup base p
  | .getGroup => Cli.getGroup base p
  | .delGroup => Cli.delGroup prompt base p
  | .renameGroup => Cli.renameGroup base p
  | .listTarget => Cli.listTarget base
  | .addTarget => Cli.addTarget base p
  | .setTarget => Cli.setTarget base p
  | .getTarget => Cli.getTarget base p
  | .delTarget => Cli.delTarget prompt base p
  | .setLocalMgmt => Cli.setLocalMgmt base p
  | .setInbMgmt => Cli.setInbMgmt base p
  | .setOobMgmt => Cli.setOobMgmt base p
  | .setRefresh => Cli.setRefresh base p
  | .renameTarget => Cli.renameTarget base p
  | .refreshTarget => Cli.refreshTarget base p
  | .reconfigTarget => Cli.reconfigTarget base p
  | .usageTarget => Cli.usageTarget base p
  | .linkTarget => Cli.linkTarget base p
  | .unlinkTarget => Cli.unlinkTarget prompt base p
  | .addSubsys => Cli.addSubsys base p
  | .setSubsys => Cli.setSubsys base p
  | .editSubsys => Cli.editSubsys base p
  | .delSubsys => Cli.delSubsys prompt base p
  | .renameSubsys => Cli.renameSubsys base p
  | .setPortid => Cli.setPortid base p
  | .editPortid => Cli.editPortid base p
  | .delPortid => Cli.delPortid prompt base p
  | .setAcl => Cli.setAcl base p
  | .delAcl => Cli.delAcl prompt base p
  | .setNs => Cli.setNs base p
  | .delNs => Cli.delNs prompt base p
  | .listHost => Cli.listHost base
  | .addHost => Cli.addHost base p
  | .getHost => Cli.getHost base p
  | .setHost => Cli.setHost base p
  | .editHost => Cli.editHost base p
  | .delHost => Cli.delHost prompt base p
  | .renameHost => Cli.renameHost base p
  | .linkHost => Cli.linkHost base p
  | .unlinkHost => Cli.unlinkHost prompt base p

/-- The client: where the daemon is, whether its user is root, and how the user answers. -/
structure Client where
  demServer : String := "127.0.0.1"
  demPort : String := "22345"
  root : Bool := true
  prompt : Prompt
  deriving DecidableEq, Repr

def Client.base (c : Client) (entity : Entity) : String := snprintf urlSize s!"http://{c.demServer}:{c.demPort}/{groups entity}"

/-- The verb of a command line and what it comes to. It comes to nothing when there is no such verb or the number of words is wrong. -/
def mainPlan (c : Client) (args : List String) : Except Fault (Option (Verb × Plan)) :=
  match args with
  | [] => .ok none
  | verb :: rest =>
    match findVerb verb rest.head? c.root with
    | none => .ok none
    | some p =>
      if validArguments args.length p.target p.numArgs then do
        return some (p, ← p.function.run c.prompt (c.base p.target) (if args.length ≤ 1 then args else rest.drop 1))
      else .ok none

/-- The requests of a command are made one after the other, by a transfer that changes what it is made to. A command that makes one returns
what it comes to. -/
def Plan.perform {σ : Type} (exec : HttpCall → σ → Except Fault (Int × σ)) (plan : Plan) (s : σ) : Except Fault (Int × σ) := do
  let (ret, s) ← plan.calls.foldlM (fun (out : Int × σ) call => exec call out.2) (0, s)
  return (if plan.ignores then 0 else ret, s)

/-- A word of the command line. Behind the last one there is a NULL, and what is behind that is not the client's. -/
def wordAt (args : List String) (n : Nat) : Except Fault (Option String) :=
  if n ≤ args.length then .ok args[n]? else .error .outOfBounds

/-- How a command that failed is reported: by its object and by the word that it is about. -/
def reportFailure (p : Verb) (args : List String) (ret : Int) : Except Fault (String × String) := do
  let n := if p.verb = "rename" ∧ ret = -eexist then 4 else 3
  return (cStr (← wordAt args 1), cStr (← wordAt args n))

/-- A run of the client: its return value. -/
def main {σ : Type} (exec : HttpCall → σ → Except Fault (Int × σ)) (c : Client) (args : List String) (s : σ) :
    Except Fault (Int × σ) := do
  match ← mainPlan c args with
  | none => return (-1, s)
  | some (p, plan) =>
    let (ret, s) ← plan.perform exec s
    -- The daemon is not running.
    if ret < 0 ∧ ret ≠ -111 then discard (reportFailure p args ret)
    return (ret, s)

end NvmeDem.Cli
