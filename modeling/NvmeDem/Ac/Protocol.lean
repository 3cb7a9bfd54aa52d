import NvmeDem.Ac.Cache
import NvmeDem.Dem.Logpages
import NvmeDem.Dem.Notify
import NvmeDem.Lib.Run

/-!
# A connecting client and the daemon

One client and the daemon it discovers subsystems from, joined by a queue of commands and a queue of completions. The client
sends a command and waits for a completion; it takes the first that comes, and does not look at which command it answers. The
daemon answers every command in order and with success. When the configuration changes, it answers besides one async-event request
that the host has pending, so that a completion may arrive that the client takes for the answer to something else.

The data of a log page command is written into the buffer that the client gave for it, when the daemon handles the command. The
buffer is zero until then; `tag` tells the buffer of one command from that of another. The number of entries a client asks for is
carried by the command as the client computed it.

Every stretch of the client between two waits is one step (`receive`), and so is every command that the daemon handles (`serve`)
and every change of the configuration with its notifications (`event`).
-/

namespace NvmeDem

inductive Command where
  | getFeatures
  | setFeatures
  | asyncEvent
  | keepAlive
  | getLogPageCount (tag : Nat)
  | getLogPages (tag numrec : Nat)
  deriving DecidableEq, Repr

/-- A completion with status zero. -/
structure Completion where
  result : Nat
  deriving DecidableEq, Repr

def nvmeAerNoticeLogPageChange : Nat := 0xF002

/-- The buffer of a log page command. -/
structure LogHdr where
  genctr : Nat
  numrec : Nat
  entries : List LogEntry
  deriving DecidableEq, Repr

def LogHdr.zero : LogHdr := { genctr := 0, numrec := 0, entries := [] }

/-- What the client waits for. Only at `idle` does it wait for nothing it asked for. -/
inductive Phase where
  | getFeatures
  | setFeatures
  | asyncEvent
  | count
  | pages (genctr numrec : Nat)
  | rearm
  | idle
  | keepAlive
  deriving DecidableEq, Repr

structure AcSystem where
  /-- The daemon's lists. -/
  lists : Lists
  /-- Commands on their way to the daemon. -/
  cmds : List Command
  /-- Completions on their way to the client. -/
  rsps : List Completion
  phase : Phase
  /-- The buffer of the client's last log page command, and which command that was. -/
  tag : Nat
  buf : LogHdr
  cache : List AcSubsystem
  deriving DecidableEq, Repr

/-! ## The daemon -/

/-- What the daemon does with a command: its lists after it, the completion, and what it writes to which buffer. -/
def handleRequest (lists : Lists) (nqn : String) :
    Command → Except Fault (Lists × Completion × Option (Nat × LogHdr))
  | .getFeatures => .ok (lists, { result := nvmeAerNoticeLogPageChange }, none)
  | .setFeatures => .ok (lists, { result := 0 }, none)
  | .asyncEvent => .ok ({ lists with aenReqList := nqn :: lists.aenReqList }, { result := 0 }, none)
  | .keepAlive => .ok (lists, { result := 0 }, none)
  | .getLogPageCount tag => do
    let numrec ← handleGetLogPageCount lists nqn
    return (lists, { result := 0 }, some (tag, { genctr := 1, numrec := numrec, entries := [] }))
  | .getLogPages tag numrec => do
    let entries ← handleGetLogPages lists nqn
    -- The transfer ends with the client's buffer.
    return (lists, { result := 0 }, some (tag, { genctr := 1, numrec := entries.length, entries := entries.take numrec }))

/-- A write reaches the client's buffer while it is the one that was given for the command. -/
def AcSystem.write (s : AcSystem) : Option (Nat × LogHdr) → AcSystem
  | some (tag, hdr) => if tag = s.tag then { s with buf := hdr } else s
  | none => s

def AcSystem.serve (nqn : String) (s : AcSystem) : Except Fault (Option AcSystem) :=
  match s.cmds with
  | [] => .ok none
  | cmd :: cmds => do
    let (lists, rsp, data) ← handleRequest s.lists nqn cmd
    return some ({ s with lists := lists, cmds := cmds, rsps := s.rsps ++ [rsp] }.write data)

/-- A change of the configuration, and the notifications for a subsystem that is open to every host. -/
def AcSystem.event (nqn : String) (lists : Lists) (subsys : Subsystem) (s : AcSystem) : AcSystem :=
  let reqs := s.lists.aenReqList
  let out := sendNotifications (createEventHostListForSubsys reqs subsys) reqs
  { s with
    lists := { lists with aenReqList := out.2 }
    rsps := s.rsps ++ List.replicate (out.1.count nqn) { result := nvmeAerNoticeLogPageChange } }

/-! ## The client -/

def AcSystem.send (s : AcSystem) (cmd : Command) (phase : Phase) : AcSystem :=
  { s with cmds := s.cmds ++ [cmd], phase := phase }

/-- A log page command is sent with a new buffer, which is zero. -/
def AcSystem.sendGetLogPage (s : AcSystem) (cmd : Nat → Command) (phase : Phase) : AcSystem :=
  { s with cmds := s.cmds ++ [cmd (s.tag + 1)], phase := phase, tag := s.tag + 1, buf := LogHdr.zero }

/-- The start of `process_updates`. -/
def AcSystem.fetchLogPages (s : AcSystem) : AcSystem := s.sendGetLogPage .getLogPageCount .count

/-- The end of `process_updates`: what the merge left of the cache is cleaned up, and a request is armed again. -/
def AcSystem.endUpdates (dirs : List (Option (List KernelCtrl))) (cache : List AcSubsystem) (s : AcSystem) : AcSystem :=
  { s with cache := cleanupLogPages (markConnectedSubsystems dirs cache) }.send .asyncEvent .rearm

/-- What the client does with a completion, whichever command it answers, until it waits again. -/
def AcSystem.complete (dirs : List (Option (List KernelCtrl))) (rsp : Completion) (s : AcSystem) : AcSystem :=
  match s.phase with
  | .getFeatures => if rsp.result = 0 then s.fetchLogPages else s.send .setFeatures .setFeatures
  | .setFeatures => s.send .asyncEvent .asyncEvent
  | .asyncEvent => s.fetchLogPages
  | .count =>
    if s.buf.numrec = 0 then s.endUpdates dirs (saveLogPages [] (invalidateLogPages s.cache))
    else s.sendGetLogPage (fun tag => .getLogPages tag s.buf.numrec) (.pages s.buf.genctr s.buf.numrec)
  | .pages genctr numrec =>
    -- A log that does not fit the count it was asked for is thrown away, and the cache stays.
    if numrec ≠ s.buf.numrec ∨ genctr ≠ s.buf.genctr then s.endUpdates dirs s.cache
    else s.endUpdates dirs (saveLogPages (s.buf.entries.map LogEntry.trim) (invalidateLogPages s.cache))
  | .rearm => { s with phase := .idle }
  | .keepAlive => { s with phase := .idle }
  | .idle => s.fetchLogPages

def AcSystem.receive (dirs : List (Option (List KernelCtrl))) (s : AcSystem) : Option AcSystem :=
  match s.rsps with
  | [] => none
  | rsp :: rsps => some (AcSystem.complete dirs rsp { s with rsps := rsps })

/-! ## The system -/

inductive AcOp where
  /-- The daemon handles the next command. -/
  | serve
  /-- The configuration becomes any other, and an open subsystem's hosts are notified. -/
  | event (lists : Lists) (subsys : Subsystem)
  /-- Another host leaves a request. -/
  | arm (other : String)
  /-- The client takes the next completion; `dirs` is what it then finds in the kernel's directory. -/
  | receive (dirs : List (Option (List KernelCtrl)))
  /-- The idle client sends a keep-alive. -/
  | keepAlive

/-- A step of the system for the host `nqn`, if it is possible. A command that makes the daemon fault has no step. -/
def AcOp.run (nqn : String) (s : AcSystem) : AcOp → Option AcSystem
  | .serve =>
    match s.serve nqn with
    | .ok s' => s'
    | .error _ => none
  | .event lists subsys => if subsys.isRestricted then none else some (s.event nqn lists subsys)
  | .arm other =>
    if other = nqn then none
    else some { s with lists := { s.lists with aenReqList := other :: s.lists.aenReqList } }
  | .receive dirs => s.receive dirs
  | .keepAlive => if s.phase = .idle then some (s.send .keepAlive .keepAlive) else none

def acStep (nqn : String) (op : AcOp) (s s' : AcSystem) : Prop := op.run nqn s = some s'

/-- A client that has just connected: it has sent its first command, and the host has no request pending. -/
structure Connected (nqn : String) (s : AcSystem) : Prop where
  phase : s.phase = .getFeatures
  cmds : s.cmds = [.getFeatures]
  rsps : s.rsps = []
  reqs : s.lists.aenReqList.count nqn = 0

/-- The states that are reached from a client's connecting, in any order of steps. -/
def AcRun (nqn : String) (s₀ s : AcSystem) : Prop := Run (acStep nqn) (fun _ _ => True) s₀ s

end NvmeDem
