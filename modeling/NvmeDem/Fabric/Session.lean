import NvmeDem.Dem.HostThread

/-!
# A session of a client with the daemon

One connection, between a client and the daemon: the commands that the client sent and the daemon did not handle yet, and the
completions that the daemon sent and the client did not take yet, each in the order in which they were sent. A completion answers a
command, or is a notification, and to the client they look alike: `process_nvme_rsp` takes the first one there is.

Commands are numbered as they are sent. The numbers are not in the code, which sends every command with the id zero; they are here
to say which command a completion was sent for.
-/

namespace NvmeDem.Session

open PseudoTarget (NvmeCommand NvmeCompletion HostConn Answers)

structure Sent where
  number : Nat
  cmd : NvmeCommand
  deriving DecidableEq, Repr

/-- What a completion was sent for. -/
inductive Cause where
  | command (number : Nat)
  | notification
  deriving DecidableEq, Repr

structure Completion where
  cause : Cause
  rsp : NvmeCompletion
  deriving DecidableEq, Repr

/-- What `process_nvme_rsp` took after a command, and what it returned. -/
structure Taken where
  command : Nat
  cause : Cause
  ret : Nat
  result : Option (BitVec 64)
  deriving DecidableEq, Repr

structure State where
  server : PseudoTarget.State
  /-- The endpoint that the daemon has for the connection. -/
  ep : Nat
  sent : Nat := 0
  cmds : List Sent := []
  rsps : List Completion := []
  /-- The command that the client waits for. -/
  waiting : Option Nat := none
  taken : List Taken := []
  deriving DecidableEq, Repr

/-! ## The client -/

/-- The status that `process_nvme_rsp` returns for a completion. -/
def retOf (ignoreStatus : Nat) (rsp : NvmeCompletion) : Nat :=
  let ret := (rsp.status >>> 1).toNat
  if ret = 0 then 0
  else if ret = (PseudoTarget.nvmeScDnr ||| .ofInt 16 PseudoTarget.nvmeScConnectInvalidHost).toNat then ret
  -- The connect is tried again without a keep-alive time.
  else if ignoreStatus ≠ 0 then ignoreStatus
  else ret

def resultOf (rsp : NvmeCompletion) : Option (BitVec 64) := if rsp.status >>> 1 = 0 then some rsp.result else none

def State.post (s : State) (cmd : NvmeCommand) : State := { s with sent := s.sent + 1, cmds := s.cmds ++ [⟨s.sent, cmd⟩] }

/-- A command is sent, and the client waits for a completion. -/
def State.send (s : State) (cmd : NvmeCommand) : State := { s.post cmd with waiting := some s.sent }

/-- The wait ends with the first completion there is. -/
def State.processNvmeRsp (s : State) (ignoreStatus n : Nat) (first : Completion) (rest : List Completion) : State :=
  { s with
    rsps := rest
    waiting := none
    taken := s.taken ++ [⟨n, first.cause, retOf ignoreStatus first.rsp, resultOf first.rsp⟩] }

/-! ## The daemon -/

/-- The daemon handles the first command of the connection. -/
def State.serve (s : State) (lists : Lists) (host : HostConn) (ans : Answers) (first : Sent) (rest : List Sent) :
    Except Fault State :=
  (PseudoTarget.handleRequest lists first.cmd ans host s.server.aenReqList).map (fun out =>
    { s with
      server :=
        { s.server with
          hostList := PseudoTarget.replaceHost host.ep (out.1.host.turn out.1.ret) s.server.hostList
          aenReqList := out.1.aenReqList }
      cmds := rest
      rsps := s.rsps ++ [⟨.command first.number, out.2⟩] })

/-- A completion that is zero but for its result. -/
def notice : Completion := ⟨.notification, { result := PseudoTarget.nvmeAerNotice.setWidth 64 }⟩

/-- The endpoints that a change sends a notification on. -/
def State.notified (s : State) (change : PseudoTarget.Change) : List Nat :=
  (PseudoTarget.sendNotifications (change.eventHostList (s.server.aenReqList.map PseudoTarget.EventRequest.nqn))
    s.server.aenReqList).1

def State.notify (s : State) (change : PseudoTarget.Change) : State :=
  { s with
    server := s.server.notify change
    rsps := s.rsps ++ List.replicate ((s.notified change).count s.ep) notice }

/-! ## Steps -/

inductive Op where
  | send (cmd : NvmeCommand)
  /-- A command that nobody waits for: the last one, before the client ends the connection. -/
  | post (cmd : NvmeCommand)
  /-- `process_nvme_rsp`, after a command. -/
  | receive (ignoreStatus : Nat)
  /-- The time is over and there is no completion. -/
  | giveUp
  /-- `process_nvme_rsp`, of a client that waits for a notification. -/
  | listen
  | serve (lists : Lists) (host : HostConn) (ans : Answers)
  | notify (change : PseudoTarget.Change)
  /-- The daemon does something else. -/
  | other (op : PseudoTarget.Op)

/-- A step of the host thread in which no command of a connection is handled and nobody is notified. -/
def Apart (ep : Nat) : PseudoTarget.Op → Prop
  | .connect _ => True
  | .serve host _ (.msg _ _) => host.ep ≠ ep
  | .serve _ _ (.fails _ _) => True
  | .notify _ => False

def Op.Step (op : Op) (s s' : State) : Prop :=
  match op with
  | .send cmd => s.waiting = none ∧ s' = s.send cmd
  | .post cmd => s.waiting = none ∧ s' = s.post cmd
  | .receive ignoreStatus =>
    ∃ (n : Nat) (first : Completion) (rest : List Completion),
      s.waiting = some n ∧ s.rsps = first :: rest ∧ s' = s.processNvmeRsp ignoreStatus n first rest
  | .giveUp => s.waiting.isSome ∧ s.rsps = [] ∧ s' = { s with waiting := none }
  | .listen => s.waiting = none ∧ ∃ first : Completion, s.rsps = first :: s'.rsps ∧ s' = { s with rsps := s'.rsps }
  | .serve lists host ans =>
    host ∈ s.server.hostList ∧ host.ep = s.ep ∧
      ∃ (first : Sent) (rest : List Sent), s.cmds = first :: rest ∧ s.serve lists host ans first rest = .ok s'
  | .notify change => s' = s.notify change
  | .other op => Apart s.ep op ∧ op.Step s.server s'.server ∧ s' = { s with server := s'.server }

end NvmeDem.Session
