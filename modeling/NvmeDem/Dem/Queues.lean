import NvmeDem.Dem.Errands

/-!
# Discovery queues

The daemon fetches the log pages of a target through discovery queues. There is one for each port that asks for the subsystems open
to every host, and others that ask for a restricted subsystem in the name of one of its hosts: one such queue serves every subsystem
that allows the host, so that a queue is not made for a subsystem that a queue of another port serves (`dqExists`).

A queue points to its port and to its subsystem, which are the addresses of their records here; a queue of no subsystem has NULL.
`QueueTarget` is a target as far as its queues go, and `QueueTarget.step` what an errand does to it: the records change as
`Errand.apply` says, and the queues as the request goes along.
-/

namespace NvmeDem

/-- A discovery queue. -/
structure CtrlQueue where
  portid : Nat
  subsys : Option Nat
  hostnqn : String
  deriving DecidableEq, Repr

/-- The record of a subsystem and its address. -/
structure SubsysRecord where
  ptr : Nat
  subsys : Subsystem
  deriving DecidableEq, Repr

/-! ## Making queues -/

/-- Whether a queue of another port asks in the name of a host of a subsystem. -/
def dqExists (queues : List CtrlQueue) (subsys : Subsystem) (portid : Portid) : Bool :=
  queues.any (fun dq => dq.subsys.isSome && dq.portid != portid.ptr && subsys.hostList.any (fun host => host.nqn == dq.hostnqn))

/-- The new queue is connected then, if the target can be reached; it is on the list in any case. -/
def createDiscoveryQueue (sharedNqn : String) (subsys : Option SubsysRecord) (portid : Portid) (queues : List CtrlQueue) : List CtrlQueue :=
  match subsys with
  | none =>
    if registerOps portid.type then queues ++ [{ portid := portid.ptr, subsys := none, hostnqn := sharedNqn }] else queues
  | some s =>
    match s.subsys.hostList with
    | [] => queues
    | host :: _ =>
      if !s.subsys.isRestricted || dqExists queues s.subsys portid then queues
      else if registerOps portid.type then queues ++ [{ portid := portid.ptr, subsys := some s.ptr, hostnqn := host.nqn }]
      else queues

def initDiscoveryQueue (sharedNqn : String) (subsysList : List SubsysRecord) (queues : List CtrlQueue) (portid : Portid) :
    List CtrlQueue :=
  subsysList.foldl (fun queues subsys => createDiscoveryQueue sharedNqn (some subsys) portid queues)
    (createDiscoveryQueue sharedNqn none portid queues)

/-- The queues of a subsystem at the ports of its target. -/
def createSubsysQueues (sharedNqn : String) (portidList : List Portid) (subsys : SubsysRecord) (queues : List CtrlQueue) :
    List CtrlQueue :=
  portidList.foldl (fun queues portid => createDiscoveryQueue sharedNqn (some subsys) portid queues) queues

/-! ## Queues of a subsystem. Only the first on the list is looked at. -/

def CtrlQueue.isOf (ptr : Nat) (dq : CtrlQueue) : Bool := dq.subsys == some ptr

def delSubsysDq (ptr : Nat) (queues : List CtrlQueue) : List CtrlQueue := queues.eraseP (CtrlQueue.isOf ptr)

def resetSubsysDq (sharedNqn : String) (portidList : List Portid) (subsys : SubsysRecord) (nqn : String) (queues : List CtrlQueue) :
    List CtrlQueue :=
  if queues.any (CtrlQueue.isOf subsys.ptr) then
    Keyed.modifyFirst (CtrlQueue.isOf subsys.ptr) (fun dq => { dq with hostnqn := nqn }) queues
  else createSubsysQueues sharedNqn portidList subsys queues

def updateSubsysDq (subsys : SubsysRecord) (oldNqn newNqn : String) (queues : List CtrlQueue) : List CtrlQueue :=
  match queues.find? (CtrlQueue.isOf subsys.ptr) with
  | none => queues
  | some dq =>
    if dq.hostnqn ≠ oldNqn then queues
    else if subsys.subsys.hostList.isEmpty then queues
    else Keyed.modifyFirst (CtrlQueue.isOf subsys.ptr) (fun dq => { dq with hostnqn := newNqn }) queues

def resetSubsysDqNqn (subsys : SubsysRecord) (nqn : String) (queues : List CtrlQueue) : List CtrlQueue :=
  match queues.find? (CtrlQueue.isOf subsys.ptr) with
  | none => queues
  | some dq =>
    if dq.hostnqn ≠ nqn then queues
    else
      match subsys.subsys.hostList with
      | [] => queues.eraseP (CtrlQueue.isOf subsys.ptr)
      | host :: _ => Keyed.modifyFirst (CtrlQueue.isOf subsys.ptr) (fun dq => { dq with hostnqn := host.nqn }) queues

/-- The first queue of a port. -/
def delPortidDq (portid : Portid) (queues : List CtrlQueue) : List CtrlQueue :=
  queues.eraseP (fun dq => dq.portid == portid.ptr)

/-! ## Targets -/

/-- A target as far as its queues go. -/
structure QueueTarget where
  ptr : Nat
  mgmtMode : MgmtMode
  sharedNqn : String
  portidList : List Portid
  subsysList : List SubsysRecord
  discoveryQueueList : List CtrlQueue
  deriving DecidableEq, Repr

namespace QueueTarget

/-- The queues that a target starts with. -/
def initQueues (t : QueueTarget) : QueueTarget :=
  { t with discoveryQueueList := t.portidList.foldl (initDiscoveryQueue t.sharedNqn t.subsysList) [] }

def sendTo (w : World) (t : QueueTarget) (msg : Msg) : Int :=
  match t.mgmtMode with
  | .localMgmt => 0
  | _ => w.send msg

def findSubsys (t : QueueTarget) (nqn : String) : Option SubsysRecord := t.subsysList.find? (fun s => s.subsys.nqn == nqn)

def findPortid (t : QueueTarget) (id : Int) : Option Portid := t.portidList.find? (fun p => p.portid == id)

/-- The subsystem that `findSubsys` finds is changed. -/
def onSubsys (t : QueueTarget) (nqn : String) (f : Subsystem → Subsystem) : List SubsysRecord :=
  Keyed.modifyFirst (fun s => s.subsys.nqn == nqn) (fun s => { s with subsys := f s.subsys }) t.subsysList

end QueueTarget

/-! ## Errands -/

/-- The queues after a subsystem was set: one that is open loses its first queue, and if the target was told, the subsystem gets
queues. -/
def setSubsysQueues (w : World) (t : QueueTarget) (subsys : SubsysRecord) : List CtrlQueue :=
  let queues :=
    if subsys.subsys.isRestricted then t.discoveryQueueList else delSubsysDq subsys.ptr t.discoveryQueueList
  if t.sendTo w (.configSubsys t.ptr subsys.subsys.nqn) = 0 then
    createSubsysQueues t.sharedNqn t.portidList { subsys with subsys := configSubsys subsys.subsys } queues
  else queues

/-- The queues after a port was set. -/
def setPortidQueues (w : World) (t : QueueTarget) (portid : Portid) : List CtrlQueue :=
  match t.mgmtMode with
  | .localMgmt => createDiscoveryQueue t.sharedNqn none portid t.discoveryQueueList
  | _ =>
    if t.sendTo w (.configPortid t.ptr portid.portid) = 0 then
      initDiscoveryQueue t.sharedNqn t.subsysList (delPortidDq portid t.discoveryQueueList) portid
    else t.discoveryQueueList

/-- The queues after one subsystem was told of the new NQN of a host. -/
def updateHostQueues (name : String) (out : HostOut) (queues : List CtrlQueue) (s : SubsysRecord) : List CtrlQueue :=
  match s.subsys.hostList.find? (fun host => host.name == name) with
  | none => queues
  | some host =>
    if host.nqn = out.nqn then queues
    else updateSubsysDq { s with subsys := s.subsys.updateHost name out } host.nqn out.nqn queues

/-- The queues after a host was taken off the list of one subsystem. -/
def delHostQueues (name : String) (queues : List CtrlQueue) (s : SubsysRecord) : List CtrlQueue :=
  if s.subsys.isRestricted then
    match s.subsys.hostList.find? (fun host => host.name == name) with
    | none => queues
    | some host => resetSubsysDqNqn { s with subsys := s.subsys.delHost name } host.nqn queues
  else queues

/-- What an errand makes of a target that stays. -/
def QueueTarget.step (w : World) (t : QueueTarget) : Errand → QueueTarget
  | .createSubsys out =>
    let subsys : SubsysRecord := { ptr := w.addr, subsys := { nqn := out.nqn, access := out.access } }
    { t with subsysList := t.subsysList ++ [subsys], discoveryQueueList := setSubsysQueues w t subsys }
  | .updateSubsys nqn out =>
    match t.findSubsys nqn with
    | none => t
    | some s =>
      { t with
        subsysList := t.onSubsys nqn (fun s => configSubsys (s.updateTo out))
        discoveryQueueList := setSubsysQueues w t { s with subsys := s.subsys.updateTo out } }
  | .delSubsys nqn =>
    match t.findSubsys nqn with
    | none => t
    | some s =>
      { t with
        subsysList := t.subsysList.eraseP (fun s => s.subsys.nqn == nqn)
        discoveryQueueList := delSubsysDq s.ptr t.discoveryQueueList }
  | .setPortid _ id out =>
    match t.findPortid id with
    | none =>
      let portid := Portid.updateTo out { ptr := w.addr }
      { t with portidList := t.portidList ++ [portid], discoveryQueueList := setPortidQueues w t portid }
    | some p =>
      { t with
        portidList := Keyed.modifyFirst (fun p => p.portid == id) (Portid.updateTo out) t.portidList
        discoveryQueueList := setPortidQueues w t (p.updateTo out) }
  | .delPortid id =>
    match t.findPortid id with
    | none => t
    | some p =>
      { t with
        portidList := t.portidList.eraseP (fun p => p.portid == id)
        discoveryQueueList := t.discoveryQueueList.filter (fun dq => dq.portid != p.ptr) }
  | .linkHost subnqn host =>
    match t.findSubsys subnqn with
    | none => t
    | some s =>
      { t with
        subsysList := t.onSubsys subnqn (fun s => { s with hostList := s.hostList ++ [host] })
        discoveryQueueList :=
          if s.subsys.hostList.isEmpty then
            resetSubsysDq t.sharedNqn t.portidList { s with subsys := { s.subsys with hostList := [host] } } host.nqn t.discoveryQueueList
          else t.discoveryQueueList }
  | .unlinkHost subnqn name =>
    match t.findSubsys subnqn with
    | none => t
    | some s =>
      match s.subsys.hostList.find? (fun host => host.name == name) with
      | none => t
      | some host =>
        { t with
          subsysList := t.onSubsys subnqn (fun s => { s with hostList := s.hostList.eraseP (fun host => host.name == name) })
          discoveryQueueList :=
            resetSubsysDqNqn { s with subsys := { s.subsys with hostList := s.subsys.hostList.eraseP (fun host => host.name == name) } }
              host.nqn t.discoveryQueueList }
  | .updateHost name out =>
    { t with
      subsysList := t.subsysList.map (fun s => { s with subsys := s.subsys.updateHost name out })
      discoveryQueueList := t.subsysList.foldl (updateHostQueues name out) t.discoveryQueueList }
  | .delHost name _ =>
    { t with
      subsysList := t.subsysList.map (fun s => { s with subsys := s.subsys.delHost name })
      discoveryQueueList := t.subsysList.foldl (delHostQueues name) t.discoveryQueueList }
  | .delTarget => t

end NvmeDem
