import NvmeDem.Fabric.Session

/-!
# Connections to targets

The daemon has a discovery queue for each port of a target, and one queue more for a target that is managed in band. Three flags say
whether a queue is connected: the endpoint is there, its state is `CONNECTED`, the queue is `connected`. `connect_ctrl` sets the first,
and the second on one of its two ways; the third is left to its callers.

What the transport answers is an argument of each function; what a queue fetches or sends once it is connected is not kept here.
-/

namespace NvmeDem.Conn

open PseudoTarget

inductive EpState where
  | disconnected | connected
  deriving DecidableEq, Repr

/-- A controller queue. -/
structure Queue where
  /-- A transport endpoint was created and not destroyed since. -/
  isOpen : Bool := false
  state : EpState := .disconnected
  connected : Bool := false
  failedKato : Bool := false
  /-- The queue was connected at a time when its endpoint was there, which is lost then. -/
  overwritten : Bool := false
  deriving DecidableEq, Repr

/-! ## What the transport answers -/

/-- How the wait for a completion ends. -/
inductive Waited where
  | fails (ret : Int)
  | completes (rsp : NvmeCompletion)
  deriving DecidableEq, Repr

def processNvmeRsp (ignoreStatus : Nat) : Waited → Int
  | .fails ret => ret
  | .completes rsp => Session.retOf ignoreStatus rsp

/-- A command that is sent and waited for. -/
structure Exchange where
  send : Int
  rsp : Waited
  deriving DecidableEq, Repr

def Exchange.ret (ex : Exchange) : Int := if ex.send ≠ 0 then ex.send else processNvmeRsp 0 ex.rsp

/-- The answers to one call of `connect_ctrl`; `clientConnect` has one for each attempt. -/
structure Transport where
  /-- The address is one. -/
  address : Bool
  initEndpoint : Int
  clientConnect : Nat → Int
  allocCmd : Int
  allocData : Int
  /-- The connect command, with a keep-alive time. -/
  connect : Exchange
  /-- The connect command once more, without. -/
  again : Exchange
  /-- The property that enables the controller. -/
  enable : Exchange

/-! ## Connecting and disconnecting -/

def connectRetryCount : Nat := 10

/-- The attempts to connect, from one on, with so many more left. -/
def tryConnect (answer : Nat → Int) (attempt : Nat) : Nat → Int
  | 0 => answer attempt
  | cnt + 1 => if answer attempt = -PseudoTarget.eagain then tryConnect answer (attempt + 1) cnt else answer attempt

def ignoreStatus : Nat := (nvmeScDnr ||| .ofInt 16 nvmeScInvalidField).toNat

def sendFabricConnect (a : Transport) (ctrl : Queue) : Int × Queue :=
  if a.connect.send ≠ 0 then (a.connect.send, ctrl)
  else
    let ret := processNvmeRsp ignoreStatus a.connect.rsp
    if ret ≠ ignoreStatus then (ret, ctrl)
    else
      let ctrl := { ctrl with failedKato := true }
      if a.again.ret ≠ 0 then (a.again.ret, ctrl) else (0, { ctrl with state := .connected })

def disconnectEndpoint (ctrl : Queue) : Queue := { ctrl with isOpen := false, state := .disconnected }

def disconnectCtrl (ctrl : Queue) : Queue := { disconnectEndpoint ctrl with connected := false }

def connectCtrl (a : Transport) (ctrl : Queue) : Int × Queue :=
  let ctrl := { ctrl with overwritten := ctrl.overwritten || ctrl.isOpen }
  if !a.address then (-einval, ctrl)
  else if a.initEndpoint ≠ 0 then (a.initEndpoint, ctrl)
  else
    let ret := tryConnect a.clientConnect 0 (connectRetryCount - 1)
    if ret ≠ 0 then (ret, { ctrl with isOpen := false })
    else
      let ctrl := { ctrl with isOpen := true }
      if a.allocCmd ≠ 0 then (a.allocCmd, disconnectEndpoint ctrl)
      else if a.allocData ≠ 0 then (a.allocData, disconnectEndpoint ctrl)
      else
        let (ret, ctrl) := sendFabricConnect a ctrl
        if ret ≠ 0 then (ret, disconnectEndpoint ctrl)
        -- When this fails the endpoint stays.
        else (a.enable.ret, ctrl)

/-! ## Discovery queues -/

/-- What follows once the log pages were fetched. -/
def endFetch (dq : Queue) : Queue := if dq.failedKato then disconnectCtrl dq else dq

/-- A queue is connected, and its log pages are fetched. -/
def connectAndFetch (a : Transport) (dq : Queue) : Queue :=
  let (ret, dq) := connectCtrl a dq
  if ret ≠ 0 then dq else endFetch dq

/-- `wanted` says that the queue is one that the target needs and its transport is known. -/
def createDiscoveryQueue (wanted : Bool) (a : Transport) (queues : List Queue) : List Queue :=
  if wanted then queues ++ [connectAndFetch a {}] else queues

/-- What `refresh_log_pages` finds for a queue: whether there is anything to ask for, and how it connects. -/
structure Visit where
  available : Bool
  connect : Transport

def refreshQueue (v : Visit) (dq : Queue) : Queue :=
  if dq.connected then endFetch dq
  else if !v.available then dq
  else connectAndFetch v.connect dq

def refreshLogPages (visits : Nat → Visit) (queues : List Queue) : List Queue :=
  queues.mapIdx (fun i dq => refreshQueue (visits i) dq)

/-! ## The queue of a target that is managed in band -/

structure InbConfig where
  ops : Bool
  connect : Transport
  nsdevs : Int
  xports : Int

def getInbConfig (g : InbConfig) (ctrl : Queue) : Queue :=
  if !g.ops then ctrl
  else
    let ctrl := if ctrl.connected then disconnectCtrl ctrl else ctrl
    let (ret, ctrl) := connectCtrl g.connect ctrl
    if ret ≠ 0 then ctrl
    else
      let ctrl := { ctrl with connected := true }
      if g.nsdevs = 0 ∧ g.xports = 0 then ctrl else disconnectCtrl ctrl

/-- A configuration message: what comes of it on the connection there is, how a new one is made, and what comes of it then. -/
structure Config where
  first : Int
  connect : Transport
  second : Int

def connectAndSend (m : Config) (ctrl : Queue) : Int × Queue :=
  let (ret, ctrl) := connectCtrl m.connect ctrl
  if ret ≠ 0 then (ret, ctrl) else (m.second, { ctrl with connected := true })

def sendSetConfig (m : Config) (ctrl : Queue) : Int × Queue :=
  if ctrl.connected then
    if m.first = 0 then (0, ctrl) else connectAndSend m { ctrl with connected := false }
  else connectAndSend m ctrl

/-- The messages that configure a target, up to the first that fails. -/
def sendConfigs : List Config → Queue → Int × Queue
  | [], ctrl => (0, ctrl)
  | m :: ms, ctrl =>
    let (ret, ctrl) := sendSetConfig m ctrl
    if ret ≠ 0 then (ret, ctrl) else sendConfigs ms ctrl

def configPortsAndSubsystems (ms : List Config) (ctrl : Queue) : Queue :=
  let (ret, ctrl) := sendConfigs ms ctrl
  if ret ≠ 0 ∧ ctrl.failedKato then disconnectCtrl ctrl else ctrl

def configTargetInb (a : Transport) (ms : List Config) (ctrl : Queue) : Queue :=
  if ctrl.connected then configPortsAndSubsystems ms ctrl
  else
    let (ret, ctrl) := connectCtrl a ctrl
    if ret ≠ 0 then ctrl else configPortsAndSubsystems ms ctrl

/-! ## A target -/

structure Target where
  inBand : Bool
  discoveryQueueList : List Queue := []
  inb : Queue := {}
  katoCountdown : Int := 0
  deriving DecidableEq, Repr

def keepAliveTimer : Int := 120000
def idleTimeout : Int := 100

/-- The answers to the commands that `keep_alive_work` sends. -/
structure KeepAlive where
  answer : Nat → Int
  inbAnswer : Int
  connect : Transport

/-- The discovery queues, from one on, up to the first that is lost, and whether there is one. -/
def keepAliveQueues (answer : Nat → Int) (i : Nat) : List Queue → Bool × List Queue
  | [] => (false, [])
  | dq :: queues =>
    if !dq.connected || dq.failedKato || answer i = 0 then
      let (lost, queues) := keepAliveQueues answer (i + 1) queues
      (lost, dq :: queues)
    else (true, disconnectCtrl dq :: queues)

def keepAliveInb (k : KeepAlive) (ctrl : Queue) : Queue :=
  if !ctrl.connected then
    let (ret, ctrl) := connectCtrl k.connect ctrl
    if ret = 0 then { ctrl with connected := true } else ctrl
  else if k.inbAnswer ≠ 0 then { ctrl with connected := false }
  else ctrl

def keepAliveWork (k : KeepAlive) (target : Target) : Target :=
  let target := { target with katoCountdown := target.katoCountdown - 1 }
  if 0 < target.katoCountdown then target
  else
    let (lost, queues) := keepAliveQueues k.answer 0 target.discoveryQueueList
    let target := { target with discoveryQueueList := queues }
    if lost then target
    else
      { target with
        inb := if target.inBand then keepAliveInb k target.inb else target.inb
        katoCountdown := keepAliveTimer / idleTimeout / 2 }

/-- Which queue of a target a step is about: a discovery queue, or the one for in-band management. -/
inductive Place where
  | discovery (i : Nat)
  | inb
  deriving DecidableEq, Repr

def Target.queue (target : Target) : Place → Option Queue
  | .discovery i => target.discoveryQueueList[i]?
  | .inb => some target.inb

def Target.modify (f : Queue → Queue) (target : Target) : Place → Target
  | .discovery i => { target with discoveryQueueList := target.discoveryQueueList.modify i f }
  | .inb => { target with inb := f target.inb }

inductive Op where
  | connectCtrl (place : Place) (a : Transport)
  | disconnectCtrl (place : Place)
  | createDiscoveryQueue (wanted : Bool) (a : Transport)
  | refreshLogPages (visits : Nat → Visit)
  | keepAliveWork (k : KeepAlive)
  | getInbConfig (g : InbConfig)
  | configTargetInb (a : Transport) (ms : List Config)
  | sendSetConfig (m : Config)

def Op.step (target : Target) : Op → Target
  | .connectCtrl place a => target.modify (fun ctrl => (Conn.connectCtrl a ctrl).2) place
  | .disconnectCtrl place => target.modify Conn.disconnectCtrl place
  | .createDiscoveryQueue wanted a =>
    { target with discoveryQueueList := Conn.createDiscoveryQueue wanted a target.discoveryQueueList }
  | .refreshLogPages visits =>
    { target with discoveryQueueList := Conn.refreshLogPages visits target.discoveryQueueList }
  | .keepAliveWork k => Conn.keepAliveWork k target
  | .getInbConfig g => { target with inb := Conn.getInbConfig g target.inb }
  | .configTargetInb a ms => { target with inb := Conn.configTargetInb a ms target.inb }
  | .sendSetConfig m => { target with inb := (Conn.sendSetConfig m target.inb).2 }

def Target.run (ops : List Op) (target : Target) : Target := ops.foldl Op.step target

end NvmeDem.Conn
