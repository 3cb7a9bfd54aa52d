import NvmeDem.Dem.Messages
import NvmeDem.Dem.Requests
import NvmeDem.Lib.Script

/-!
# What a request tells a target

A request changes the store, then the records of a target, and tells the target on the way. What is left to do after the store
took a request is an `Errand`: what it makes of the record of a target (`Errand.apply`), and what it tells the target, with the
records as they are at that moment (`Errand.script`).

A script depends on the order of the two: a host is linked before it is on the list of its subsystem, and a subsystem is told of
its ports by the list as it is then.
-/

namespace NvmeDem

/-- What a request does to a target after the store took it. -/
inductive Errand where
  | createSubsys (out : SubsysArg)
  | updateSubsys (nqn : String) (out : SubsysArg)
  | delSubsys (nqn : String)
  | setPortid (w : World) (id : Int) (out : PortArg)
  | delPortid (id : Int)
  | linkHost (subnqn : String) (host : Host)
  | unlinkHost (subnqn name : String)
  | updateHost (name : String) (out : HostOut)
  | delHost (name hostnqn : String)
  | delTarget

namespace Push

open Jansson Link

/-! ## Parts -/

def sendLinkHost (subsys : Subsystem) (host : Host) : Script Message :=
  .andThen (.send (.setHost host)) (.send (.linkHost subsys host))

def sendLinkPortid (subsys : Subsystem) (portid : Portid) : Script Message :=
  if isHidden subsys then .done else .send (.linkPort subsys portid)

/-- A subsystem that is set out of band. -/
def configSubsysOobScript (target : Target) (subsys : Subsystem) : Script Message :=
  .andThen (.send (.setSubsys subsys))
    (.regardless (.eachRegardless (fun ns => .send (.configNs subsys ns)) subsys.nsList)
      (.regardless (.eachRegardless (sendLinkHost subsys) subsys.hostList)
        (if isHidden subsys then .done
        else .eachRegardless (fun portid => .send (.linkPort subsys portid)) target.portidList)))

/-- It is the one of a reconfiguration. -/
theorem run_configSubsysOobScript (w : Wire) (target : Target) (subsys : Subsystem) :
    (configSubsysOobScript target subsys).run (fun msg => execOob w target msg.oob) = configSubsysOob w target subsys := by
  simp only [configSubsysOobScript, configSubsysOob, Script.run, Script.run_eachRegardless]
  cases isHidden subsys
  · simp only [Script.run_eachRegardless, Script.run, Bool.false_eq_true, if_false]
    rfl
  · rfl

def sendConfigSubsys (target : Target) (subsys : Subsystem) : Script Message :=
  let config : Script Message :=
    match target.mgmtMode with
    | .inBandMgmt => .send (.setSubsys subsys)
    | .outOfBandMgmt => configSubsysOobScript target subsys
    | .localMgmt => .done
  if subsys.isRestricted then config
  else .followedBy config (.eachRegardless (fun host => .send (.unlinkHost subsys host)) subsys.hostList)

/-! ## Requests -/

/-- The end of a request that sets a subsystem. The hosts have left its list when it is linked to the ports. -/
def setSubsysScript (target : Target) (subsys : Subsystem) : Script Message :=
  .andThen (sendConfigSubsys target subsys) (.eachRegardless (sendLinkPortid (configSubsys subsys)) target.portidList)

/-- Whether an update takes a subsystem away from the target first. -/
def isReplaced (out : SubsysArg) (subsys : Subsystem) : Bool :=
  (out.nqn != "" && subsys.nqn != out.nqn) || (out.access != undefinedAccess && out.access != subsys.access)

/-- A subsystem that is replaced is deleted; if it is open to all then, its hosts are, by their aliases. -/
def replaceSubsysScript (out : SubsysArg) (subsys : Subsystem) : Script Message :=
  if isReplaced out subsys then
    .regardless (.send (.delSubsys subsys))
      (if (subsys.updateTo out).isRestricted then .done
      else .eachRegardless (fun host => .send (.delHost host.name)) subsys.hostList)
  else .done

def updateSubsysScript (target : Target) (out : SubsysArg) (subsys : Subsystem) : Script Message :=
  .regardless (replaceSubsysScript out subsys) (setSubsysScript target (subsys.updateTo out))

/-- The port is told under the new identifier, after what the target knows under the old one was taken away. -/
def setPortidScript (target : Target) (id : Int) (portid : Portid) : Script Message :=
  .regardless (.eachRegardless (fun subsys => .send (.unlinkPort subsys { portid with portid := id })) target.subsysList)
    (.regardless (if portid.portid ≠ id then .send (.delPort { portid with portid := id }) else .done)
      (.andThen (.send (.setPort portid)) (.eachRegardless (fun subsys => sendLinkPortid subsys portid) target.subsysList)))

/-- The first host of a subsystem comes to its list after the ports were linked. -/
def linkHostScript (target : Target) (subsys : Subsystem) (host : Host) : Script Message :=
  .followedBy (sendLinkHost subsys host)
    (if subsys.hostList.isEmpty then .eachRegardless (sendLinkPortid subsys) target.portidList else .done)

/-- A host that no other subsystem of the target has is deleted, by its alias. -/
def unlinkHostScript (target : Target) (subsys : Subsystem) (host : Host) : Script Message :=
  .regardless (.send (.unlinkHost subsys host))
    (if (target.onSubsys subsys.nqn (fun s => { s with hostList := s.hostList.eraseP (fun h => h.name == host.name) })).subsysList.any
        (fun s => s.hostList.any (fun h => h.name == host.name)) then .done
    else .send (.delHost host.name))

def updateHostScript (target : Target) (name : String) (out : HostOut) : Script Message :=
  .eachRegardless (fun subsys =>
    match subsys.hostList.find? (fun h => h.name == name) with
    | none => .done
    | some host =>
      if host.nqn = out.nqn then .done
      else .regardless (.send (.unlinkHost subsys host)) (sendLinkHost subsys { host with nqn := out.nqn })) target.subsysList

def delHostScript (target : Target) (name hostnqn : String) : Script Message :=
  .regardless
    (.eachRegardless (fun subsys =>
      if subsys.isRestricted then
        match subsys.hostList.find? (fun h => h.name == name) with
        | none => .done
        | some host => .send (.unlinkHost subsys host)
      else .done) target.subsysList)
    (if target.subsysList.any Subsystem.isRestricted then .send (.delHost hostnqn) else .done)

/-- Hosts are deleted by their aliases here, too. -/
def delTargetScript (target : Target) : Script Message :=
  .regardless
    (.eachRegardless (fun subsys =>
      .regardless (.send (.delSubsys subsys)) (.eachRegardless (fun host => .send (.delHost host.name)) subsys.hostList))
      target.subsysList)
    (.eachRegardless (fun portid => .send (.delPort portid)) target.portidList)

end Push

/-! ## Errands -/

open Push in
/-- What an errand tells a target. -/
def Errand.script (target : Target) : Errand → Link.Script Message
  | .createSubsys out => setSubsysScript target { nqn := out.nqn, access := out.access }
  | .updateSubsys nqn out =>
    match findSubsys target nqn with
    | none => .done
    | some subsys => updateSubsysScript target out subsys
  | .delSubsys nqn =>
    match findSubsys target nqn with
    | none => .done
    | some subsys => .send (.delSubsys subsys)
  | .setPortid w id out =>
    setPortidScript target id (Portid.updateTo out ((findPortid target id).getD { ptr := w.addr }))
  | .delPortid id =>
    match findPortid target id with
    | none => .done
    | some portid => .send (.delPort portid)
  | .linkHost subnqn host =>
    match findSubsys target subnqn with
    | none => .done
    | some subsys => linkHostScript target subsys host
  | .unlinkHost subnqn name =>
    match findSubsys target subnqn with
    | none => .done
    | some subsys =>
      match subsys.hostList.find? (fun h => h.name == name) with
      | none => .done
      | some host => unlinkHostScript target subsys host
  | .updateHost name out => updateHostScript target name out
  | .delHost name hostnqn => delHostScript target name hostnqn
  | .delTarget => delTargetScript target

/-- What an errand makes of the record of a target that stays. -/
def Errand.apply (target : Target) : Errand → Target
  | .createSubsys out => { target with subsysList := target.subsysList ++ [{ nqn := out.nqn, access := out.access }] }
  | .updateSubsys nqn out => target.onSubsys nqn (fun s => configSubsys (s.updateTo out))
  | .delSubsys nqn => { target with subsysList := target.subsysList.eraseP (fun s => s.nqn == nqn) }
  | .setPortid w id out => target.setPortid w id out
  | .delPortid id =>
    { target with portidList := target.portidList.eraseP (fun p => p.portid == id) }
  | .linkHost subnqn host => target.onSubsys subnqn (fun s => { s with hostList := s.hostList ++ [host] })
  | .unlinkHost subnqn name =>
    target.onSubsys subnqn (fun s => { s with hostList := s.hostList.eraseP (fun h => h.name == name) })
  | .updateHost name out => { target with subsysList := target.subsysList.map (Subsystem.updateHost name out) }
  | .delHost name _ => { target with subsysList := target.subsysList.map (Subsystem.delHost name) }
  | .delTarget => target

/-- What the store read for a request, if it took it. -/
def afterReply {α : Type} (x : Except Fault (Reply α)) (k : Reply α → Errand) : Option Errand :=
  match x with
  | .error _ => none
  | .ok r => if r.ret = 0 then some (k r) else none

/-- The errand that a request leads to at the target with an alias. -/
def Request.errand (J : JsonLib) (w : World) (root : Jansson.Json) (name : String) : Request → Option Errand
  | .setSubsys tgt nqn data =>
    if tgt = name then
      afterReply (setJsonSubsys J root tgt nqn data { nqn := "", access := undefinedAccess }) (fun r =>
        match nqn with
        | none => .createSubsys r.out
        | some nqn => .updateSubsys nqn r.out)
    else none
  | .delSubsys tgt nqn => if tgt = name then afterReply (delJsonSubsys root tgt (some nqn)) (fun _ => .delSubsys nqn) else none
  | .setPortid tgt id data =>
    if tgt = name then
      afterReply (setJsonPortid J root tgt id data w.port) (fun r => .setPortid w (if id = 0 then r.out.portid else id) r.out)
    else none
  | .delPortid tgt id => if tgt = name then afterReply (.ok (delJsonPortid root tgt id)) (fun _ => .delPortid id) else none
  | .linkHost tgt subnqn host data =>
    if tgt = name then
      afterReply (setJsonAcl J root tgt subnqn host data w.host) (fun r =>
        .linkHost subnqn { name := host.getD r.out.newalias, nqn := r.out.nqn })
    else none
  | .unlinkHost tgt subnqn host =>
    if tgt = name then afterReply (.ok (delJsonAcl root tgt subnqn host)) (fun _ => .unlinkHost subnqn host) else none
  | .updateHost host data =>
    afterReply (updateJsonHost J root host data w.host) (fun r => .updateHost (host.getD r.out.newalias) r.out)
  | .delHost host => afterReply (delJsonHost root host w.host.nqn) (fun r => .delHost (cStr host) r.out)
  | .delTarget tgt => if cStr tgt = name then afterReply (delJsonTarget root tgt) (fun _ => .delTarget) else none
  | _ => none

end NvmeDem
