import NvmeDem.Dem.Reconfig
import NvmeDem.Endpoint.Calls

/-!
# What a target is told

Between two reconfigurations a target is told of each change by itself. A `Message` is one such piece of news, about records of
the daemon; in band it is the fields of a record (`Message.inb`), out of band a request (`Message.oob`). The messages of a
reconfiguration are among them.
-/

namespace NvmeDem

namespace Push

open Jansson Link

inductive Message where
  | reset
  | setPort (portid : Portid)
  | delPort (portid : Portid)
  | setSubsys (subsys : Subsystem)
  | delSubsys (subsys : Subsystem)
  /-- A namespace of a subsystem that is told as a whole; out of band its URI does not have the identifier. -/
  | configNs (subsys : Subsystem) (ns : Ns)
  | setNs (subsys : Subsystem) (ns : Ns)
  | delNs (subsys : Subsystem) (ns : Ns)
  | setHost (host : Host)
  | delHost (hostnqn : String)
  | linkHost (subsys : Subsystem) (host : Host)
  | unlinkHost (subsys : Subsystem) (host : Host)
  | linkPort (subsys : Subsystem) (portid : Portid)
  | unlinkPort (subsys : Subsystem) (portid : Portid)
  deriving DecidableEq, Repr

/-! ## In band -/

def buildHostDeleteInb (hostnqn : String) : HostDeleteEntry where
  hostnqn := nqnEntry hostnqn

def buildPortDeleteInb (portid : Portid) : PortDeleteEntry where
  portid := BitVec.ofInt 16 portid.portid

def buildSubsysDeleteInb (subsys : Subsystem) : SubsysDeleteEntry where
  subnqn := nqnEntry subsys.nqn

def buildNsDeleteInb (subsys : Subsystem) (ns : Ns) : NsDeleteEntry where
  subnqn := nqnEntry subsys.nqn
  nsid := BitVec.ofInt 32 ns.nsid

def Message.inb : Message → MiSend
  | .reset => .resetConfig
  | .setPort portid => .setPortConfig (buildSetPortConfigInb portid)
  | .delPort portid => .delPortConfig (buildPortDeleteInb portid)
  | .setSubsys subsys => .setSubsysConfig (buildSubsysConfigInb subsys)
  | .delSubsys subsys => .delSubsysConfig (buildSubsysDeleteInb subsys)
  | .configNs subsys ns => .setNsConfig (buildNsConfigInb subsys ns)
  | .setNs subsys ns => .setNsConfig (buildNsConfigInb subsys ns)
  | .delNs subsys ns => .delNsConfig (buildNsDeleteInb subsys ns)
  | .setHost host => .setHostConfig (buildHostConfigInb host.nqn)
  | .delHost hostnqn => .delHostConfig (buildHostDeleteInb hostnqn)
  | .linkHost subsys host => .linkHostConfig (buildLinkHostInb subsys host)
  | .unlinkHost subsys host => .unlinkHostConfig (buildLinkHostInb subsys host)
  | .linkPort subsys portid => .linkPortConfig (buildLinkPortInb subsys portid)
  | .unlinkPort subsys portid => .unlinkPortConfig (buildLinkPortInb subsys portid)

/-! ## Out of band -/

/-- A request to a manager: its path, and a body if it posts one. -/
inductive OobRequest where
  | post (path body : String)
  | delete (path : String)
  deriving DecidableEq, Repr

def OobRequest.path : OobRequest → String
  | .post path _ => path
  | .delete path => path

def Message.oob : Message → OobRequest
  | .reset => .delete uriConfig
  | .setPort portid => .post s!"{uriPortid}/{portid.portid}" (buildSetPortOob portid)
  | .delPort portid => .delete s!"{uriPortid}/{portid.portid}"
  | .setSubsys subsys => .post uriSubsystem (buildSetSubsysOob subsys)
  | .delSubsys subsys => .delete s!"{uriSubsystem}/{subsys.nqn}"
  | .configNs subsys ns => .post s!"{uriSubsystem}/{subsys.nqn}/{uriNamespace}" (buildSetNsOob ns)
  | .setNs subsys ns => .post s!"{uriSubsystem}/{subsys.nqn}/{uriNamespace}/{ns.nsid}" (buildSetNsOob ns)
  | .delNs subsys ns => .delete s!"{uriSubsystem}/{subsys.nqn}/{uriNamespace}/{ns.nsid}"
  | .setHost host => .post uriHost (buildSetHostOob host.nqn)
  | .delHost hostnqn => .delete s!"{uriHost}/{hostnqn}"
  | .linkHost subsys host => .post s!"{uriSubsystem}/{subsys.nqn}/{uriHost}" (buildSetHostOob host.nqn)
  | .unlinkHost subsys host => .delete s!"{uriSubsystem}/{subsys.nqn}/{uriHost}/{host.nqn}"
  | .linkPort subsys portid => .post s!"{uriSubsystem}/{subsys.nqn}/{uriPortid}" (buildSetPortidOob portid.portid)
  | .unlinkPort subsys portid => .delete s!"{uriSubsystem}/{subsys.nqn}/{uriPortid}/{portid.portid}"

/-- What a request comes to at the manager, with the URI that its web server hands over. -/
def OobRequest.outcome (J : JsonLib) (req : OobRequest) (uri : String) : Except Fault Outcome :=
  match req with
  | .post _ body => postCall J (parseUri uri) body
  | .delete _ => .ok (deleteCall (parseUri uri))

/-- What a message comes to out of band: its URI is written into a buffer, and the server of the manager hands over a part of it. -/
def Message.oobOutcome (http : HttpLib) (J : JsonLib) (target : Target) (msg : Message) : Except Fault Outcome := do
  let url ← uriTo target msg.oob.path
  match http.uri url with
  | none => return .answer (-einval)
  | some uri => msg.oob.outcome J uri

/-! ## Sending -/

def execOob (w : Wire) (target : Target) : OobRequest → Sends
  | .post path body => execPost w target path body
  | .delete path => execDelete w target path

def sendMessage (w : Wire) (target : Target) (msg : Message) : Sends :=
  match target.mgmtMode with
  | .inBandMgmt => sendSetConfig w msg.inb
  | .outOfBandMgmt => execOob w target msg.oob
  | .localMgmt => done

section

variable (w : Wire) (target : Target)

/-- The messages of a reconfiguration. -/
theorem configPortidInb_eq (portid : Portid) : configPortidInb w portid = sendSetConfig w (Message.setPort portid).inb := rfl

theorem configPortidOob_eq (portid : Portid) :
    configPortidOob w target portid = execOob w target (Message.setPort portid).oob := rfl

theorem sendLinkPortidOob_eq (subsys : Subsystem) (portid : Portid) :
    sendLinkPortidOob w target subsys portid = execOob w target (Message.linkPort subsys portid).oob := rfl

theorem sendDelTarget_eq : sendDelTarget w target = sendMessage w target .reset := rfl

/-- What a request does at a manager is what it comes to there. -/
theorem request_post_eq (path body : String) {url uri : String} (config : Finset Item) (huri : w.http.uri url = some uri) :
    request w url (fun config parts => postRequest w.json config parts body) config =
      ((OobRequest.post path body).outcome w.json uri).map (fun out =>
        (if (out.run config).1 = 0 then 0 else -einval, (out.run config).2)) := by
  simp only [request, huri, postRequest_eq, OobRequest.outcome]
  cases postCall w.json (parseUri uri) body <;> rfl

theorem request_delete_eq (path : String) {url uri : String} (config : Finset Item) (huri : w.http.uri url = some uri) :
    request w url (fun config parts => .ok (deleteRequest config parts)) config =
      ((OobRequest.delete path).outcome w.json uri).map (fun out =>
        (if (out.run config).1 = 0 then 0 else -einval, (out.run config).2)) := by
  simp only [request, huri, deleteRequest_eq, OobRequest.outcome]
  rfl

end

end Push

end NvmeDem
