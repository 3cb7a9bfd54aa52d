import NvmeDem.Dem.Messages
import NvmeDem.Store.Listing

/-!
# The URIs of the manager of a target

Each `send_*_oob` function of `config.c` writes a URI into an array of its own: first the address and the port of the manager, with
`get_uri`, then what it asks for. Nothing compares the texts with the size of the array. Here a write behind its end has no result.
-/

namespace NvmeDem

namespace Push

open Buffer

/-- The `send_*_oob` functions, with what each writes into its URI. The tags are the constants of their callers. -/
inductive OobSender where
  | getConfig (tag : String)
  | setPortid (portid : Int)
  | setConfig (tag : String)
  | updateSubsys (subsys tag : String)
  | linkHost (subnqn : String)
  | unlinkHost (subnqn hostnqn : String)
  | delHost (hostnqn : String)
  | unlinkPortid (subnqn : String) (portid : Int)
  | delSubsys (subnqn : String)
  | delPortid (portid : Int)
  | setNs (subnqn : String) (nsid : Int)
  | delNs (subnqn : String) (nsid : Int)
  | delTarget
  deriving DecidableEq, Repr

/-- The array on the stack, with any content. -/
def uriArray (content : Nat → Char) : Block Char := { size := maxUriSize, cell := content }

/-- `get_uri`: what is written, and its length. -/
def writeGetUri (target : Target) (uri : Block Char) : Option (Nat × Block Char) := sprintfs [getUri target] 0 uri

/-- What is written behind the address and the port, in this order and each at the same place. -/
def OobSender.paths : OobSender → List String
  | .getConfig tag => [tag]
  | .setPortid portid => [s!"{uriPortid}/{portid}"]
  | .setConfig tag => [tag]
  | .updateSubsys subsys tag => [s!"{uriSubsystem}/{subsys}/{tag}"]
  -- The host is set first, and the array is used again for the link.
  | .linkHost subnqn => [uriHost, s!"{uriSubsystem}/{subnqn}/{uriHost}"]
  | .unlinkHost subnqn hostnqn => [s!"{uriSubsystem}/{subnqn}/{uriHost}/{hostnqn}"]
  | .delHost hostnqn => [s!"{uriHost}/{hostnqn}"]
  | .unlinkPortid subnqn portid => [s!"{uriSubsystem}/{subnqn}/{uriPortid}/{portid}"]
  | .delSubsys subnqn => [s!"{uriSubsystem}/{subnqn}"]
  | .delPortid portid => [s!"{uriPortid}/{portid}"]
  | .setNs subnqn nsid => [s!"{uriSubsystem}/{subnqn}/{uriNamespace}/{nsid}"]
  | .delNs subnqn nsid => [s!"{uriSubsystem}/{subnqn}/{uriNamespace}/{nsid}"]
  | .delTarget => [uriConfig]

/-- Write texts at the same place, one after the other. -/
def overwrite (p : Nat) : List String → Block Char → Option (Block Char)
  | [], uri => some uri
  | path :: paths, uri => do
    let (_, uri) ← sprintfs [path] p uri
    overwrite p paths uri

/-- What the function does with its array. -/
def OobSender.write (sender : OobSender) (target : Target) (uri : Block Char) : Option (Block Char) := do
  let (p, uri) ← writeGetUri target uri
  overwrite p sender.paths uri

/-- The function that sends a message. The host of a link is set by a message of its own. -/
def Message.sender : Message → OobSender
  | .reset => .delTarget
  | .setPort portid => .setPortid portid.portid
  | .delPort portid => .delPortid portid.portid
  | .setSubsys _ => .setConfig uriSubsystem
  | .delSubsys subsys => .delSubsys subsys.nqn
  | .configNs subsys _ => .updateSubsys subsys.nqn uriNamespace
  | .setNs subsys ns => .setNs subsys.nqn ns.nsid
  | .delNs subsys ns => .delNs subsys.nqn ns.nsid
  | .setHost _ => .setConfig uriHost
  | .delHost hostnqn => .delHost hostnqn
  | .linkHost subsys _ => .linkHost subsys.nqn
  | .unlinkHost subsys host => .unlinkHost subsys.nqn host.nqn
  | .linkPort subsys _ => .updateSubsys subsys.nqn uriPortid
  | .unlinkPort subsys portid => .unlinkPortid subsys.nqn portid.portid

end Push

end NvmeDem
