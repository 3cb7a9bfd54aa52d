import NvmeDem.Endpoint.Calls
import NvmeDem.Endpoint.Spdk

/-!
# The operations of a manager with SPDK

A call of an operation, on the tables of the SPDK back end. SPDK has no hosts by themselves, so that a call for one does nothing.
Of a call for a namespace there is only here what it returns; it changes no table.
-/

namespace NvmeDem

def OpsCall.spdkRun (net : Nat → Int) (s : Spdk.State) : OpsCall → Except Fault (Int × Spdk.State)
  | .resetConfig => Spdk.Op.run net s .resetConfig
  | .createPortid portid fam typ req addr svcid => Spdk.Op.run net s (.createPortid portid fam typ req addr svcid)
  | .deletePortid portid => Spdk.Op.run net s (.deletePortid portid)
  | .createSubsys subsys allowany => Spdk.Op.run net s (.createSubsys subsys allowany)
  | .deleteSubsys subsys => Spdk.Op.run net s (.deleteSubsys subsys)
  | .createHost _ | .deleteHost _ => .ok (0, s)
  | .createNs subsys _ _ _ | .deleteNs subsys _ =>
    if (s.findSubsys subsys).isNone then .ok (-enoent, s) else .ok (net s.sent, { s with sent := s.sent + 1 })
  | .linkHostToSubsys subsys host => Spdk.Op.run net s (.linkHostToSubsys subsys host)
  | .unlinkHostFromSubsys subsys host => Spdk.Op.run net s (.unlinkHostFromSubsys subsys host)
  | .linkPortToSubsys subsys portid => Spdk.Op.run net s (.linkPortToSubsys subsys portid)
  | .unlinkPortFromSubsys subsys portid => Spdk.Op.run net s (.unlinkPortFromSubsys subsys portid)

end NvmeDem
