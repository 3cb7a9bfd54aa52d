import NvmeDem.Store.Targets
import NvmeDem.Lib.Run

/-!
# The store as a system

Every function of the store as one operation, with all its arguments: what the request names, its body, and what the caller's
structures and buffers hold before the call. A step of the store is a call that returns, whatever it returns.
-/

namespace NvmeDem

open Jansson

inductive StoreOp where
  | addGroup (group : Option String)
  | updateGroup (group : Option String) (data name : String)
  | setGroupMember (group : String) (data : Option String) (member : String) (kind : Member) (out : String)
  | delGroupMember (group : String) (member : Option String) (kind : Member)
  | delGroup (group : String)
  | addHost (host : Option String)
  | updateHost (host : Option String) (data : String) (out : HostOut)
  | delHost (host : Option String) (nqn : String)
  | setSubsys (tgt : String) (subnqn : Option String) (data : String) (subsys : SubsysArg)
  | delSubsys (tgt : String) (subnqn : Option String)
  | setPortid (tgt : String) (id : Int) (data : String) (portid : PortArg)
  | delPortid (tgt : String) (id : Int)
  | setNs (tgt subnqn data : String) (ns : NsArg)
  | delNs (tgt subnqn : String) (ns : Int)
  | addTarget (tgt : Option String)
  | updateTarget (tgt : Option String) (data : String) (target : TargetArg)
  | delTarget (tgt : Option String)
  | setAcl (tgt subnqn : String) (host : Option String) (data : String) (out : HostOut)
  | delAcl (tgt subnqn host : String)

/-- What a step keeps of a reply: the return value and the root. -/
def Reply.step {α : Type} (r : Reply α) : Int × Json := (r.ret, r.root)

def StoreOp.run (J : JsonLib) (root : Json) : StoreOp → Except Fault (Int × Json)
  | .addGroup group => (addJsonGroup root group).map Reply.step
  | .updateGroup group data name => (updateJsonGroup J root group data name).map Reply.step
  | .setGroupMember group data member kind out => (setJsonGroupMember J root group data member kind out).map Reply.step
  | .delGroupMember group member kind => (delJsonGroupMember root group member kind).map Reply.step
  | .delGroup group => .ok (delJsonGroup root group).step
  | .addHost host => (addJsonHost root host).map Reply.step
  | .updateHost host data out => (updateJsonHost J root host data out).map Reply.step
  | .delHost host nqn => (delJsonHost root host nqn).map Reply.step
  | .setSubsys tgt subnqn data subsys => (setJsonSubsys J root tgt subnqn data subsys).map Reply.step
  | .delSubsys tgt subnqn => (delJsonSubsys root tgt subnqn).map Reply.step
  | .setPortid tgt id data portid => (setJsonPortid J root tgt id data portid).map Reply.step
  | .delPortid tgt id => .ok (delJsonPortid root tgt id).step
  | .setNs tgt subnqn data ns => .ok (setJsonNs J root tgt subnqn data ns).step
  | .delNs tgt subnqn ns => .ok (delJsonNs root tgt subnqn ns).step
  | .addTarget tgt => (addJsonTarget root tgt).map Reply.step
  | .updateTarget tgt data target => (updateJsonTarget J root tgt data target).map Reply.step
  | .delTarget tgt => (delJsonTarget root tgt).map Reply.step
  | .setAcl tgt subnqn host data out => (setJsonAcl J root tgt subnqn host data out).map Reply.step
  | .delAcl tgt subnqn host => .ok (delJsonAcl root tgt subnqn host).step

/-- The configuration of a daemon that starts without a file. -/
def emptyRoot : Json := .object []

/-- A call that returns leads from one root to the next. -/
def storeStep (J : JsonLib) (op : StoreOp) (root root' : Json) : Prop := ∃ ret, op.run J root = .ok (ret, root')

/-- The stores that are reached from the empty configuration by calls that are allowed where they are made. -/
def StoreRun (J : JsonLib) (allowed : Json → StoreOp → Prop) (root : Json) : Prop :=
  Run (storeStep J) allowed emptyRoot root

/-- Any call, with any arguments. -/
def anyOp : Json → StoreOp → Prop := fun _ _ => True

/-- A run goes on with one more call. -/
theorem Run.call {J : JsonLib} {allowed : Json → StoreOp → Prop} {root₀ root root' : Json} {ret : Int} (op : StoreOp)
    (h : Run (storeStep J) allowed root₀ root) (ha : allowed root op) (hr : op.run J root = .ok (ret, root')) :
    Run (storeStep J) allowed root₀ root' := .next h ha ⟨ret, hr⟩

theorem map_step_eq_ok {α : Type} {x : Except Fault (Reply α)} {ret : Int} {root' : Json}
    (h : x.map Reply.step = .ok (ret, root')) : ∃ r, x = .ok r ∧ r.ret = ret ∧ r.root = root' := by
  cases x with
  | error f => cases h
  | ok r =>
    simp only [Except.map, Reply.step, Except.ok.injEq, Prod.mk.injEq] at h
    exact ⟨r, rfl, h.1, h.2⟩

end NvmeDem
