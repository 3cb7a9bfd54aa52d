import NvmeDem.Dem.State

/-!
# Who may see which log pages

The log pages of a host are asked for in two ways. A host on the fabric is known by its NQN: a subsystem lets it in when it is
open to every host or has a record with that NQN, and a target that is in a group lets it in when a link with that NQN is in one
of the target's groups. The REST interface asks for a host by its alias, and looks for the alias where the fabric looks for the
NQN. Both walk the same lists in the same order.

A link whose group is NULL is followed as soon as its host matches.
-/

namespace NvmeDem

/-! ## Groups -/

/-- The targets that are linked to a group. A group that was given back cannot be read. -/
def groupTargets (groups : List Group) : Option Nat → Except Fault (List Nat)
  | none => .error .nullPointer
  | some ptr =>
    match groups.find? (fun g => g.ptr == ptr) with
    | some group => .ok group.targetList
    | none => .error .freed

/-- The search of `sharedGroup` and `indirectSharedGroup`: whether a link to the host (`isHost`) is in a group of the target. -/
def sharesGroup (groups : List Group) (target : Target) (isHost : GroupHostLink → Bool) :
    List GroupHostLink → Except Fault Bool
  | [] => .ok false
  | host :: rest =>
    if isHost host then
      match groupTargets groups host.group with
      | .error f => .error f
      | .ok targets => if target.ptr ∈ targets then .ok true else sharesGroup groups target isHost rest
    else sharesGroup groups target isHost rest

/-- Whether the target is in a group of the host with an NQN. -/
def sharedGroup (lists : Lists) (target : Target) (nqn : String) : Except Fault Bool :=
  sharesGroup lists.groupList target (fun host => host.nqn == nqn) lists.hostList

/-- Whether the target is in a group of the host with an alias. -/
def indirectSharedGroup (lists : Lists) (target : Target) (name : String) : Except Fault Bool :=
  sharesGroup lists.groupList target (fun host => host.name == name) lists.hostList

/-! ## Subsystems -/

def hostAccess (subsys : Subsystem) (nqn : String) : Bool := subsys.hostList.any (fun host => host.nqn == nqn)

/-- The valid log pages of a subsystem. -/
def Subsystem.validEntries (subsys : Subsystem) : List LogEntry :=
  (subsys.logpageList.filter (fun p => p.valid)).map Logpage.e

/-! ## The two views -/

/-- The walk of both views: the valid log pages of the subsystems that let the host in, of the targets that do. -/
def walkLogPages (inTarget : Target → Except Fault Bool) (inSubsys : Subsystem → Bool) :
    List Target → Except Fault (List LogEntry)
  | [] => .ok []
  | target :: rest =>
    match if target.groupMember then inTarget target else .ok true with
    | .error f => .error f
    | .ok shared =>
      (walkLogPages inTarget inSubsys rest).map (fun entries =>
        (if shared then (target.subsysList.filter inSubsys).flatMap Subsystem.validEntries else []) ++ entries)

/-- The log pages that a host on the fabric is given. -/
def handleGetLogPages (lists : Lists) (nqn : String) : Except Fault (List LogEntry) :=
  walkLogPages (fun target => sharedGroup lists target nqn)
    (fun subsys => decide (subsys.access ≠ 0) || hostAccess subsys nqn) lists.targetList

/-- The same walk where the pages are only counted. -/
def walkLogPageCount (inTarget : Target → Except Fault Bool) (inSubsys : Subsystem → Bool) :
    List Target → Nat → Except Fault Nat
  | [], numrec => .ok numrec
  | target :: rest, numrec =>
    match if target.groupMember then inTarget target else .ok true with
    | .error f => .error f
    | .ok false => walkLogPageCount inTarget inSubsys rest numrec
    | .ok true =>
      walkLogPageCount inTarget inSubsys rest (target.subsysList.foldl (fun n subsys =>
        if inSubsys subsys then n + subsys.logpageList.countP (fun p => p.valid) else n) numrec)

/-- The number of log pages that a host on the fabric is told. -/
def handleGetLogPageCount (lists : Lists) (nqn : String) : Except Fault Nat :=
  walkLogPageCount (fun target => sharedGroup lists target nqn)
    (fun subsys => decide (subsys.access ≠ 0) || hostAccess subsys nqn) lists.targetList 0

/-- The log pages that the REST interface shows for a host. -/
def hostLogpage (lists : Lists) (name : String) : Except Fault (List LogEntry) :=
  walkLogPages (fun target => indirectSharedGroup lists target name)
    (fun subsys => !subsys.isRestricted || subsys.hostList.any (fun host => host.name == name)) lists.targetList

/-! ## The count is that of the pages -/

theorem foldl_countP (inSubsys : Subsystem → Bool) (list : List Subsystem) (n : Nat) :
    list.foldl (fun n subsys => if inSubsys subsys then n + subsys.logpageList.countP (fun p => p.valid) else n) n =
      n + ((list.filter inSubsys).flatMap Subsystem.validEntries).length := by
  induction list generalizing n with
  | nil => simp
  | cons subsys list ih =>
    rw [List.foldl_cons, ih]
    by_cases h : inSubsys subsys = true
    · simp [h, Subsystem.validEntries, List.countP_eq_length_filter, Nat.add_assoc]
    · simp [h]

theorem walkLogPageCount_eq (inTarget : Target → Except Fault Bool) (inSubsys : Subsystem → Bool) (list : List Target)
    (n : Nat) :
    walkLogPageCount inTarget inSubsys list n = (walkLogPages inTarget inSubsys list).map (fun es => n + es.length) := by
  induction list generalizing n with
  | nil => simp [walkLogPageCount, walkLogPages, Except.map]
  | cons target list ih =>
    unfold walkLogPageCount walkLogPages
    split
    · simp [*, Except.map]
    · rename_i hshared
      rw [hshared, ih]
      cases walkLogPages inTarget inSubsys list <;> simp [Except.map]
    · rename_i hshared
      rw [hshared, ih, foldl_countP]
      cases walkLogPages inTarget inSubsys list <;> simp [Except.map, Nat.add_assoc]

/-- A host is told as many pages as it is then given, from the same lists. -/
theorem handleGetLogPageCount_eq (lists : Lists) (nqn : String) :
    handleGetLogPageCount lists nqn = (handleGetLogPages lists nqn).map List.length := by
  unfold handleGetLogPageCount handleGetLogPages
  rw [walkLogPageCount_eq]
  simp

end NvmeDem
