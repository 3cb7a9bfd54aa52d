import NvmeDem.Dem.Queues
import NvmeDem.Lemmas.Errands

/-!
# What errands do to discovery queues

The records of a target and the target of its queues go together (`QueueTarget.Tracks`). The queues that a request makes for a
subsystem come to one at most: the first makes all others superfluous (`createSubsysQueues_eq`).
-/

namespace NvmeDem

open Keyed

/-! ## The records -/

def SubsysRecord.withoutLogs (s : SubsysRecord) : Subsystem := s.subsys.withoutLogs

/-- A target of queues has the records of a target. -/
structure QueueTarget.Tracks (t : QueueTarget) (target : Target) : Prop where
  ptr : t.ptr = target.ptr
  mgmtMode : t.mgmtMode = target.mgmtMode
  portidList : t.portidList = target.portidList
  subsysList : t.subsysList.map SubsysRecord.withoutLogs = target.subsysList.map Subsystem.withoutLogs

namespace QueueTarget

variable {t : QueueTarget} {target target' : Target} {nqn : String}

theorem Tracks.congr (h : t.Tracks target) (heq : target.withoutLogs = target'.withoutLogs) : t.Tracks target' := by
  have hptr := congrArg Target.ptr heq
  have hmode := congrArg Target.mgmtMode heq
  have hports := congrArg Target.portidList heq
  have hsubs := congrArg Target.subsysList heq
  exact ⟨h.ptr.trans hptr, h.mgmtMode.trans hmode, h.portidList.trans hports, h.subsysList.trans hsubs⟩

theorem Tracks.findPortid (h : t.Tracks target) (id : Int) : t.findPortid id = NvmeDem.findPortid target id := by
  rw [QueueTarget.findPortid, h.portidList]
  rfl

/-- What a search finds in the one is what it finds in the other. -/
theorem Tracks.findSubsys (h : t.Tracks target) (nqn : String) :
    (t.findSubsys nqn).map SubsysRecord.withoutLogs = (NvmeDem.findSubsys target nqn).map Subsystem.withoutLogs := by
  have hleft : (t.findSubsys nqn).map SubsysRecord.withoutLogs =
      (t.subsysList.map SubsysRecord.withoutLogs).find? (fun s => s.nqn == nqn) := by
    rw [List.find?_map]
    rfl
  have hright : (NvmeDem.findSubsys target nqn).map Subsystem.withoutLogs =
      (target.subsysList.map Subsystem.withoutLogs).find? (fun s => s.nqn == nqn) := by
    rw [List.find?_map]
    rfl
  rw [hleft, hright, h.subsysList]

/-- A change of a subsystem that does not look at its log pages. -/
theorem Tracks.onSubsys (h : t.Tracks target) (nqn : String) (f : Subsystem → Subsystem)
    (hf : ∀ s, (f s).withoutLogs = f s.withoutLogs) :
    (t.onSubsys nqn f).map SubsysRecord.withoutLogs = (target.onSubsys nqn f).subsysList.map Subsystem.withoutLogs := by
  have hrecord : ∀ s : SubsysRecord, SubsysRecord.withoutLogs { s with subsys := f s.subsys } = f s.withoutLogs :=
    fun s => hf s.subsys
  have hleft : (t.onSubsys nqn f).map SubsysRecord.withoutLogs =
      modifyFirst (fun s => s.nqn == nqn) f (t.subsysList.map SubsysRecord.withoutLogs) :=
    modifyFirst_map (q := fun s : Subsystem => s.nqn == nqn) (r := SubsysRecord.withoutLogs) (fun _ => rfl) hrecord _
  have hright : (target.onSubsys nqn f).subsysList.map Subsystem.withoutLogs =
      modifyFirst (fun s => s.nqn == nqn) f (target.subsysList.map Subsystem.withoutLogs) :=
    modifyFirst_map (q := fun s : Subsystem => s.nqn == nqn) (r := Subsystem.withoutLogs) (fun _ => rfl) hf _
  rw [hleft, hright, h.subsysList]

theorem Tracks.mapSubsys (h : t.Tracks target) {f : Subsystem → Subsystem} (hf : ∀ s, (f s).withoutLogs = f s.withoutLogs) :
    (t.subsysList.map (fun s => { s with subsys := f s.subsys } : SubsysRecord → SubsysRecord)).map SubsysRecord.withoutLogs =
      (target.subsysList.map f).map Subsystem.withoutLogs := by
  have hleft : (t.subsysList.map (fun s => { s with subsys := f s.subsys } : SubsysRecord → SubsysRecord)).map
      SubsysRecord.withoutLogs = (t.subsysList.map SubsysRecord.withoutLogs).map f := by
    simp only [List.map_map]
    exact List.map_congr_left (fun s _ => hf s.subsys)
  have hright : (target.subsysList.map f).map Subsystem.withoutLogs = (target.subsysList.map Subsystem.withoutLogs).map f := by
    simp only [List.map_map]
    exact List.map_congr_left (fun s _ => hf s)
  rw [hleft, hright, h.subsysList]

/-- The records of an errand on one subsystem: if there is none, nothing changes. -/
theorem Tracks.notFound (h : t.Tracks target) (hnone : t.findSubsys nqn = none) : NvmeDem.findSubsys target nqn = none := by
  have hfind := h.findSubsys nqn
  rw [hnone] at hfind
  exact Option.map_eq_none_iff.1 hfind.symm

theorem Tracks.found (h : t.Tracks target) {s : SubsysRecord} (hsome : t.findSubsys nqn = some s) :
    ∃ subsys, NvmeDem.findSubsys target nqn = some subsys ∧ s.withoutLogs = subsys.withoutLogs := by
  have hfind := h.findSubsys nqn
  rw [hsome] at hfind
  obtain ⟨subsys, hsubsys, heq⟩ := Option.map_eq_some_iff.1 hfind.symm
  exact ⟨subsys, hsubsys, heq.symm⟩

theorem withoutLogs_configSubsys (s : Subsystem) : (configSubsys s).withoutLogs = configSubsys s.withoutLogs := by
  have hr : s.withoutLogs.isRestricted = s.isRestricted := rfl
  unfold configSubsys
  rw [hr]
  split <;> rfl

theorem withoutLogs_delHost (name : String) (s : Subsystem) : (s.delHost name).withoutLogs = s.withoutLogs.delHost name := by
  have hr : s.withoutLogs.isRestricted = s.isRestricted := rfl
  unfold Subsystem.delHost
  rw [hr]
  split <;> rfl

theorem Tracks.idle (h : t.Tracks target) {f : Subsystem → Subsystem} (hnone : t.findSubsys nqn = none) :
    t.Tracks (target.onSubsys nqn f) := by
  rw [onSubsys_of_not_found (h.notFound hnone)]
  exact h

theorem Tracks.erase (h : t.Tracks target) (nqn : String) :
    (t.subsysList.eraseP (fun s => s.subsys.nqn == nqn)).map SubsysRecord.withoutLogs =
      (target.subsysList.eraseP (fun s => s.nqn == nqn)).map Subsystem.withoutLogs := by
  have hleft : (t.subsysList.eraseP (fun s => s.subsys.nqn == nqn)).map SubsysRecord.withoutLogs =
      (t.subsysList.map SubsysRecord.withoutLogs).eraseP (fun s => s.nqn == nqn) := by
    rw [List.eraseP_map]
    rfl
  have hright : (target.subsysList.eraseP (fun s => s.nqn == nqn)).map Subsystem.withoutLogs =
      (target.subsysList.map Subsystem.withoutLogs).eraseP (fun s => s.nqn == nqn) := by
    rw [List.eraseP_map]
    rfl
  rw [hleft, hright, h.subsysList]

/-- A step does to the records what the errand does to the target. -/
theorem Tracks.step (h : t.Tracks target) {w : World} {e : Errand} (hw : ∀ w' id out, e = .setPortid w' id out → w' = w) :
    (t.step w e).Tracks (e.apply target) := by
  cases e with
  | createSubsys out =>
    refine ⟨h.ptr, h.mgmtMode, h.portidList, ?_⟩
    simp only [QueueTarget.step, Errand.apply, List.map_append, h.subsysList]
    rfl
  | updateSubsys nqn out =>
    have hf : ∀ s : Subsystem, (configSubsys (s.updateTo out)).withoutLogs = configSubsys (s.withoutLogs.updateTo out) :=
      fun s => withoutLogs_configSubsys (s.updateTo out)
    cases hfound : t.findSubsys nqn with
    | none =>
      simp only [QueueTarget.step, hfound]
      exact h.idle hfound
    | some s =>
      simp only [QueueTarget.step, hfound]
      exact ⟨h.ptr, h.mgmtMode, h.portidList, h.onSubsys nqn _ hf⟩
  | delSubsys nqn =>
    cases hfound : t.findSubsys nqn with
    | none =>
      simp only [QueueTarget.step, hfound, Errand.apply, eraseP_of_not_found (h.notFound hfound)]
      exact h
    | some s =>
      simp only [QueueTarget.step, hfound]
      exact ⟨h.ptr, h.mgmtMode, h.portidList, h.erase nqn⟩
  | setPortid w' id out =>
    obtain rfl := hw w' id out rfl
    have hfind := h.findPortid id
    cases hfound : t.findPortid id with
    | none =>
      rw [hfound] at hfind
      simp only [QueueTarget.step, hfound, Errand.apply, Target.setPortid, ← hfind, Option.isSome_none, Bool.false_eq_true, if_false]
      exact ⟨h.ptr, h.mgmtMode, congrArg (· ++ _) h.portidList, h.subsysList⟩
    | some p =>
      rw [hfound] at hfind
      simp only [QueueTarget.step, hfound, Errand.apply, Target.setPortid, ← hfind, Option.isSome_some, if_true]
      exact ⟨h.ptr, h.mgmtMode, congrArg (modifyFirst _ _) h.portidList, h.subsysList⟩
  | delPortid id =>
    have hfind := h.findPortid id
    cases hfound : t.findPortid id with
    | none =>
      have hno : ∀ p ∈ target.portidList, ¬(p.portid == id) = true := by
        rw [hfound] at hfind
        simpa [NvmeDem.findPortid] using hfind.symm
      simp only [QueueTarget.step, hfound, Errand.apply, List.eraseP_of_forall_not hno]
      exact h
    | some p =>
      simp only [QueueTarget.step, hfound]
      exact ⟨h.ptr, h.mgmtMode, congrArg (List.eraseP _) h.portidList, h.subsysList⟩
  | linkHost nqn host =>
    cases hfound : t.findSubsys nqn with
    | none =>
      simp only [QueueTarget.step, hfound]
      exact h.idle hfound
    | some s =>
      simp only [QueueTarget.step, hfound]
      exact ⟨h.ptr, h.mgmtMode, h.portidList, h.onSubsys nqn (fun s => { s with hostList := s.hostList ++ [host] }) (fun _ => rfl)⟩
  | unlinkHost nqn name =>
    cases hfound : t.findSubsys nqn with
    | none =>
      simp only [QueueTarget.step, hfound]
      exact h.idle hfound
    | some s =>
      cases hhost : s.subsys.hostList.find? (fun host => host.name == name) with
      | none =>
        obtain ⟨subsys, hsubsys, hsame⟩ := h.found hfound
        have hsame' : ∀ x, target.subsysList.find? (fun s => s.nqn == nqn) = some x →
            { x with hostList := x.hostList.eraseP (fun host => host.name == name) } = x := by
          intro x hx
          obtain rfl := Option.some.inj (hsubsys.symm.trans hx)
          have hlist : subsys.hostList = s.subsys.hostList := by
            have hlists := congrArg Subsystem.hostList hsame
            exact hlists.symm
          rw [hlist, List.eraseP_of_forall_not (List.find?_eq_none.1 hhost), ← hlist]
        simp only [QueueTarget.step, hfound, hhost, Errand.apply, Target.onSubsys, modifyFirst_of_find_same hsame']
        exact h
      | some host =>
        simp only [QueueTarget.step, hfound, hhost]
        exact ⟨h.ptr, h.mgmtMode, h.portidList,
          h.onSubsys nqn (fun s => { s with hostList := s.hostList.eraseP (fun host => host.name == name) }) (fun _ => rfl)⟩
  | updateHost name out => exact ⟨h.ptr, h.mgmtMode, h.portidList, h.mapSubsys (fun _ => rfl)⟩
  | delHost name hostnqn => exact ⟨h.ptr, h.mgmtMode, h.portidList, h.mapSubsys (withoutLogs_delHost name)⟩
  | delTarget => exact h

end QueueTarget

theorem afterReply_some {α : Type} {x : Except Fault (Reply α)} {k : Reply α → Errand} {e : Errand} (h : afterReply x k = some e) :
    ∃ r, e = k r := by
  unfold afterReply at h
  split at h
  · cases h
  · split at h
    · exact ⟨_, (Option.some.inj h).symm⟩
    · cases h

/-- An errand that sets a port allocates what its request allocates. -/
theorem world_of_setPortid {J : JsonLib} {w w' : World} {root : Jansson.Json} {name : String} {req : Request} {id : Int}
    {out : PortArg} (h : req.errand J w root name = some (.setPortid w' id out)) : w' = w := by
  cases req with
  | setPortid tgt id' data =>
    obtain ⟨-, hreply⟩ := Option.ite_none_right_eq_some.1 h
    obtain ⟨r, hr⟩ := afterReply_some hreply
    cases hr
    rfl
  | setSubsys tgt nqn data =>
    obtain ⟨-, hreply⟩ := Option.ite_none_right_eq_some.1 h
    obtain ⟨r, hr⟩ := afterReply_some hreply
    cases nqn <;> cases hr
  | delSubsys _ _ | delPortid _ _ | linkHost _ _ _ _ | unlinkHost _ _ _ | delTarget _ =>
    obtain ⟨-, hreply⟩ := Option.ite_none_right_eq_some.1 h
    obtain ⟨r, hr⟩ := afterReply_some hreply
    cases hr
  | updateHost _ _ | delHost _ =>
    obtain ⟨r, hr⟩ := afterReply_some h
    cases hr
  | _ => cases h

/-! ## Making queues -/

/-- A restricted subsystem that has a host is asked for in its name. -/
def needsQueue (subsys : Subsystem) : Bool := subsys.isRestricted && !subsys.hostList.isEmpty

/-- The queue that is made for a subsystem at a port. -/
def newQueue (s : SubsysRecord) (portid : Portid) : CtrlQueue where
  portid := portid.ptr
  subsys := some s.ptr
  hostnqn := (s.subsys.hostList.head?.map Host.nqn).getD ""

section

variable {sharedNqn : String} {s : SubsysRecord} {portid : Portid} {portidList : List Portid} {queues : List CtrlQueue}

theorem createDiscoveryQueue_none :
    createDiscoveryQueue sharedNqn none portid queues =
      if registerOps portid.type then queues ++ [{ portid := portid.ptr, subsys := none, hostnqn := sharedNqn }] else queues := rfl

theorem createDiscoveryQueue_some :
    createDiscoveryQueue sharedNqn (some s) portid queues =
      if needsQueue s.subsys && (registerOps portid.type && !dqExists queues s.subsys portid) then queues ++ [newQueue s portid]
      else queues := by
  unfold createDiscoveryQueue needsQueue newQueue
  cases hhosts : s.subsys.hostList with
  | nil => simp [hhosts]
  | cons host hosts =>
    simp only [hhosts]
    cases s.subsys.isRestricted <;> cases registerOps portid.type <;> cases dqExists queues s.subsys portid <;> simp

/-- Queues of the port itself do not count. -/
theorem dqExists_append {subsys : Subsystem} {new : List CtrlQueue} (h : ∀ dq ∈ new, dq.portid = portid.ptr) :
    dqExists (queues ++ new) subsys portid = dqExists queues subsys portid := by
  have hnone : dqExists new subsys portid = false := by
    rw [dqExists, List.any_eq_false]
    intro dq hdq
    simp [h dq hdq]
  rw [dqExists, List.any_append]
  exact (congrArg (queues.any _ || ·) hnone).trans (Bool.or_false _)

theorem dqExists_eraseP {subsys : Subsystem} (p : CtrlQueue → Bool) (h : ∀ dq, p dq = true → dq.portid = portid.ptr) :
    dqExists (queues.eraseP p) subsys portid = dqExists queues subsys portid := by
  induction queues with
  | nil => rfl
  | cons dq queues ih =>
    by_cases hp : p dq = true
    · rw [List.eraseP_cons_of_pos hp]
      simp [dqExists, h dq hp]
    · rw [List.eraseP_cons_of_neg hp]
      simp only [dqExists, List.any_cons] at ih ⊢
      rw [ih]

/-- A queue that was made serves its subsystem at the other ports. -/
theorem dqExists_newQueue {p : Portid} (hneeds : needsQueue s.subsys = true) (hne : portid.ptr ≠ p.ptr) :
    dqExists (queues ++ [newQueue s portid]) s.subsys p = true := by
  unfold needsQueue at hneeds
  unfold dqExists newQueue
  cases hhosts : s.subsys.hostList with
  | nil => simp [hhosts] at hneeds
  | cons host hosts => simp [hne]

theorem createSubsysQueues_none (h : ∀ p ∈ portidList, (needsQueue s.subsys && (registerOps p.type && !dqExists queues s.subsys p)) = false) :
    createSubsysQueues sharedNqn portidList s queues = queues := by
  unfold createSubsysQueues
  induction portidList with
  | nil => rfl
  | cons p ps ih =>
    rw [List.foldl_cons, createDiscoveryQueue_some, h p List.mem_cons_self, if_neg Bool.false_ne_true]
    exact ih (fun p hp => h p (List.mem_cons_of_mem _ hp))

/-- A subsystem gets a queue at the first port that has the operations and where no queue of another port serves it. -/
theorem createSubsysQueues_eq (hports : (portidList.map Portid.ptr).Nodup) (hneeds : needsQueue s.subsys = true) :
    createSubsysQueues sharedNqn portidList s queues =
      queues ++ ((portidList.find? (fun p => registerOps p.type && !dqExists queues s.subsys p)).map (newQueue s)).toList := by
  induction portidList with
  | nil => exact (List.append_nil queues).symm
  | cons p ps ih =>
    rw [List.map_cons, List.nodup_cons] at hports
    have hcons : createSubsysQueues sharedNqn (p :: ps) s queues =
        createSubsysQueues sharedNqn ps s (createDiscoveryQueue sharedNqn (some s) p queues) := rfl
    rw [hcons, createDiscoveryQueue_some, hneeds, Bool.true_and]
    cases hp : registerOps p.type && !dqExists queues s.subsys p with
    | true =>
      rw [if_pos rfl, List.find?_cons_of_pos (p := fun p => registerOps p.type && !dqExists queues s.subsys p) hp]
      refine createSubsysQueues_none (fun q hq => ?_)
      have hne : p.ptr ≠ q.ptr := fun heq => hports.1 (heq ▸ List.mem_map_of_mem hq)
      rw [dqExists_newQueue hneeds hne, Bool.not_true, Bool.and_false, Bool.and_false]
    | false =>
      rw [if_neg Bool.false_ne_true, List.find?_cons_of_neg (p := fun p => registerOps p.type && !dqExists queues s.subsys p)
        (by rw [hp]; exact Bool.false_ne_true)]
      exact ih hports.2

theorem createSubsysQueues_unneeded (h : needsQueue s.subsys = false) :
    createSubsysQueues sharedNqn portidList s queues = queues :=
  createSubsysQueues_none (fun _ _ => by rw [h, Bool.false_and])

theorem needsQueue_open {subsys : Subsystem} (h : subsys.isRestricted = false) : needsQueue (configSubsys subsys) = false := by
  rw [needsQueue, isRestricted_configSubsys, h, Bool.false_and]

variable {w : World} {t : QueueTarget}

/-- A restricted subsystem that was set gets its queue if the target was told. -/
theorem setSubsysQueues_restricted (h : s.subsys.isRestricted = true) :
    setSubsysQueues w t s =
      if t.sendTo w (.configSubsys t.ptr s.subsys.nqn) = 0 then createSubsysQueues t.sharedNqn t.portidList s t.discoveryQueueList
      else t.discoveryQueueList := by
  have hsame : configSubsys s.subsys = s.subsys := by rw [configSubsys, if_pos h]
  unfold setSubsysQueues
  rw [hsame, if_pos h]

/-- An open one loses its first queue. -/
theorem setSubsysQueues_open (h : s.subsys.isRestricted = false) : setSubsysQueues w t s = delSubsysDq s.ptr t.discoveryQueueList := by
  have hnone : createSubsysQueues t.sharedNqn t.portidList { s with subsys := configSubsys s.subsys }
      (delSubsysDq s.ptr t.discoveryQueueList) = delSubsysDq s.ptr t.discoveryQueueList :=
    createSubsysQueues_unneeded (needsQueue_open h)
  unfold setSubsysQueues
  rw [h]
  simp only [Bool.false_eq_true, if_false, hnone, ite_self]

end

end NvmeDem
