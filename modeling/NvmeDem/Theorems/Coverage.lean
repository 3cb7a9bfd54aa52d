import NvmeDem.Lemmas.Releases
import NvmeDem.Theorems.Queues

/-!
# Subsystems are covered by queues

A restricted subsystem with hosts is asked for when some queue asks in the name of one of its hosts. The queue need not be its own:
one of another subsystem will do, and then it is not made twice. A request that takes a queue away, or gives it another name, does not
look for the other subsystems that it serves; nor is a subsystem looked after whose host is served by the queue of another. What a
request must meet to leave all of them covered is `KeepsCover`.
-/

namespace NvmeDem

open Keyed

/-- Every restricted subsystem with hosts has a queue that asks in the name of one of them. -/
def QueueTarget.Covered (t : QueueTarget) : Prop :=
  t.portidList ≠ [] → ∀ s ∈ t.subsysList, needsQueue s.subsys = true →
    t.discoveryQueueList.any (serves s.subsys.hostList) = true

/-- The errands that keep the subsystems covered, when what they send succeeds and the ports have operations. The other errands are
not of the requests here. -/
def KeepsCover (w : World) (t : QueueTarget) : Errand → Prop
  -- A queue was left behind at the address of a subsystem that is open, and goes with it.
  | .createSubsys out =>
    out.access ≠ restricted → t.portidList ≠ [] → ∀ s ∈ t.subsysList, needsQueue s.subsys = true →
      (t.discoveryQueueList.eraseP (CtrlQueue.isOf w.addr)).any (serves s.subsys.hostList) = true
  -- The first queue of a subsystem that is opened goes, and that of one that is deleted.
  | .updateSubsys nqn out =>
    ∀ s, t.findSubsys nqn = some s → (s.subsys.updateTo out).isRestricted = false → t.portidList ≠ [] →
      ∀ s' ∈ t.subsysList.eraseP (fun s => s.subsys.nqn == nqn), needsQueue s'.subsys = true →
        (t.discoveryQueueList.eraseP (CtrlQueue.isOf s.ptr)).any (serves s'.subsys.hostList) = true
  | .delSubsys nqn =>
    ∀ s, t.findSubsys nqn = some s → t.portidList ≠ [] →
      ∀ s' ∈ t.subsysList.eraseP (fun s => s.subsys.nqn == nqn), needsQueue s'.subsys = true →
        (t.discoveryQueueList.eraseP (CtrlQueue.isOf s.ptr)).any (serves s'.subsys.hostList) = true
  | .setPortid _ _ out => registerOps out.type = true
  -- The queues of the port go, and none is made at the ports that are left.
  | .delPortid id =>
    ∀ p, t.findPortid id = some p → t.portidList.eraseP (fun p => p.portid == id) ≠ [] →
      ∀ s ∈ t.subsysList, needsQueue s.subsys = true →
        (t.discoveryQueueList.filter (fun dq => dq.portid != p.ptr)).any (serves s.subsys.hostList) = true
  -- A queue that a subsystem has left passes to its first host.
  | .linkHost subnqn host =>
    ∀ s, t.findSubsys subnqn = some s → s.subsys.hostList.isEmpty = true → t.discoveryQueueList.any (CtrlQueue.isOf s.ptr) = true →
      t.portidList ≠ [] → ∀ s' ∈ t.subsysList.eraseP (fun s => s.subsys.nqn == subnqn), needsQueue s'.subsys = true →
        (t.discoveryQueueList.eraseP (CtrlQueue.isOf s.ptr)).any (serves s'.subsys.hostList) = true ∨
          s'.subsys.hostList.any (fun h => h.nqn == host.nqn) = true
  -- A host that leaves may have been the one whose queue serves a subsystem, be it of this subsystem or of another.
  | .unlinkHost subnqn name =>
    ∀ s host, t.findSubsys subnqn = some s → s.subsys.hostList.find? (fun host => host.name == name) = some host →
      t.portidList ≠ [] →
      ∀ s' ∈ t.onSubsys subnqn (fun s => { s with hostList := s.hostList.eraseP (fun host => host.name == name) }),
        needsQueue s'.subsys = true →
          ServedAfter t.discoveryQueueList
            [{ ptr := s.ptr, nqn := host.nqn, heir := (s.subsys.hostList.eraseP (fun host => host.name == name)).head?.map Host.nqn }]
            s'.subsys.hostList
  | .updateHost name out =>
    t.portidList ≠ [] → ∀ s ∈ t.subsysList, needsQueue (s.subsys.updateHost name out) = true →
      ServedAfter t.discoveryQueueList (t.subsysList.filterMap (updateHostRelease name out)) (s.subsys.updateHost name out).hostList
  | .delHost name _ =>
    t.portidList ≠ [] → ∀ s ∈ t.subsysList, needsQueue (s.subsys.delHost name) = true →
      ServedAfter t.discoveryQueueList (t.subsysList.filterMap (delHostRelease name)) (s.subsys.delHost name).hostList
  | .delTarget => False

/-! ## Queues that are made -/

section

variable {sharedNqn : String} {s : SubsysRecord} {portid : Portid} {portidList : List Portid} {subsysList : List SubsysRecord}
  {queues : List CtrlQueue} {p : CtrlQueue → Bool}

theorem serves_newQueue (h : needsQueue s.subsys = true) : serves s.subsys.hostList (newQueue s portid) = true := by
  unfold needsQueue at h
  unfold serves newQueue
  cases hhosts : s.subsys.hostList with
  | nil => simp [hhosts] at h
  | cons host hosts => simp

theorem any_of_dqExists {subsys : Subsystem} (h : dqExists queues subsys portid = true) : queues.any (serves subsys.hostList) = true := by
  obtain ⟨dq, hdq, hserves⟩ := List.any_eq_true.1 h
  refine List.any_eq_true.2 ⟨dq, hdq, ?_⟩
  simp only [Bool.and_eq_true] at hserves
  rw [serves, hserves.1.1, hserves.2]
  rfl

/-- A queue more does no harm. -/
theorem any_create {subsys : Option SubsysRecord} (h : queues.any p = true) :
    (createDiscoveryQueue sharedNqn subsys portid queues).any p = true := by
  have hmore : ∀ new, (queues ++ [new]).any p = true := fun new => by rw [List.any_append, h, Bool.true_or]
  cases subsys with
  | none =>
    rw [createDiscoveryQueue_none]
    split
    · exact hmore _
    · exact h
  | some s =>
    rw [createDiscoveryQueue_some]
    split
    · exact hmore _
    · exact h

theorem any_createSubsysQueues (h : queues.any p = true) : (createSubsysQueues sharedNqn portidList s queues).any p = true := by
  unfold createSubsysQueues
  induction portidList generalizing queues with
  | nil => exact h
  | cons portid ps ih => exact ih (any_create h)

theorem any_createQueues (h : queues.any p = true) :
    (subsysList.foldl (fun queues subsys => createDiscoveryQueue sharedNqn (some subsys) portid queues) queues).any p = true := by
  induction subsysList generalizing queues with
  | nil => exact h
  | cons s ss ih => exact ih (any_create h)

/-- At a port that has the operations a subsystem gets a queue, unless it has one. -/
theorem served_create (hops : registerOps portid.type = true) (hneeds : needsQueue s.subsys = true) :
    (createDiscoveryQueue sharedNqn (some s) portid queues).any (serves s.subsys.hostList) = true := by
  rw [createDiscoveryQueue_some, hneeds, hops, Bool.true_and, Bool.true_and]
  cases hexists : dqExists queues s.subsys portid with
  | true => exact any_of_dqExists hexists
  | false =>
    rw [Bool.not_false, if_pos rfl, List.any_append, Bool.or_eq_true]
    exact Or.inr (List.any_eq_true.2 ⟨_, List.mem_cons_self, serves_newQueue hneeds⟩)

theorem served_createSubsysQueues (hops : ∀ p ∈ portidList, registerOps p.type = true) (hne : portidList ≠ [])
    (hneeds : needsQueue s.subsys = true) :
    (createSubsysQueues sharedNqn portidList s queues).any (serves s.subsys.hostList) = true := by
  cases portidList with
  | nil => exact absurd rfl hne
  | cons p ps =>
    have hfirst : (createDiscoveryQueue sharedNqn (some s) p queues).any (serves s.subsys.hostList) = true :=
      served_create (hops p List.mem_cons_self) hneeds
    show (createSubsysQueues sharedNqn ps s (createDiscoveryQueue sharedNqn (some s) p queues)).any _ = true
    exact any_createSubsysQueues hfirst

theorem served_initDiscoveryQueue (hops : registerOps portid.type = true) (hs : s ∈ subsysList) (hneeds : needsQueue s.subsys = true) :
    (initDiscoveryQueue sharedNqn subsysList queues portid).any (serves s.subsys.hostList) = true := by
  unfold initDiscoveryQueue
  generalize createDiscoveryQueue sharedNqn none portid queues = first
  induction subsysList generalizing first with
  | nil => cases hs
  | cons s' ss ih =>
    rw [List.foldl_cons]
    rcases List.mem_cons.1 hs with rfl | hs
    · exact any_createQueues (served_create hops hneeds)
    · exact ih hs _

end

/-! ## The start -/

theorem covered_initQueues {t : QueueTarget} (hops : ∀ p ∈ t.portidList, registerOps p.type = true) : t.initQueues.Covered := by
  intro hne s hs hneeds
  have hkeep : ∀ (ps : List Portid) (queues : List CtrlQueue), queues.any (serves s.subsys.hostList) = true →
      (ps.foldl (initDiscoveryQueue t.sharedNqn t.subsysList) queues).any (serves s.subsys.hostList) = true := by
    intro ps
    induction ps with
    | nil => exact fun _ h => h
    | cons p ps ih => exact fun queues h => ih _ (any_createQueues (any_create h))
  unfold QueueTarget.initQueues at hne hs ⊢
  cases hports : t.portidList with
  | nil => exact absurd hports hne
  | cons p ps =>
    have hp : registerOps p.type = true := hops p (by rw [hports]; exact List.mem_cons_self)
    exact hkeep ps _ (served_initDiscoveryQueue hp hs hneeds)

/-! ## Errands -/

section

variable {t : QueueTarget} {w : World} {e : Errand}

theorem sendTo_zero (hsend : ∀ msg, w.send msg = 0) (msg : Msg) : t.sendTo w msg = 0 := by
  unfold QueueTarget.sendTo
  split
  · rfl
  · exact hsend msg

/-- The subsystems other than one that is changed. -/
theorem mem_onSubsys {nqn : String} {f : Subsystem → Subsystem} {s s' : SubsysRecord} (hfound : t.findSubsys nqn = some s)
    (hs' : s' ∈ t.onSubsys nqn f) :
    s' ∈ t.subsysList.eraseP (fun s => s.subsys.nqn == nqn) ∨ s' = { s with subsys := f s.subsys } :=
  (mem_modifyFirst_iff hfound).1 hs'

section

variable {sharedNqn : String} {portidList : List Portid} {s : SubsysRecord} {queues : List CtrlQueue} {nqn : String}

/-- The first queue of a subsystem asks in another name. -/
theorem any_rename {hosts : List Host} (h : queues.any (CtrlQueue.isOf s.ptr) = true) :
    (modifyFirst (CtrlQueue.isOf s.ptr) (fun dq => { dq with hostnqn := nqn }) queues).any (serves hosts) =
      ((queues.eraseP (CtrlQueue.isOf s.ptr)).any (serves hosts) || hosts.any (fun host => host.nqn == nqn)) := by
  obtain ⟨x, hx, hof⟩ := List.any_eq_true.1 h
  cases hfind : queues.find? (CtrlQueue.isOf s.ptr) with
  | none => exact absurd hof (List.find?_eq_none.1 hfind x hx)
  | some dq =>
    have hsome : dq.subsys = some s.ptr := beq_iff_eq.1 (List.find?_some (p := CtrlQueue.isOf s.ptr) hfind)
    have hserves : serves hosts { dq with hostnqn := nqn } = hosts.any (fun host => host.nqn == nqn) := by
      rw [serves, hsome, Option.isSome_some, Bool.true_and]
    rw [← hserves, Bool.eq_iff_iff, Bool.or_eq_true, List.any_eq_true, List.any_eq_true]
    simp only [mem_modifyFirst_iff hfind, or_and_right, exists_or, exists_eq_left]

theorem any_resetSubsysDq_other {hosts : List Host}
    (h : queues.any (CtrlQueue.isOf s.ptr) = true →
      (queues.eraseP (CtrlQueue.isOf s.ptr)).any (serves hosts) = true ∨ hosts.any (fun host => host.nqn == nqn) = true)
    (hbefore : queues.any (serves hosts) = true) : (resetSubsysDq sharedNqn portidList s nqn queues).any (serves hosts) = true := by
  unfold resetSubsysDq
  split
  · rename_i hany
    rw [any_rename hany, Bool.or_eq_true]
    exact h hany
  · exact any_createSubsysQueues hbefore

/-- A subsystem gets its first host, and a queue that asks in its name. -/
theorem served_resetSubsysDq {host : Host} (hops : ∀ p ∈ portidList, registerOps p.type = true) (hne : portidList ≠ [])
    (hneeds : needsQueue { s.subsys with hostList := [host] } = true) :
    (resetSubsysDq sharedNqn portidList { s with subsys := { s.subsys with hostList := [host] } } host.nqn queues).any
      (serves [host]) = true := by
  unfold resetSubsysDq
  split
  · rename_i hany
    rw [any_rename hany, Bool.or_eq_true]
    exact Or.inr (by simp)
  · exact served_createSubsysQueues (s := { s with subsys := { s.subsys with hostList := [host] } }) hops hne hneeds

end

/-- A subsystem is added, without hosts. -/
theorem QueueTarget.Covered.createSubsys {out : SubsysArg} (h : t.Covered) (hkeeps : KeepsCover w t (.createSubsys out)) :
    (t.step w (.createSubsys out)).Covered := by
  intro hne s hs hneeds
  have hs : s ∈ t.subsysList := by
    rcases List.mem_append.1 hs with hs | hs
    · exact hs
    · rw [List.mem_singleton.1 hs, needsQueue, Bool.and_eq_true] at hneeds
      cases hneeds.2
  show (setSubsysQueues w t _).any _ = true
  cases hr : ({ nqn := out.nqn, access := out.access } : Subsystem).isRestricted with
  | true =>
    rw [setSubsysQueues_restricted hr]
    split
    · exact any_createSubsysQueues (h hne s hs hneeds)
    · exact h hne s hs hneeds
  | false =>
    rw [setSubsysQueues_open hr]
    exact hkeeps (beq_eq_false_iff_ne.1 hr) hne s hs hneeds

/-- A subsystem is renamed, restricted or opened. -/
theorem QueueTarget.Covered.updateSubsys {nqn : String} {out : SubsysArg} (h : t.Covered)
    (hops : ∀ p ∈ t.portidList, registerOps p.type = true) (hsend : ∀ msg, w.send msg = 0)
    (hkeeps : KeepsCover w t (.updateSubsys nqn out)) : (t.step w (.updateSubsys nqn out)).Covered := by
  cases hfound : t.findSubsys nqn with
  | none =>
    simp only [QueueTarget.step, hfound]
    exact h
  | some s =>
    simp only [QueueTarget.step, hfound]
    intro hne s' hs' hneeds
    have hcases := mem_onSubsys (f := fun s => configSubsys (s.updateTo out)) hfound hs'
    show (setSubsysQueues w t _).any _ = true
    cases hr : (s.subsys.updateTo out).isRestricted with
    | true =>
      rw [setSubsysQueues_restricted hr, if_pos (sendTo_zero hsend _)]
      rcases hcases with hs' | rfl
      · exact any_createSubsysQueues (h hne s' (List.mem_of_mem_eraseP hs') hneeds)
      · have hsame : configSubsys (s.subsys.updateTo out) = s.subsys.updateTo out := by rw [configSubsys, if_pos hr]
        simp only [hsame] at hneeds ⊢
        exact served_createSubsysQueues (s := { s with subsys := s.subsys.updateTo out }) hops hne hneeds
    | false =>
      rw [setSubsysQueues_open hr]
      rcases hcases with hs' | rfl
      · exact hkeeps s hfound hr hne s' hs' hneeds
      · rw [needsQueue_open hr] at hneeds
        cases hneeds

/-- A port is set, and each subsystem gets a queue there. -/
theorem QueueTarget.covered_setPortid {w' : World} {id : Int} {out : PortArg} (hmode : t.mgmtMode ≠ .localMgmt)
    (hsend : ∀ msg, w.send msg = 0) (hkeeps : KeepsCover w t (.setPortid w' id out)) :
    (t.step w (.setPortid w' id out)).Covered := by
  have hport : ∀ p : Portid, (p.updateTo out).type = out.type := fun _ => rfl
  have hserved : ∀ p : Portid, ∀ s ∈ t.subsysList, needsQueue s.subsys = true →
      (setPortidQueues w t (p.updateTo out)).any (serves s.subsys.hostList) = true := by
    intro p s hs hneeds
    unfold setPortidQueues
    split
    · exact absurd ‹_› hmode
    · rw [if_pos (sendTo_zero hsend _)]
      exact served_initDiscoveryQueue hkeeps hs hneeds
  cases hfound : t.findPortid id with
  | none =>
    simp only [QueueTarget.step, hfound]
    exact fun _ s hs hneeds => hserved _ s hs hneeds
  | some p =>
    simp only [QueueTarget.step, hfound]
    exact fun _ s hs hneeds => hserved _ s hs hneeds

/-- A subsystem is linked to a host, which may be its first. -/
theorem QueueTarget.Covered.linkHost {nqn : String} {host : Host} (h : t.Covered)
    (hops : ∀ p ∈ t.portidList, registerOps p.type = true) (hkeeps : KeepsCover w t (.linkHost nqn host)) :
    (t.step w (.linkHost nqn host)).Covered := by
  cases hfound : t.findSubsys nqn with
  | none =>
    simp only [QueueTarget.step, hfound]
    exact h
  | some s =>
    have hs : s ∈ t.subsysList := List.mem_of_find?_eq_some hfound
    have hcases : ∀ s' ∈ t.onSubsys nqn (fun s => { s with hostList := s.hostList ++ [host] }),
        s' ∈ t.subsysList.eraseP (fun s => s.subsys.nqn == nqn) ∨
          s' = { s with subsys := { s.subsys with hostList := s.subsys.hostList ++ [host] } } := fun s' => mem_onSubsys hfound
    cases hempty : s.subsys.hostList.isEmpty with
    | true =>
      have hnil : s.subsys.hostList = [] := List.isEmpty_iff.1 hempty
      simp only [QueueTarget.step, hfound, hempty, if_true]
      intro hne s' hs' hneeds
      rcases hcases s' hs' with hs' | rfl
      · refine any_resetSubsysDq_other (fun hany => hkeeps s hfound hempty hany hne s' hs' hneeds) ?_
        exact h hne s' (List.mem_of_mem_eraseP hs') hneeds
      · simp only [hnil, List.nil_append] at hneeds ⊢
        exact served_resetSubsysDq hops hne hneeds
    | false =>
      simp only [QueueTarget.step, hfound, hempty, Bool.false_eq_true, if_false]
      intro hne s' hs' hneeds
      rcases hcases s' hs' with hs' | rfl
      · exact h hne s' (List.mem_of_mem_eraseP hs') hneeds
      · have hr : s.subsys.isRestricted = true := (Bool.and_eq_true_iff.1 hneeds).1
        have hbefore : needsQueue s.subsys = true := by rw [needsQueue, hr, hempty]; rfl
        obtain ⟨dq, hdq, hserves⟩ := List.any_eq_true.1 (h hne s hs hbefore)
        refine List.any_eq_true.2 ⟨dq, hdq, ?_⟩
        rw [serves, Bool.and_eq_true] at hserves ⊢
        rw [List.any_append, hserves.2, Bool.true_or]
        exact ⟨hserves.1, rfl⟩

/-- A request that meets its condition keeps the subsystems covered. -/
theorem QueueTarget.Covered.step (h : t.Covered) (ha : t.Allocated) (hmode : t.mgmtMode ≠ .localMgmt)
    (hops : ∀ p ∈ t.portidList, registerOps p.type = true) (hsend : ∀ msg, w.send msg = 0) (hkeeps : KeepsCover w t e) :
    (t.step w e).Covered := by
  cases e with
  | createSubsys out => exact h.createSubsys hkeeps
  | updateSubsys nqn out => exact h.updateSubsys hops hsend hkeeps
  | delSubsys nqn =>
    cases hfound : t.findSubsys nqn with
    | none =>
      simp only [QueueTarget.step, hfound]
      exact h
    | some s =>
      simp only [QueueTarget.step, hfound]
      exact fun hne s' hs' hneeds => hkeeps s hfound hne s' hs' hneeds
  | setPortid w' id out => exact covered_setPortid hmode hsend hkeeps
  | delPortid id =>
    cases hfound : t.findPortid id with
    | none =>
      simp only [QueueTarget.step, hfound]
      exact h
    | some p =>
      simp only [QueueTarget.step, hfound]
      exact fun hne s hs hneeds => hkeeps p hfound hne s hs hneeds
  | linkHost nqn host => exact h.linkHost hops hkeeps
  | unlinkHost nqn name =>
    cases hfound : t.findSubsys nqn with
    | none =>
      simp only [QueueTarget.step, hfound]
      exact h
    | some s =>
      cases hhost : s.subsys.hostList.find? (fun host => host.name == name) with
      | none =>
        simp only [QueueTarget.step, hfound, hhost]
        exact h
      | some host =>
        simp only [QueueTarget.step, hfound, hhost]
        intro hne s' hs' hneeds
        show (resetSubsysDqNqn _ _ _).any _ = true
        rw [resetSubsysDqNqn_eq]
        refine (any_runs ?_ _).2 (hkeeps s host hfound hhost hne s' hs' hneeds)
        exact List.nodup_singleton _
  | updateHost name out =>
    intro hne s' hs' hneeds
    obtain ⟨s, hs, rfl⟩ := List.mem_map.1 hs'
    show (t.subsysList.foldl (updateHostQueues name out) t.discoveryQueueList).any _ = true
    rw [updateHostQueues_eq]
    exact (any_runs (nodup_releases (fun _ _ => ptr_updateHostRelease) ha.subsystems) _).2 (hkeeps hne s hs hneeds)
  | delHost name hostnqn =>
    intro hne s' hs' hneeds
    obtain ⟨s, hs, rfl⟩ := List.mem_map.1 hs'
    show (t.subsysList.foldl (delHostQueues name) t.discoveryQueueList).any _ = true
    rw [delHostQueues_eq]
    exact (any_runs (nodup_releases (fun _ _ => ptr_delHostRelease) ha.subsystems) _).2 (hkeeps hne s hs hneeds)
  | delTarget => exact h

/-! ## Runs -/

theorem mgmtMode_step (t : QueueTarget) (w : World) (e : Errand) : (t.step w e).mgmtMode = t.mgmtMode := by
  cases e with
  | unlinkHost nqn name =>
    simp only [QueueTarget.step]
    split
    · rfl
    · split <;> rfl
  | createSubsys _ | updateHost _ _ | delHost _ _ | delTarget => rfl
  | _ =>
    simp only [QueueTarget.step]
    split <;> rfl

/-- The ports have operations if those that are set do. -/
theorem registerOps_step (hops : ∀ p ∈ t.portidList, registerOps p.type = true) (hkeeps : KeepsCover w t e) :
    ∀ p ∈ (t.step w e).portidList, registerOps p.type = true := by
  cases e with
  | setPortid w' id out =>
    cases hfound : t.findPortid id with
    | none =>
      simp only [QueueTarget.step, hfound]
      intro p hp
      rcases List.mem_append.1 hp with hp | hp
      · exact hops p hp
      · rw [List.mem_singleton.1 hp]
        exact hkeeps
    | some q =>
      simp only [QueueTarget.step, hfound]
      intro p hp
      rcases mem_modifyFirst hp with hp | ⟨x, -, -, rfl⟩
      · exact hops p hp
      · exact hkeeps
  | delPortid id =>
    simp only [QueueTarget.step]
    split
    · exact hops
    · exact fun p hp => hops p (List.mem_of_mem_eraseP hp)
  | unlinkHost nqn name =>
    simp only [QueueTarget.step]
    split
    · exact hops
    · split <;> exact hops
  | createSubsys _ | updateHost _ _ | delHost _ _ | delTarget => exact hops
  | _ =>
    simp only [QueueTarget.step]
    split <;> exact hops

variable {J : JsonLib} {s₀ s : QueueWatch}

end

/-! A target with two ports: the queue of its subsystem is at the first. -/

section

open Push

def otherPort : Portid := { demoPort with ptr := 2, portid := 2 }

def portsRoot : Jansson.Json := .object
  [(tagTargets, .array [.object [(tagAlias, .string "t"),
    (tagPortids, .array [.object [(tagPortid, .integer 1)], .object [(tagPortid, .integer 2)]]),
    (tagSubsystems, .array [.object [(tagSubnqn, .string "nqn.subsys")]])]])]

def portsWatch : QueueWatch where
  dem := { root := portsRoot, lists := { targetList := [{ aclTarget [demoHost] with portidList := [demoPort, otherPort] }] } }
  name := "t"
  queued := ({ aclQueues [demoHost] with portidList := [demoPort, otherPort] } : QueueTarget).initQueues

theorem started_ports : portsWatch.Started where
  tracks := ⟨_, rfl, rfl, rfl, rfl, rfl⟩
  allocated := ⟨by decide, by decide⟩
  queues := rfl

def delPortOp (id : Int) : World × Request := ({ addr := 9 }, .delPortid "t" id)

end

end NvmeDem
