import NvmeDem.Lemmas.Queues

/-!
# Queues that are released

A queue asks in the name of a host of its subsystem. When the host leaves the subsystem or gets another NQN, the first queue of the
subsystem is released if it asks in the old name: it passes to another host, or is taken away when there is none (`Release.run`).
Which subsystems have a queue then can be told from the queues before (`ServedAfter`).
-/

namespace NvmeDem

open Keyed

/-- Whether a queue asks in the name of one of some hosts. -/
def serves (hosts : List Host) (dq : CtrlQueue) : Bool := dq.subsys.isSome && hosts.any (fun host => host.nqn == dq.hostnqn)

/-- A host of a subsystem loses its NQN, and the host that follows it. -/
structure Release where
  ptr : Nat
  nqn : String
  heir : Option String

namespace Release

/-- The first queue of the subsystem asks in the name. -/
def due (queues : List CtrlQueue) (r : Release) : Bool := (queues.find? (CtrlQueue.isOf r.ptr)).any (fun dq => dq.hostnqn == r.nqn)

def run (queues : List CtrlQueue) (r : Release) : List CtrlQueue :=
  if r.due queues then
    match r.heir with
    | none => queues.eraseP (CtrlQueue.isOf r.ptr)
    | some nqn => modifyFirst (CtrlQueue.isOf r.ptr) (fun dq => { dq with hostnqn := nqn }) queues
  else queues

/-- The queue that is released is away. -/
def drop (queues : List CtrlQueue) (r : Release) : List CtrlQueue := queues.eraseP (CtrlQueue.isOf r.ptr)

end Release

/-- One of some hosts has a queue that is not released, or follows one that loses it. -/
def ServedAfter (queues : List CtrlQueue) (rs : List Release) (hosts : List Host) : Prop :=
  ((rs.filter (Release.due queues)).foldl Release.drop queues).any (serves hosts) = true ∨
    ∃ r ∈ rs.filter (Release.due queues), ∃ nqn, r.heir = some nqn ∧ hosts.any (fun host => host.nqn == nqn) = true

/-! ## Requests -/

section

variable {s : SubsysRecord} {queues : List CtrlQueue} {nqn : String}

/-- A host leaves a list: the first host that is left follows. -/
theorem resetSubsysDqNqn_eq :
    resetSubsysDqNqn s nqn queues =
      Release.run queues { ptr := s.ptr, nqn := nqn, heir := s.subsys.hostList.head?.map Host.nqn } := by
  unfold resetSubsysDqNqn Release.run Release.due
  cases hfind : queues.find? (CtrlQueue.isOf s.ptr) with
  | none => simp
  | some dq =>
    by_cases hnqn : dq.hostnqn = nqn
    · cases hhosts : s.subsys.hostList <;> simp [hnqn]
    · simp [hnqn]

/-- A host gets another NQN. -/
theorem updateSubsysDq_eq {new : String} (h : s.subsys.hostList ≠ []) :
    updateSubsysDq s nqn new queues = Release.run queues { ptr := s.ptr, nqn := nqn, heir := some new } := by
  unfold updateSubsysDq Release.run Release.due
  cases hfind : queues.find? (CtrlQueue.isOf s.ptr) with
  | none => simp
  | some dq => by_cases hnqn : dq.hostnqn = nqn <;> simp [hnqn, h]

/-- What a host that is deleted takes from a subsystem. -/
def delHostRelease (name : String) (s : SubsysRecord) : Option Release :=
  if s.subsys.isRestricted then
    (s.subsys.hostList.find? (fun host => host.name == name)).map (fun host =>
      { ptr := s.ptr, nqn := host.nqn, heir := (s.subsys.delHost name).hostList.head?.map Host.nqn })
  else none

/-- What a host that is updated takes from a subsystem, and gives back under its new NQN. -/
def updateHostRelease (name : String) (out : HostOut) (s : SubsysRecord) : Option Release :=
  (s.subsys.hostList.find? (fun host => host.name == name)).bind (fun host =>
    if host.nqn = out.nqn then none else some { ptr := s.ptr, nqn := host.nqn, heir := some out.nqn })

variable {name : String} {out : HostOut} {ss : List SubsysRecord}

theorem delHostQueues_one : delHostQueues name queues s = (delHostRelease name s).toList.foldl Release.run queues := by
  unfold delHostQueues delHostRelease
  cases s.subsys.isRestricted with
  | false => rfl
  | true =>
    cases hhost : s.subsys.hostList.find? (fun host => host.name == name) with
    | none => rfl
    | some host => exact resetSubsysDqNqn_eq

theorem hostList_updateHost {host : Host} (hhost : s.subsys.hostList.find? (fun host => host.name == name) = some host) :
    (s.subsys.updateHost name out).hostList ≠ [] := by
  unfold Subsystem.updateHost
  cases hhosts : s.subsys.hostList with
  | nil => simp [hhosts] at hhost
  | cons x xs =>
    simp only [modifyFirst]
    split <;> exact List.cons_ne_nil _ _

theorem updateHostQueues_one :
    updateHostQueues name out queues s = (updateHostRelease name out s).toList.foldl Release.run queues := by
  unfold updateHostQueues updateHostRelease
  cases hhost : s.subsys.hostList.find? (fun host => host.name == name) with
  | none => rfl
  | some host =>
    by_cases hnqn : host.nqn = out.nqn
    · simp only [Option.bind_some, if_pos hnqn]
      rfl
    · simp only [Option.bind_some, if_neg hnqn]
      exact updateSubsysDq_eq (s := { s with subsys := s.subsys.updateHost name out }) (hostList_updateHost hhost)

theorem foldl_releases {f : List CtrlQueue → SubsysRecord → List CtrlQueue} {g : SubsysRecord → Option Release}
    (h : ∀ queues s, f queues s = (g s).toList.foldl Release.run queues) :
    ss.foldl f queues = (ss.filterMap g).foldl Release.run queues := by
  induction ss generalizing queues with
  | nil => rfl
  | cons s ss ih =>
    rw [List.foldl_cons, ih, h]
    cases hg : g s with
    | none => rw [List.filterMap_cons_none hg]; rfl
    | some r => rw [List.filterMap_cons_some hg]; rfl

theorem delHostQueues_eq : ss.foldl (delHostQueues name) queues = (ss.filterMap (delHostRelease name)).foldl Release.run queues :=
  foldl_releases (fun _ _ => delHostQueues_one)

theorem updateHostQueues_eq :
    ss.foldl (updateHostQueues name out) queues = (ss.filterMap (updateHostRelease name out)).foldl Release.run queues :=
  foldl_releases (fun _ _ => updateHostQueues_one)

/-- Subsystems of different addresses release different queues. -/
theorem nodup_releases {g : SubsysRecord → Option Release} (hg : ∀ s r, g s = some r → r.ptr = s.ptr)
    (h : (ss.map SubsysRecord.ptr).Nodup) : ((ss.filterMap g).map Release.ptr).Nodup := by
  have hsub : ((ss.filterMap g).map Release.ptr).Sublist (ss.map SubsysRecord.ptr) := by
    clear h
    induction ss with
    | nil => exact List.Sublist.refl _
    | cons s ss ih =>
      cases hs : g s with
      | none =>
        rw [List.filterMap_cons_none hs]
        exact ih.cons s.ptr
      | some r =>
        rw [List.filterMap_cons_some hs, List.map_cons, List.map_cons, hg s r hs]
        exact ih.cons_cons s.ptr
  exact h.sublist hsub

theorem ptr_delHostRelease {r : Release} (h : delHostRelease name s = some r) : r.ptr = s.ptr := by
  unfold delHostRelease at h
  split at h
  · obtain ⟨host, -, rfl⟩ := Option.map_eq_some_iff.1 h
    rfl
  · cases h

theorem ptr_updateHostRelease {r : Release} (h : updateHostRelease name out s = some r) : r.ptr = s.ptr := by
  obtain ⟨host, -, hr⟩ := Option.bind_eq_some_iff.1 h
  split at hr
  · cases hr
  · rw [← Option.some.inj hr]

end

/-! ## Releases -/

section

variable {r : Release} {rs : List Release} {queues : List CtrlQueue} {ptr : Nat} {nqn : String}

theorem isOf_ne {dq : CtrlQueue} (hne : ptr ≠ r.ptr) (h : dq.isOf r.ptr = true) : dq.isOf ptr = false := by
  have hsub : dq.subsys = some r.ptr := beq_iff_eq.1 h
  rw [CtrlQueue.isOf, hsub]
  exact beq_eq_false_iff_ne.2 (fun heq => hne (Option.some.inj heq).symm)

/-- Queues of other subsystems stay where they are. -/
theorem due_run {r' : Release} (hne : r'.ptr ≠ r.ptr) : r'.due (r.run queues) = r'.due queues := by
  have hfind : (r.run queues).find? (CtrlQueue.isOf r'.ptr) = queues.find? (CtrlQueue.isOf r'.ptr) := by
    unfold Release.run
    split
    · split
      · exact find?_eraseP_of_not (fun dq _ h => isOf_ne hne h)
      · refine find?_modifyFirst_of_not (fun dq _ h => ⟨isOf_ne hne h, ?_⟩)
        exact isOf_ne hne h
    · rfl
  rw [Release.due, Release.due, hfind]

/-- A queue that passes to another host is beside the queues that are not released. -/
theorem any_drop_modifyFirst {p : CtrlQueue → Bool} {g : CtrlQueue → CtrlQueue} {dq : CtrlQueue} (hg : ∀ dq, (g dq).subsys = dq.subsys)
    (hne : ∀ r' ∈ rs, r'.ptr ≠ r.ptr) (hfind : queues.find? (CtrlQueue.isOf r.ptr) = some dq) :
    (rs.foldl Release.drop (modifyFirst (CtrlQueue.isOf r.ptr) g queues)).any p =
      ((rs.foldl Release.drop (r.drop queues)).any p || p (g dq)) := by
  induction rs generalizing queues with
  | nil =>
    rw [Bool.eq_iff_iff, Bool.or_eq_true, List.foldl_nil, List.foldl_nil, List.any_eq_true, List.any_eq_true]
    simp only [mem_modifyFirst_iff hfind, or_and_right, exists_or, exists_eq_left]
    rfl
  | cons r' rs ih =>
    have hr' := hne r' List.mem_cons_self
    have hother : ∀ x ∈ queues, x.isOf r.ptr = true → x.isOf r'.ptr = false ∧ (g x).isOf r'.ptr = false := by
      intro x _ hx
      have hgx : (g x).isOf r.ptr = true := by
        rw [CtrlQueue.isOf, hg]
        exact hx
      exact ⟨isOf_ne hr' hx, isOf_ne hr' hgx⟩
    have hcomm : r'.drop (modifyFirst (CtrlQueue.isOf r.ptr) g queues) = modifyFirst (CtrlQueue.isOf r.ptr) g (r'.drop queues) :=
      eraseP_modifyFirst_comm hother
    have hswap : r'.drop (r.drop queues) = r.drop (r'.drop queues) := by
      refine List.eraseP_comm (fun x hx => ?_)
      by_cases hof : x.isOf r.ptr = true
      · exact Or.inr (by rw [(hother x hx hof).1]; exact Bool.false_ne_true)
      · exact Or.inl hof
    have hfind' : (r'.drop queues).find? (CtrlQueue.isOf r.ptr) = some dq := by
      rw [Release.drop, find?_eraseP_of_not (fun x _ hx => isOf_ne hr'.symm hx)]
      exact hfind
    rw [List.foldl_cons, List.foldl_cons, hcomm, hswap]
    exact ih (fun x hx => hne x (List.mem_cons_of_mem _ hx)) hfind'

/-- Which hosts have a queue after the queues of different subsystems were released. -/
theorem any_runs (hn : (rs.map Release.ptr).Nodup) (hosts : List Host) :
    (rs.foldl Release.run queues).any (serves hosts) = true ↔ ServedAfter queues rs hosts := by
  induction rs generalizing queues with
  | nil => simp [ServedAfter]
  | cons r rs ih =>
    rw [List.map_cons, List.nodup_cons] at hn
    have hne : ∀ r' ∈ rs, r'.ptr ≠ r.ptr := fun r' hr' heq => hn.1 (heq ▸ List.mem_map_of_mem hr')
    have hsame : rs.filter (Release.due (r.run queues)) = rs.filter (Release.due queues) :=
      List.filter_congr (fun r' hr' => due_run (hne r' hr'))
    rw [List.foldl_cons, ih hn.2, ServedAfter, ServedAfter, hsame]
    cases hdue : r.due queues with
    | false =>
      have hrun : r.run queues = queues := by rw [Release.run, hdue, if_neg Bool.false_ne_true]
      rw [List.filter_cons_of_neg (by rw [hdue]; exact Bool.false_ne_true), hrun]
    | true =>
      cases hfind : queues.find? (CtrlQueue.isOf r.ptr) with
      | none => simp [Release.due, hfind] at hdue
      | some dq =>
        rw [List.filter_cons_of_pos hdue, List.foldl_cons, List.exists_mem_cons_iff]
        cases hheir : r.heir with
        | none =>
          have hrun : r.run queues = r.drop queues := by
            simp only [Release.run, hdue, if_true, hheir]
            rfl
          simp only [hrun, reduceCtorEq, false_and, exists_false, false_or]
        | some nqn =>
          have hrun : r.run queues = modifyFirst (CtrlQueue.isOf r.ptr) (fun dq => { dq with hostnqn := nqn }) queues := by
            simp only [Release.run, hdue, if_true, hheir]
          have hsome : dq.subsys = some r.ptr := beq_iff_eq.1 (List.find?_some (p := CtrlQueue.isOf r.ptr) hfind)
          have hserves : serves hosts { dq with hostnqn := nqn } = hosts.any (fun host => host.nqn == nqn) := by
            rw [serves, hsome, Option.isSome_some, Bool.true_and]
          have hsubsys : ∀ dq : CtrlQueue, CtrlQueue.subsys { dq with hostnqn := nqn } = dq.subsys := fun _ => rfl
          rw [hrun, any_drop_modifyFirst hsubsys (fun r' hr' => hne r' (List.mem_filter.1 hr').1) hfind, hserves, Bool.or_eq_true,
            or_assoc]
          simp only [Option.some.injEq, exists_eq_left']

end

end NvmeDem
