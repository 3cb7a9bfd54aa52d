import NvmeDem.Lemmas.Queues
import NvmeDem.Theorems.Replaced

/-!
# Discovery queues stay well formed

No two queues of a target are of one subsystem at one port, and every queue is of a port and a subsystem that the target has. A queue
is made without a look at the port it is made for (`dqExists` passes over it), and the queues that are taken away are the first ones
that match; what a request must meet for that to do no harm is `KeepsQueues`.
-/

namespace NvmeDem

open Keyed

/-- What a queue is for. -/
def CtrlQueue.pair (dq : CtrlQueue) : Option Nat × Nat := (dq.subsys, dq.portid)

def QueueTarget.pairs (t : QueueTarget) : List (Option Nat × Nat) := t.discoveryQueueList.map CtrlQueue.pair

/-- Pairs of subsystems and ports that are on the lists, each once. -/
structure PairsOk (ports subsystems : List Nat) (pairs : List (Option Nat × Nat)) : Prop where
  nodup : pairs.Nodup
  ports : ∀ x ∈ pairs, x.2 ∈ ports
  subsystems : ∀ x ∈ pairs, ∀ ptr, x.1 = some ptr → ptr ∈ subsystems

/-- The queues of a target are well formed. -/
def QueueTarget.WellFormed (t : QueueTarget) : Prop :=
  PairsOk (t.portidList.map Portid.ptr) (t.subsysList.map SubsysRecord.ptr) t.pairs

/-- No two records of a target have one address. -/
structure QueueTarget.Allocated (t : QueueTarget) : Prop where
  ports : (t.portidList.map Portid.ptr).Nodup
  subsystems : (t.subsysList.map SubsysRecord.ptr).Nodup

/-- The errands that keep the queues well formed. The other errands are not of the requests here. -/
def KeepsQueues (w : World) (t : QueueTarget) : Errand → Prop
  | .createSubsys _ => True
  -- A restricted subsystem with hosts that stays restricted has no queue at the port where one is made.
  | .updateSubsys nqn out =>
    ∀ s, t.findSubsys nqn = some s → needsQueue (s.subsys.updateTo out) = true →
      t.sendTo w (.configSubsys t.ptr (s.subsys.updateTo out).nqn) = 0 →
      ∀ p, t.portidList.find? (fun p => registerOps p.type && !dqExists t.discoveryQueueList (s.subsys.updateTo out) p) = some p →
        (some s.ptr, p.ptr) ∉ t.pairs
  -- A subsystem has one queue at most.
  | .delSubsys nqn =>
    ∀ s, t.findSubsys nqn = some s → ∀ dq ∈ t.discoveryQueueList.eraseP (CtrlQueue.isOf s.ptr), dq.subsys ≠ some s.ptr
  -- A port that is set again has no queue but the first, for what queues are made for.
  | .setPortid _ id out =>
    ∀ p, t.findPortid id = some p → registerOps out.type = true →
      if t.mgmtMode = .localMgmt then (none, p.ptr) ∉ t.pairs
      else t.sendTo w (.configPortid t.ptr out.portid) = 0 →
        (none, p.ptr) ∉ (t.discoveryQueueList.eraseP (fun dq => dq.portid == p.ptr)).map CtrlQueue.pair ∧
        ∀ s ∈ t.subsysList, needsQueue s.subsys = true → dqExists t.discoveryQueueList s.subsys p = false →
          (some s.ptr, p.ptr) ∉ (t.discoveryQueueList.eraseP (fun dq => dq.portid == p.ptr)).map CtrlQueue.pair
  | .delPortid _ => True
  | .linkHost _ _ => True
  | .unlinkHost _ _ => True
  | .updateHost _ _ => True
  | .delHost _ _ => True
  | .delTarget => False

/-! ## Pairs -/

section

variable {ports subsystems : List Nat} {pairs pairs' : List (Option Nat × Nat)}

theorem PairsOk.sublist (h : PairsOk ports subsystems pairs) (hsub : pairs'.Sublist pairs) : PairsOk ports subsystems pairs' where
  nodup := h.nodup.sublist hsub
  ports := fun x hx => h.ports x (hsub.subset hx)
  subsystems := fun x hx => h.subsystems x (hsub.subset hx)

theorem PairsOk.mono {ports' subsystems' : List Nat} (h : PairsOk ports subsystems pairs) (hports : ports ⊆ ports')
    (hsubs : subsystems ⊆ subsystems') : PairsOk ports' subsystems' pairs where
  nodup := h.nodup
  ports := fun x hx => hports (h.ports x hx)
  subsystems := fun x hx ptr hptr => hsubs (h.subsystems x hx ptr hptr)

theorem PairsOk.concat (h : PairsOk ports subsystems pairs) {x : Option Nat × Nat} (hx : x ∉ pairs) (hport : x.2 ∈ ports)
    (hsub : ∀ ptr, x.1 = some ptr → ptr ∈ subsystems) : PairsOk ports subsystems (pairs ++ [x]) where
  nodup := by
    rw [List.nodup_append]
    refine ⟨h.nodup, List.nodup_singleton x, fun y hy z hz heq => hx ?_⟩
    rw [← List.mem_singleton.1 hz, ← heq]
    exact hy
  ports := by
    intro y hy
    rcases List.mem_append.1 hy with hy | hy
    · exact h.ports y hy
    · rw [List.mem_singleton.1 hy]
      exact hport
  subsystems := by
    intro y hy
    rcases List.mem_append.1 hy with hy | hy
    · exact h.subsystems y hy
    · rw [List.mem_singleton.1 hy]
      exact hsub

end

/-! ## Queues -/

section

variable {sharedNqn : String} {s : SubsysRecord} {portid : Portid} {portidList : List Portid} {subsysList : List SubsysRecord}
  {queues : List CtrlQueue} {ports subsystems : List Nat} {nqn : String}

theorem pairs_modifyFirst (p : CtrlQueue → Bool) (nqn : String) :
    (modifyFirst p (fun dq => { dq with hostnqn := nqn }) queues).map CtrlQueue.pair = queues.map CtrlQueue.pair := by
  have hsame : ∀ dq : CtrlQueue, CtrlQueue.pair { dq with hostnqn := nqn } = dq.pair := fun _ => rfl
  exact map_modifyFirst_same hsame queues

theorem sublist_delSubsysDq (ptr : Nat) : ((delSubsysDq ptr queues).map CtrlQueue.pair).Sublist (queues.map CtrlQueue.pair) :=
  List.Sublist.map _ List.eraseP_sublist

theorem pairs_updateSubsysDq (old new : String) :
    (updateSubsysDq s old new queues).map CtrlQueue.pair = queues.map CtrlQueue.pair := by
  unfold updateSubsysDq
  split
  · rfl
  · split
    · rfl
    · split
      · rfl
      · exact pairs_modifyFirst _ new

theorem sublist_resetSubsysDqNqn (nqn : String) :
    ((resetSubsysDqNqn s nqn queues).map CtrlQueue.pair).Sublist (queues.map CtrlQueue.pair) := by
  unfold resetSubsysDqNqn
  split
  · exact List.Sublist.refl _
  · split
    · exact List.Sublist.refl _
    · split
      · exact List.Sublist.map _ List.eraseP_sublist
      · rw [pairs_modifyFirst]

theorem pairs_updateHostQueues (name : String) (out : HostOut) :
    (subsysList.foldl (updateHostQueues name out) queues).map CtrlQueue.pair = queues.map CtrlQueue.pair := by
  induction subsysList generalizing queues with
  | nil => rfl
  | cons s ss ih =>
    rw [List.foldl_cons, ih]
    unfold updateHostQueues
    split
    · rfl
    · split
      · rfl
      · exact pairs_updateSubsysDq _ _

theorem sublist_delHostQueues (name : String) :
    ((subsysList.foldl (delHostQueues name) queues).map CtrlQueue.pair).Sublist (queues.map CtrlQueue.pair) := by
  induction subsysList generalizing queues with
  | nil => exact List.Sublist.refl _
  | cons s ss ih =>
    rw [List.foldl_cons]
    refine ih.trans ?_
    unfold delHostQueues
    split
    · split
      · exact List.Sublist.refl _
      · exact sublist_resetSubsysDqNqn _
    · exact List.Sublist.refl _

/-- A subsystem gets its queue. -/
theorem PairsOk.createSubsysQueues (h : PairsOk (portidList.map Portid.ptr) subsystems (queues.map CtrlQueue.pair))
    (hports : (portidList.map Portid.ptr).Nodup) (hs : s.ptr ∈ subsystems)
    (hfree : needsQueue s.subsys = true →
      ∀ p, portidList.find? (fun p => registerOps p.type && !dqExists queues s.subsys p) = some p →
        (some s.ptr, p.ptr) ∉ queues.map CtrlQueue.pair) :
    PairsOk (portidList.map Portid.ptr) subsystems ((createSubsysQueues sharedNqn portidList s queues).map CtrlQueue.pair) := by
  cases hneeds : needsQueue s.subsys with
  | false =>
    rw [createSubsysQueues_unneeded hneeds]
    exact h
  | true =>
    rw [createSubsysQueues_eq hports hneeds]
    cases hfind : portidList.find? (fun p => registerOps p.type && !dqExists queues s.subsys p) with
    | none =>
      rw [Option.map_none, Option.toList_none, List.append_nil]
      exact h
    | some p =>
      rw [Option.map_some, Option.toList_some, List.map_append]
      refine h.concat (hfree hneeds p hfind) (List.mem_map_of_mem (List.mem_of_find?_eq_some hfind)) ?_
      rintro ptr hptr
      rw [← Option.some.inj hptr]
      exact hs

theorem PairsOk.create_none (sharedNqn : String) (h : PairsOk ports subsystems (queues.map CtrlQueue.pair)) (hport : portid.ptr ∈ ports)
    (hfree : registerOps portid.type = true → (none, portid.ptr) ∉ queues.map CtrlQueue.pair) :
    PairsOk ports subsystems ((createDiscoveryQueue sharedNqn none portid queues).map CtrlQueue.pair) := by
  rw [createDiscoveryQueue_none]
  split
  · rename_i hops
    rw [List.map_append]
    exact h.concat (hfree hops) hport nofun
  · exact h

/-- What is made at a port is of this port. -/
theorem mem_pairs_create {subsys : Option SubsysRecord} {x : Option Nat × Nat}
    (hx : x ∈ (createDiscoveryQueue sharedNqn subsys portid queues).map CtrlQueue.pair) :
    x ∈ queues.map CtrlQueue.pair ∨ x = (subsys.map SubsysRecord.ptr, portid.ptr) := by
  have hconcat : ∀ new : CtrlQueue, x ∈ (queues ++ [new]).map CtrlQueue.pair → x ∈ queues.map CtrlQueue.pair ∨ x = new.pair := by
    intro new hnew
    rw [List.map_append] at hnew
    exact (List.mem_append.1 hnew).imp id List.mem_singleton.1
  cases subsys with
  | none =>
    rw [createDiscoveryQueue_none] at hx
    split at hx
    · exact hconcat _ hx
    · exact Or.inl hx
  | some s =>
    rw [createDiscoveryQueue_some] at hx
    split at hx
    · exact hconcat _ hx
    · exact Or.inl hx

theorem mem_pairs_initDiscoveryQueue {x : Option Nat × Nat}
    (hx : x ∈ (initDiscoveryQueue sharedNqn subsysList queues portid).map CtrlQueue.pair) :
    x ∈ queues.map CtrlQueue.pair ∨ x.2 = portid.ptr := by
  unfold initDiscoveryQueue at hx
  generalize hfirst : createDiscoveryQueue sharedNqn none portid queues = first at hx
  have hloop : x ∈ first.map CtrlQueue.pair ∨ x.2 = portid.ptr := by
    clear hfirst
    induction subsysList generalizing first with
    | nil => exact Or.inl hx
    | cons s ss ih =>
      rcases ih _ hx with h | h
      · exact (mem_pairs_create h).imp id (fun heq => by rw [heq])
      · exact Or.inr h
  rcases hloop with h | h
  · rw [← hfirst] at h
    exact (mem_pairs_create h).imp id (fun heq => by rw [heq])
  · exact Or.inr h

/-- The queues of a port are made for subsystems that it has none for. The queues that were made at the port before do not count. -/
theorem PairsOk.createQueues {new : List CtrlQueue} (sharedNqn : String)
    (h : PairsOk ports subsystems ((queues ++ new).map CtrlQueue.pair)) (hport : portid.ptr ∈ ports)
    (hsubs : (subsysList.map SubsysRecord.ptr).Nodup) (hmem : ∀ s ∈ subsysList, s.ptr ∈ subsystems)
    (hnew : ∀ dq ∈ new, dq.portid = portid.ptr)
    (hfree : registerOps portid.type = true → ∀ s ∈ subsysList, needsQueue s.subsys = true →
      dqExists queues s.subsys portid = false → (some s.ptr, portid.ptr) ∉ (queues ++ new).map CtrlQueue.pair) :
    PairsOk ports subsystems ((subsysList.foldl (fun queues subsys =>
      createDiscoveryQueue sharedNqn (some subsys) portid queues) (queues ++ new)).map CtrlQueue.pair) := by
  induction subsysList generalizing new with
  | nil => exact h
  | cons s ss ih =>
    rw [List.map_cons, List.nodup_cons] at hsubs
    have hrest : ∀ s ∈ ss, s.ptr ∈ subsystems := fun s hs => hmem s (List.mem_cons_of_mem _ hs)
    rw [List.foldl_cons, createDiscoveryQueue_some, dqExists_append hnew]
    split
    · rename_i hmade
      simp only [Bool.and_eq_true, Bool.not_eq_true'] at hmade
      obtain ⟨hneeds, hops, hexists⟩ := hmade
      have hs := hfree hops s List.mem_cons_self hneeds hexists
      rw [List.append_assoc]
      refine ih ?_ hsubs.2 hrest ?_ ?_
      · rw [← List.append_assoc, List.map_append]
        refine h.concat hs hport (fun ptr hptr => ?_)
        rw [← Option.some.inj hptr]
        exact hmem s List.mem_cons_self
      · intro dq hdq
        rcases List.mem_append.1 hdq with hdq | hdq
        · exact hnew dq hdq
        · rw [List.mem_singleton.1 hdq]
          rfl
      · intro _ s' hs' hneeds' hexists' hin
        rw [← List.append_assoc, List.map_append] at hin
        rcases List.mem_append.1 hin with hin | hin
        · exact hfree hops s' (List.mem_cons_of_mem _ hs') hneeds' hexists' hin
        · have hptr : s'.ptr = s.ptr := by
            have hpair := List.mem_singleton.1 hin
            exact Option.some.inj (congrArg Prod.fst hpair)
          exact hsubs.1 (hptr ▸ List.mem_map_of_mem hs')
    · exact ih h hsubs.2 hrest hnew (fun hops s hs => hfree hops s (List.mem_cons_of_mem _ hs))

/-- The queues of a port are made, when it has none of those that are made. -/
theorem PairsOk.initDiscoveryQueue (sharedNqn : String) (h : PairsOk ports subsystems (queues.map CtrlQueue.pair))
    (hport : portid.ptr ∈ ports) (hsubs : (subsysList.map SubsysRecord.ptr).Nodup) (hmem : ∀ s ∈ subsysList, s.ptr ∈ subsystems)
    (hnone : registerOps portid.type = true → (none, portid.ptr) ∉ queues.map CtrlQueue.pair)
    (hfree : registerOps portid.type = true → ∀ s ∈ subsysList, needsQueue s.subsys = true →
      dqExists queues s.subsys portid = false → (some s.ptr, portid.ptr) ∉ queues.map CtrlQueue.pair) :
    PairsOk ports subsystems ((initDiscoveryQueue sharedNqn subsysList queues portid).map CtrlQueue.pair) := by
  unfold NvmeDem.initDiscoveryQueue
  have hfirst := h.create_none sharedNqn hport hnone
  rw [createDiscoveryQueue_none] at hfirst ⊢
  split at hfirst
  · rename_i hops
    rw [if_pos hops]
    refine hfirst.createQueues sharedNqn hport hsubs hmem (fun dq hdq => ?_) (fun _ s hs hneeds hexists hin => ?_)
    · rw [List.mem_singleton.1 hdq]
    · rw [List.map_append] at hin
      rcases List.mem_append.1 hin with hin | hin
      · exact hfree hops s hs hneeds hexists hin
      · cases List.mem_singleton.1 hin
  · rename_i hops
    rw [if_neg hops]
    have hempty : queues = queues ++ [] := (List.append_nil queues).symm
    rw [hempty] at hfirst ⊢
    exact hfirst.createQueues sharedNqn hport hsubs hmem nofun (fun hops' => absurd hops' hops)

/-! ## Errands -/

variable {t : QueueTarget} {w : World} {e : Errand}

theorem PairsOk.setSubsysQueues (h : PairsOk (t.portidList.map Portid.ptr) subsystems t.pairs)
    (hports : (t.portidList.map Portid.ptr).Nodup) (hs : s.ptr ∈ subsystems)
    (hfree : needsQueue s.subsys = true → t.sendTo w (.configSubsys t.ptr s.subsys.nqn) = 0 →
      ∀ p, t.portidList.find? (fun p => registerOps p.type && !dqExists t.discoveryQueueList s.subsys p) = some p →
        (some s.ptr, p.ptr) ∉ t.pairs) :
    PairsOk (t.portidList.map Portid.ptr) subsystems ((setSubsysQueues w t s).map CtrlQueue.pair) := by
  cases hr : s.subsys.isRestricted with
  | true =>
    rw [setSubsysQueues_restricted hr]
    split
    · rename_i hsent
      exact h.createSubsysQueues hports hs (fun hneeds => hfree hneeds hsent)
    · exact h
  | false =>
    rw [setSubsysQueues_open hr]
    exact h.sublist (sublist_delSubsysDq s.ptr)

theorem ptr_onSubsys (t : QueueTarget) (nqn : String) (f : Subsystem → Subsystem) :
    (t.onSubsys nqn f).map SubsysRecord.ptr = t.subsysList.map SubsysRecord.ptr := by
  have hsame : ∀ s : SubsysRecord, SubsysRecord.ptr { s with subsys := f s.subsys } = s.ptr := fun _ => rfl
  exact map_modifyFirst_same hsame _

theorem ptr_mapSubsys (t : QueueTarget) (f : Subsystem → Subsystem) :
    (t.subsysList.map (fun s => { s with subsys := f s.subsys } : SubsysRecord → SubsysRecord)).map SubsysRecord.ptr =
      t.subsysList.map SubsysRecord.ptr := by
  rw [List.map_map]
  rfl

theorem ptr_modifyPortid (id : Int) (out : PortArg) :
    (modifyFirst (fun p => p.portid == id) (Portid.updateTo out) portidList).map Portid.ptr = portidList.map Portid.ptr := by
  have hsame : ∀ p : Portid, (p.updateTo out).ptr = p.ptr := fun _ => rfl
  exact map_modifyFirst_same hsame _

/-- What is allocated has addresses of its own. -/
theorem QueueTarget.Allocated.step (h : t.Allocated) (hport : w.addr ∉ t.portidList.map Portid.ptr)
    (hsub : w.addr ∉ t.subsysList.map SubsysRecord.ptr) : (t.step w e).Allocated := by
  have hfresh : ∀ {l : List Nat}, l.Nodup → w.addr ∉ l → (l ++ [w.addr]).Nodup := by
    intro l hl hw
    rw [List.nodup_append]
    exact ⟨hl, List.nodup_singleton _, fun a ha b hb heq => hw (List.mem_singleton.1 hb ▸ heq ▸ ha)⟩
  cases e with
  | createSubsys out =>
    refine ⟨h.ports, ?_⟩
    simp only [QueueTarget.step, List.map_append]
    exact hfresh h.subsystems hsub
  | updateSubsys nqn out =>
    simp only [QueueTarget.step]
    split
    · exact h
    · exact ⟨h.ports, by rw [ptr_onSubsys]; exact h.subsystems⟩
  | delSubsys nqn =>
    simp only [QueueTarget.step]
    split
    · exact h
    · exact ⟨h.ports, h.subsystems.sublist (List.Sublist.map _ List.eraseP_sublist)⟩
  | setPortid w' id out =>
    simp only [QueueTarget.step]
    split
    · refine ⟨?_, h.subsystems⟩
      rw [List.map_append]
      exact hfresh h.ports hport
    · exact ⟨by rw [ptr_modifyPortid]; exact h.ports, h.subsystems⟩
  | delPortid id =>
    simp only [QueueTarget.step]
    split
    · exact h
    · exact ⟨h.ports.sublist (List.Sublist.map _ List.eraseP_sublist), h.subsystems⟩
  | linkHost nqn host =>
    simp only [QueueTarget.step]
    split
    · exact h
    · exact ⟨h.ports, by rw [ptr_onSubsys]; exact h.subsystems⟩
  | unlinkHost nqn name =>
    simp only [QueueTarget.step]
    split
    · exact h
    · split
      · exact h
      · exact ⟨h.ports, by rw [ptr_onSubsys]; exact h.subsystems⟩
  | updateHost name out => exact ⟨h.ports, by rw [QueueTarget.step, ptr_mapSubsys]; exact h.subsystems⟩
  | delHost name hostnqn => exact ⟨h.ports, by rw [QueueTarget.step, ptr_mapSubsys]; exact h.subsystems⟩
  | delTarget => exact h

theorem PairsOk.setPortidQueues (w : World) (portid : Portid) (h : PairsOk ports (t.subsysList.map SubsysRecord.ptr) t.pairs) (hport : portid.ptr ∈ ports)
    (hsubs : (t.subsysList.map SubsysRecord.ptr).Nodup)
    (hfree : registerOps portid.type = true →
      if t.mgmtMode = .localMgmt then (none, portid.ptr) ∉ t.pairs
      else t.sendTo w (.configPortid t.ptr portid.portid) = 0 →
        (none, portid.ptr) ∉ (t.discoveryQueueList.eraseP (fun dq => dq.portid == portid.ptr)).map CtrlQueue.pair ∧
        ∀ s ∈ t.subsysList, needsQueue s.subsys = true → dqExists t.discoveryQueueList s.subsys portid = false →
          (some s.ptr, portid.ptr) ∉ (t.discoveryQueueList.eraseP (fun dq => dq.portid == portid.ptr)).map CtrlQueue.pair) :
    PairsOk ports (t.subsysList.map SubsysRecord.ptr) ((setPortidQueues w t portid).map CtrlQueue.pair) := by
  by_cases hmode : t.mgmtMode = .localMgmt
  · have hqueues : NvmeDem.setPortidQueues w t portid = createDiscoveryQueue t.sharedNqn none portid t.discoveryQueueList := by
      simp only [NvmeDem.setPortidQueues, hmode]
    rw [hqueues]
    refine h.create_none t.sharedNqn hport (fun hops => ?_)
    have hnone := hfree hops
    rwa [if_pos hmode] at hnone
  · have hqueues : NvmeDem.setPortidQueues w t portid =
        if t.sendTo w (.configPortid t.ptr portid.portid) = 0 then
          NvmeDem.initDiscoveryQueue t.sharedNqn t.subsysList (delPortidDq portid t.discoveryQueueList) portid
        else t.discoveryQueueList := by
      unfold NvmeDem.setPortidQueues
      split
      · exact absurd ‹_› hmode
      · rfl
    rw [hqueues]
    split
    · rename_i hsent
      have hrest : PairsOk ports (t.subsysList.map SubsysRecord.ptr) ((delPortidDq portid t.discoveryQueueList).map CtrlQueue.pair) :=
        h.sublist (List.Sublist.map _ List.eraseP_sublist)
      refine hrest.initDiscoveryQueue t.sharedNqn hport hsubs (fun s hs => List.mem_map_of_mem hs) (fun hops => ?_)
        (fun hops s hs hneeds hexists => ?_)
      · have hkeeps := hfree hops
        rw [if_neg hmode] at hkeeps
        exact (hkeeps hsent).1
      · have hkeeps := hfree hops
        rw [if_neg hmode] at hkeeps
        rw [delPortidDq, dqExists_eraseP _ (fun dq hdq => beq_iff_eq.1 hdq)] at hexists
        exact (hkeeps hsent).2 s hs hneeds hexists
    · exact h

/-- A request that meets its condition keeps the queues well formed. -/
theorem QueueTarget.WellFormed.step (h : t.WellFormed) (ha : t.Allocated) (hport : w.addr ∉ t.portidList.map Portid.ptr)
    (hkeeps : KeepsQueues w t e) : (t.step w e).WellFormed := by
  cases e with
  | createSubsys out =>
    have hmono : PairsOk (t.portidList.map Portid.ptr) (t.subsysList.map SubsysRecord.ptr ++ [w.addr]) t.pairs :=
      h.mono (List.Subset.refl _) (List.subset_append_left _ _)
    have hqueues := hmono.setSubsysQueues (s := { ptr := w.addr, subsys := { nqn := out.nqn, access := out.access } }) (w := w) ha.ports
      (List.mem_append_right _ List.mem_cons_self) (fun hneeds => by
        simp only [needsQueue, List.isEmpty_nil, Bool.not_true, Bool.and_false, Bool.false_eq_true] at hneeds)
    simp only [QueueTarget.WellFormed, QueueTarget.pairs, QueueTarget.step, List.map_append, List.map_cons, List.map_nil]
    exact hqueues
  | updateSubsys nqn out =>
    cases hfound : t.findSubsys nqn with
    | none =>
      simp only [QueueTarget.step, hfound]
      exact h
    | some s =>
      have hs : s.ptr ∈ t.subsysList.map SubsysRecord.ptr := List.mem_map_of_mem (List.mem_of_find?_eq_some hfound)
      have hqueues := PairsOk.setSubsysQueues (s := { s with subsys := s.subsys.updateTo out }) (w := w) h ha.ports hs
        (hkeeps s hfound)
      simp only [QueueTarget.WellFormed, QueueTarget.pairs, QueueTarget.step, hfound, ptr_onSubsys]
      exact hqueues
  | delSubsys nqn =>
    cases hfound : t.findSubsys nqn with
    | none =>
      simp only [QueueTarget.step, hfound]
      exact h
    | some s =>
      have hrest := PairsOk.sublist h (sublist_delSubsysDq s.ptr)
      simp only [QueueTarget.WellFormed, QueueTarget.pairs, QueueTarget.step, hfound]
      refine ⟨hrest.nodup, hrest.ports, ?_⟩
      rintro x hx ptr hptr
      obtain ⟨dq, hdq, rfl⟩ := List.mem_map.1 hx
      obtain ⟨r, hr, rfl⟩ := List.mem_map.1 (hrest.subsystems _ hx ptr hptr)
      rcases (mem_iff_of_find hfound).1 hr with hr | rfl
      · exact List.mem_map_of_mem hr
      · exact absurd hptr (hkeeps _ hfound dq hdq)
  | setPortid w' id out =>
    cases hfound : t.findPortid id with
    | none =>
      have hmono : PairsOk (t.portidList.map Portid.ptr ++ [w.addr]) (t.subsysList.map SubsysRecord.ptr) t.pairs :=
        h.mono (List.subset_append_left _ _) (List.Subset.refl _)
      -- The port is new, and no queue is of it.
      have hfresh : ∀ x, (x, w.addr) ∉ t.pairs := fun x hx => hport (h.ports _ hx)
      have hrest : ∀ x, (x, w.addr) ∉ (t.discoveryQueueList.eraseP (fun dq => dq.portid == w.addr)).map CtrlQueue.pair :=
        fun x hx => hfresh x ((List.Sublist.map _ List.eraseP_sublist).subset hx)
      have hqueues := hmono.setPortidQueues w (Portid.updateTo out { ptr := w.addr })
        (List.mem_append_right _ List.mem_cons_self) ha.subsystems (fun _ => by
          split
          · exact hfresh none
          · exact fun _ => ⟨hrest none, fun s _ _ _ => hrest _⟩)
      simp only [QueueTarget.WellFormed, QueueTarget.pairs, QueueTarget.step, hfound, List.map_append, List.map_cons, List.map_nil]
      exact hqueues
    | some p =>
      have hp : p.ptr ∈ t.portidList.map Portid.ptr := List.mem_map_of_mem (List.mem_of_find?_eq_some hfound)
      have hqueues := PairsOk.setPortidQueues w (p.updateTo out) h hp ha.subsystems (hkeeps p hfound)
      simp only [QueueTarget.WellFormed, QueueTarget.pairs, QueueTarget.step, hfound, ptr_modifyPortid]
      exact hqueues
  | delPortid id =>
    cases hfound : t.findPortid id with
    | none =>
      simp only [QueueTarget.step, hfound]
      exact h
    | some p =>
      have hrest := PairsOk.sublist h (List.Sublist.map CtrlQueue.pair
        (List.filter_sublist (p := fun dq : CtrlQueue => dq.portid != p.ptr) (l := t.discoveryQueueList)))
      simp only [QueueTarget.WellFormed, QueueTarget.pairs, QueueTarget.step, hfound]
      refine ⟨hrest.nodup, ?_, hrest.subsystems⟩
      rintro x hx
      obtain ⟨dq, hdq, rfl⟩ := List.mem_map.1 hx
      obtain ⟨q, hq, hptr⟩ := List.mem_map.1 (hrest.ports _ hx)
      rcases (mem_iff_of_find hfound).1 hq with hq | rfl
      · exact List.mem_map.2 ⟨q, hq, hptr⟩
      · have hne := (List.mem_filter.1 hdq).2
        exact absurd hptr.symm (bne_iff_ne.1 hne)
  | linkHost nqn host =>
    cases hfound : t.findSubsys nqn with
    | none =>
      simp only [QueueTarget.step, hfound]
      exact h
    | some s =>
      have hs : s.ptr ∈ t.subsysList.map SubsysRecord.ptr := List.mem_map_of_mem (List.mem_of_find?_eq_some hfound)
      simp only [QueueTarget.WellFormed, QueueTarget.pairs, QueueTarget.step, hfound, ptr_onSubsys]
      split
      · unfold resetSubsysDq
        split
        · rw [pairs_modifyFirst]
          exact h
        · rename_i hnone
          refine PairsOk.createSubsysQueues h ha.ports hs (fun _ p _ hin => hnone ?_)
          obtain ⟨dq, hdq, hpair⟩ := List.mem_map.1 hin
          exact List.any_eq_true.2 ⟨dq, hdq, beq_iff_eq.2 (congrArg Prod.fst hpair)⟩
      · exact h
  | unlinkHost nqn name =>
    simp only [QueueTarget.step]
    split
    · exact h
    · split
      · exact h
      · simp only [QueueTarget.WellFormed, QueueTarget.pairs, ptr_onSubsys]
        exact PairsOk.sublist h (sublist_resetSubsysDqNqn _)
  | updateHost name out =>
    simp only [QueueTarget.WellFormed, QueueTarget.pairs, QueueTarget.step, ptr_mapSubsys, pairs_updateHostQueues]
    exact h
  | delHost name hostnqn =>
    simp only [QueueTarget.WellFormed, QueueTarget.pairs, QueueTarget.step, ptr_mapSubsys]
    exact PairsOk.sublist h (sublist_delHostQueues name)
  | delTarget => exact h

/-! ## The start -/

/-- The queues of ports that have none are made. -/
theorem PairsOk.initQueues (sharedNqn : String) (h : PairsOk ports subsystems (queues.map CtrlQueue.pair))
    (hports : (portidList.map Portid.ptr).Nodup) (hmem : ∀ p ∈ portidList, p.ptr ∈ ports)
    (hsubs : (subsysList.map SubsysRecord.ptr).Nodup) (hsubmem : ∀ s ∈ subsysList, s.ptr ∈ subsystems)
    (hfree : ∀ x ∈ queues.map CtrlQueue.pair, ∀ p ∈ portidList, x.2 ≠ p.ptr) :
    PairsOk ports subsystems ((portidList.foldl (NvmeDem.initDiscoveryQueue sharedNqn subsysList) queues).map CtrlQueue.pair) := by
  induction portidList generalizing queues with
  | nil => exact h
  | cons p ps ih =>
    rw [List.map_cons, List.nodup_cons] at hports
    have hp : ∀ x, (x, p.ptr) ∉ queues.map CtrlQueue.pair := fun x hx => hfree _ hx p List.mem_cons_self rfl
    refine ih (h.initDiscoveryQueue sharedNqn (hmem p List.mem_cons_self) hsubs hsubmem (fun _ => hp _) (fun _ _ _ _ _ => hp _))
      hports.2 (fun q hq => hmem q (List.mem_cons_of_mem _ hq)) ?_
    intro x hx q hq heq
    rcases mem_pairs_initDiscoveryQueue hx with hx | hx
    · exact hfree x hx q (List.mem_cons_of_mem _ hq) heq
    · exact hports.1 ((hx.symm.trans heq) ▸ List.mem_map_of_mem hq)

theorem QueueTarget.wellFormed_initQueues (h : t.Allocated) : t.initQueues.WellFormed :=
  PairsOk.initQueues t.sharedNqn ⟨List.nodup_nil, nofun, nofun⟩ h.ports (fun _ hp => List.mem_map_of_mem hp) h.subsystems
    (fun _ hs => List.mem_map_of_mem hs) nofun

end

/-! ## Runs -/

/-- The daemon, and a target of it with its queues. -/
structure QueueWatch where
  dem : Daemon
  name : String
  queued : QueueTarget

namespace QueueWatch

/-- The target has the records that the daemon has. -/
def Tracks (s : QueueWatch) : Prop := ∃ target, findTarget s.dem.lists s.name = some target ∧ s.queued.Tracks target

/-- The daemon has started the queues of the target. -/
structure Started (s : QueueWatch) : Prop where
  tracks : s.Tracks
  allocated : s.queued.Allocated
  queues : s.queued = s.queued.initQueues

end QueueWatch

/-- A request that returns, with what its errand does to the target. What it allocates for a subsystem is not a subsystem already. -/
def queueStep (J : JsonLib) (op : World × Request) (s s' : QueueWatch) : Prop :=
  demStep J op s.dem s'.dem ∧ op.1.addr ∉ s.queued.subsysList.map SubsysRecord.ptr ∧ s'.name = s.name ∧
    s'.queued = ((op.2.errand J op.1 s.dem.root s.name).map (s.queued.step op.1)).getD s.queued

/-- A request whose errand at the target meets a condition. -/
def Tended (J : JsonLib) (keeps : World → QueueTarget → Errand → Prop) (s : QueueWatch) (op : World × Request) : Prop :=
  op.2.tells = true ∧ ∀ e, op.2.errand J op.1 s.dem.root s.name = some e → keeps op.1 s.queued e

section

variable {J : JsonLib} {s₀ s s' : QueueWatch} {op : World × Request}

/-- The records of the target stay those of the daemon. -/
theorem QueueWatch.Tracks.step (h : s.Tracks) (hs : queueStep J op s s') (htells : op.2.tells = true)
    (hstay : op.2.errand J op.1 s.dem.root s.name ≠ some .delTarget) : s'.Tracks := by
  obtain ⟨target, hfind, htracks⟩ := h
  obtain ⟨⟨-, a, hr, hdem⟩, -, hname, hqueued⟩ := hs
  obtain ⟨target', hfind', hsame⟩ := now_of_run hfind hr htells hstay
  refine ⟨target', by rw [← hdem, hname]; exact hfind', ?_⟩
  rw [hqueued]
  cases he : op.2.errand J op.1 s.dem.root s.name with
  | none =>
    rw [he] at hsame
    exact htracks.congr hsame.symm
  | some e =>
    rw [he] at hsame
    refine (htracks.step ?_).congr hsame.symm
    rintro w' id out rfl
    exact world_of_setPortid he

theorem fresh_port (h : s.Tracks) (hs : queueStep J op s s') : op.1.addr ∉ s.queued.portidList.map Portid.ptr := by
  obtain ⟨target, hfind, htracks⟩ := h
  rw [htracks.portidList]
  exact fun hmem => hs.1.1 (List.mem_append_right _ (List.mem_flatMap.2 ⟨target, List.mem_of_find?_eq_some hfind, hmem⟩))

/-- The rule for runs: what every errand that meets its condition keeps of a target and its queues. -/
theorem Run.queues {keeps : World → QueueTarget → Errand → Prop} {P : QueueTarget → Prop}
    (hrun : Run (queueStep J) (Tended J keeps) s₀ s) (hstart : s₀.Started) (h₀ : P s₀.queued)
    (hstep : ∀ w t e, t.Allocated → w.addr ∉ t.portidList.map Portid.ptr → P t → keeps w t e → P (t.step w e))
    (hstay : ∀ w t, ¬keeps w t .delTarget) : s.Tracks ∧ s.queued.Allocated ∧ P s.queued := by
  refine Run.invariant (I := fun s => s.Tracks ∧ s.queued.Allocated ∧ P s.queued) hrun
    ⟨hstart.tracks, hstart.allocated, h₀⟩ ?_
  rintro s op s' ⟨htracks, hallocated, hP⟩ ⟨htells, hkeeps⟩ hs
  have hfresh := fresh_port htracks hs
  have hno : op.2.errand J op.1 s.dem.root s.name ≠ some .delTarget := fun he => hstay _ _ (hkeeps _ he)
  refine ⟨htracks.step hs htells hno, ?_⟩
  rw [hs.2.2.2]
  cases he : op.2.errand J op.1 s.dem.root s.name with
  | none => exact ⟨hallocated, hP⟩
  | some e => exact ⟨hallocated.step hfresh hs.2.1, hstep _ _ _ hallocated hfresh hP (hkeeps e he)⟩

/-- In every run of requests that keeps to the conditions the queues of a target are well formed. -/
theorem queues_well_formed (hrun : Run (queueStep J) (Tended J KeepsQueues) s₀ s) (hstart : s₀.Started) :
    s.Tracks ∧ s.queued.WellFormed := by
  have hqueued : s₀.queued.WellFormed := by
    rw [hstart.queues]
    exact QueueTarget.wellFormed_initQueues hstart.allocated
  obtain ⟨htracks, -, hwell⟩ := Run.queues hrun hstart hqueued (fun w t e ha hport h hkeeps => h.step ha hport hkeeps) (fun _ _ h => h)
  exact ⟨htracks, hwell⟩

end

theorem exists_queueStep {J : JsonLib} {op : World × Request} {s : QueueWatch} {a : Answer} {e : Errand} (hfresh : op.1.Fresh s.dem)
    (hsub : op.1.addr ∉ s.queued.subsysList.map SubsysRecord.ptr) (hr : op.2.run J op.1 s.dem = .ok a)
    (he : op.2.errand J op.1 s.dem.root s.name = some e) : ∃ s', queueStep J op s s' ∧ s'.queued = s.queued.step op.1 e :=
  ⟨{ dem := a.dem, name := s.name, queued := s.queued.step op.1 e }, ⟨⟨hfresh, a, hr, rfl⟩, hsub, rfl, by rw [he]; rfl⟩, rfl⟩

/-! A target with a port and a restricted subsystem, with and without a host. -/

section

open Push

def aclQueues (hosts : List Host) : QueueTarget where
  ptr := 0
  mgmtMode := .inBandMgmt
  sharedNqn := "nqn.shared"
  portidList := [demoPort]
  subsysList := [{ ptr := 5, subsys := { nqn := "nqn.subsys", hostList := hosts } }]
  discoveryQueueList := []

def aclQueueWatch (hosts : List Host) : QueueWatch where
  dem := (aclWatch hosts).dem
  name := "t"
  queued := (aclQueues hosts).initQueues

theorem started_acl (hosts : List Host) : (aclQueueWatch hosts).Started where
  tracks := ⟨aclTarget hosts, rfl, rfl, rfl, rfl, rfl⟩
  allocated := ⟨List.nodup_singleton _, List.nodup_singleton _⟩
  queues := rfl

/-- The first host of the subsystem brings its queue. -/
theorem queues_well_formed_linked :
    ∃ s, Run (queueStep demoJson) (Tended demoJson KeepsQueues) (aclQueueWatch []) s ∧
      s.queued.pairs = [(none, 1), (some 5, 1)] ∧ s.Tracks ∧ s.queued.WellFormed := by
  obtain ⟨s, hs, hqueued⟩ : ∃ s, queueStep demoJson aclOp (aclQueueWatch []) s ∧
      s.queued = (aclQueueWatch []).queued.step aclOp.1 aclErrand := exists_queueStep (by decide) (by decide) rfl rfl
  have hrun : Run (queueStep demoJson) (Tended demoJson KeepsQueues) (aclQueueWatch []) s := by
    refine .next .start ⟨rfl, ?_⟩ hs
    rintro e he
    obtain rfl : aclErrand = e := Option.some.inj he
    trivial
  refine ⟨s, hrun, ?_, queues_well_formed hrun (started_acl [])⟩
  rw [hqueued]
  decide

/-- A subsystem that is set again has two queues at its port. -/
theorem queues_doubled :
    ∃ s, queueStep renameJson renameOp (aclQueueWatch [demoHost]) s ∧ (aclQueueWatch [demoHost]).Started ∧
      s.queued.pairs = [(none, 1), (some 5, 1), (some 5, 1)] ∧ ¬s.queued.WellFormed := by
  obtain ⟨s, hs, hqueued⟩ : ∃ s, queueStep renameJson renameOp (aclQueueWatch [demoHost]) s ∧
      s.queued = (aclQueueWatch [demoHost]).queued.step renameOp.1 (.updateSubsys "nqn.subsys" renameOut) :=
    exists_queueStep (by decide) (by decide) rfl rfl
  have hpairs : s.queued.pairs = [(none, 1), (some 5, 1), (some 5, 1)] := by
    rw [hqueued]
    decide
  refine ⟨s, hs, started_acl [demoHost], hpairs, fun h => ?_⟩
  have hnodup := h.nodup
  rw [hpairs] at hnodup
  exact absurd hnodup (by decide)

end

end NvmeDem
