import NvmeDem.Dem.Refresh
import NvmeDem.Lib.Merge

/-!
# What a refresh leaves

The pages that come in are one stream, whatever queues they come through. A subsystem is filled from its part of the stream, and the
last page with an address stands in the end; what is kept apart is filled from the rest, and the first page stands.
-/

namespace NvmeDem.Refresh

open Merge

/-- What tells the pages of a subsystem from one another. -/
structure AddressKey where
  trtype : UInt8
  adrfam : UInt8
  traddr : String
  trsvcid : String
  deriving DecidableEq

def addressKey (p : Logpage) : AddressKey :=
  { trtype := p.e.trtype, adrfam := p.e.adrfam, traddr := p.e.traddr, trsvcid := p.e.trsvcid }

/-- What tells the pages apart that are of no subsystem. -/
structure UnattachedKey where
  subnqn : String
  address : AddressKey
  deriving DecidableEq

def unattachedKey (p : Logpage) : UnattachedKey := { subnqn := p.e.subnqn, address := addressKey p }

/-- The pages that are meant for a subsystem. -/
def meantFor (log : List Logpage) (nqn : String) : List Logpage := log.filter (fun p => nqn == p.e.subnqn)

/-- The pages that are meant for no subsystem of a target. -/
def meantForNone (log : List Logpage) (target : Target) : List Logpage :=
  log.filter (fun p => (findSubsys target p.e.subnqn).isNone)

/-- There is memory for each page that comes in. -/
def MemoryForAll (visits : Nat → Visit) : Prop := ∀ i log, (visits i).log = some log → ∀ x ∈ log, x.2 = true

/-! ## One page -/

theorem matchLogpage_eq (e : LogEntry) (portid : Nat) :
    (fun p : Logpage => p.matchLogpage e) = fun p => addressKey p == addressKey (storeLogpage e portid) := by
  funext p
  rw [Bool.eq_iff_iff]
  simp only [Logpage.matchLogpage, addressKey, storeLogpage, Bool.and_eq_true, beq_iff_eq, AddressKey.mk.injEq]
  constructor
  · rintro ⟨⟨⟨ha, hs⟩, ht⟩, hf⟩
    exact ⟨ht.symm, hf.symm, ha.symm, hs.symm⟩
  · rintro ⟨ht, hf, ha, hs⟩
    exact ⟨⟨⟨ha.symm, hs.symm⟩, ht.symm⟩, hf.symm⟩

theorem matchUnattached_eq (e : LogEntry) (portid : Nat) :
    matchUnattached e = fun p => unattachedKey p == unattachedKey (storeLogpage e portid) := by
  funext p
  rw [Bool.eq_iff_iff, matchUnattached, Bool.and_eq_true, beq_iff_eq, beq_iff_eq, unattachedKey, unattachedKey, UnattachedKey.mk.injEq]
  refine and_congr Iff.rfl ?_
  rw [congrFun (matchLogpage_eq e portid) p, beq_iff_eq]

/-- A page goes over the one with its address, or behind the others. -/
def putPage (subsys : Subsystem) (p : Logpage) : Subsystem :=
  { subsys with logpageList := putLast addressKey subsys.logpageList p }

theorem nqn_putPage (subsys : Subsystem) (p : Logpage) : (putPage subsys p).nqn = subsys.nqn := rfl

theorem saveLogPage_eq (e : LogEntry) (portid : Nat) :
    Subsystem.saveLogPage portid e = fun subsys => putPage subsys (storeLogpage e portid) := by
  funext subsys
  unfold Subsystem.saveLogPage putPage putLast
  rw [matchLogpage_eq e portid]
  rfl

/-- What a page that comes in makes of the pages of a target. -/
def savePage (t : TargetPages) (p : Logpage) : TargetPages :=
  { target := { t.target with subsysList := route Subsystem.nqn (fun p => p.e.subnqn) putPage t.target.subsysList p }
    unattachedLogpageList :=
      if (findSubsys t.target p.e.subnqn).isNone then putFirst unattachedKey t.unattachedLogpageList p
      else t.unattachedLogpageList }

theorem onSubsys_saveLogPage (target : Target) (e : LogEntry) (portid : Nat) :
    target.onSubsys e.subnqn (Subsystem.saveLogPage portid e) =
      { target with
        subsysList := route Subsystem.nqn (fun p => p.e.subnqn) putPage target.subsysList (storeLogpage e portid) } := by
  unfold Target.onSubsys route
  rw [saveLogPage_eq]
  rfl

/-- A page for no subsystem leaves the subsystems as they are. -/
theorem onSubsys_of_none {target : Target} {nqn : String} (h : findSubsys target nqn = none) (f : Subsystem → Subsystem) :
    target.onSubsys nqn f = target := by
  unfold Target.onSubsys
  rw [Keyed.modifyFirst_of_forall_not]
  intro s hs
  simpa using List.find?_eq_none.mp h s hs

variable {portid : Nat}

/-- A log is saved page by page. -/
theorem saveLogPages_eq {log : List (LogEntry × Bool)} (hmem : ∀ x ∈ log, x.2 = true) (t : TargetPages) :
    saveLogPages portid log t = (log.map (fun x => storeLogpage x.1 portid)).foldl savePage t := by
  induction log generalizing t with
  | nil => rfl
  | cons x log ih =>
    obtain ⟨e, mem⟩ := x
    obtain rfl : mem = true := hmem _ List.mem_cons_self
    have ih := ih (fun x hx => hmem x (List.mem_cons_of_mem _ hx))
    have hsave : savePage t (storeLogpage e portid) =
        { target := t.target.onSubsys e.subnqn (Subsystem.saveLogPage portid e)
          unattachedLogpageList :=
            if (findSubsys t.target e.subnqn).isNone then putFirst unattachedKey t.unattachedLogpageList (storeLogpage e portid)
            else t.unattachedLogpageList } := by
      rw [onSubsys_saveLogPage]
      rfl
    rw [List.map_cons, List.foldl_cons, hsave, saveLogPages]
    cases hfind : findSubsys t.target e.subnqn with
    | some subsys =>
      simp only [Bool.true_or, if_true, Option.isNone_some, Bool.false_eq_true, if_false]
      exact ih _
    | none =>
      simp only [Bool.not_true, Bool.false_eq_true, if_false, Option.isNone_none, if_true, onSubsys_of_none hfind]
      unfold putFirst
      rw [matchUnattached_eq e portid]
      by_cases hany : t.unattachedLogpageList.any (fun p => unattachedKey p == unattachedKey (storeLogpage e portid)) = true
      · rw [if_pos hany, if_pos hany]
        exact ih t
      · rw [if_neg hany, if_neg hany]
        exact ih _

/-! ## The stream -/

theorem mem_of_logOf {visits : Nat → Visit} (hmem : MemoryForAll visits) {target : Target} {dq : DiscoveryQueue} {i : Nat} :
    ∀ x ∈ logOf (visits i) target dq, x.2 = true := by
  intro x hx
  unfold logOf at hx
  split at hx
  · cases hlog : (visits i).log with
    | none =>
      rw [hlog] at hx
      cases hx
    | some log =>
      rw [hlog] at hx
      exact hmem i log hlog x hx
  · cases hx

theorem received_eq {visits : Nat → Visit} (hmem : MemoryForAll visits) (target : Target) (i : Nat) (queues : List DiscoveryQueue)
    (t : TargetPages) :
    saveFrom visits target i queues t = (receivedFrom visits target i queues).foldl savePage t := by
  induction queues generalizing i t with
  | nil => rfl
  | cons dq rest ih =>
    rw [saveFrom, receivedFrom, List.foldl_append, ih, saveLogPages_eq]
    exact mem_of_logOf hmem

theorem valid_receivedFrom {visits : Nat → Visit} {target : Target} {i : Nat} {queues : List DiscoveryQueue} :
    ∀ p ∈ receivedFrom visits target i queues, p.valid = true := by
  induction queues generalizing i with
  | nil => exact fun _ h => absurd h List.not_mem_nil
  | cons dq rest ih =>
    intro p hp
    rw [receivedFrom, List.mem_append] at hp
    rcases hp with hp | hp
    · obtain ⟨x, -, rfl⟩ := List.mem_map.mp hp
      rfl
    · exact ih p hp

theorem isNone_findSubsys_iff {target : Target} {nqn : String} :
    (findSubsys target nqn).isNone = true ↔ nqn ∉ target.subsysList.map Subsystem.nqn := by
  rw [Option.isNone_iff_eq_none, findSubsys, List.find?_eq_none, List.mem_map]
  simp

/-- The two halves of the stream. -/
theorem foldl_savePage (log : List Logpage) (t : TargetPages) :
    (log.foldl savePage t).target.subsysList =
        log.foldl (route Subsystem.nqn (fun p => p.e.subnqn) putPage) t.target.subsysList ∧
      (log.foldl savePage t).unattachedLogpageList =
        (meantForNone log t.target).foldl (putFirst unattachedKey) t.unattachedLogpageList := by
  induction log generalizing t with
  | nil => exact ⟨rfl, rfl⟩
  | cons p log ih =>
    obtain ⟨hsub, hun⟩ := ih (savePage t p)
    refine ⟨hsub, hun.trans ?_⟩
    have hnone : ∀ nqn, (findSubsys (savePage t p).target nqn).isNone = (findSubsys t.target nqn).isNone := by
      intro nqn
      rw [Bool.eq_iff_iff, isNone_findSubsys_iff, isNone_findSubsys_iff]
      have hnames : (savePage t p).target.subsysList.map Subsystem.nqn = t.target.subsysList.map Subsystem.nqn := by
        show (route Subsystem.nqn (fun p : Logpage => p.e.subnqn) putPage t.target.subsysList p).map Subsystem.nqn = _
        exact names_route nqn_putPage t.target.subsysList p
      rw [hnames]
    unfold meantForNone
    simp only [hnone, List.filter_cons]
    unfold savePage
    split <;> rfl

theorem foldl_putPage (log : List Logpage) (subsys : Subsystem) :
    log.foldl putPage subsys = { subsys with logpageList := log.foldl (putLast addressKey) subsys.logpageList } := by
  induction log generalizing subsys with
  | nil => rfl
  | cons p log ih =>
    rw [List.foldl_cons, ih]
    rfl

theorem names_invalidateLogPages (t : TargetPages) :
    (invalidateLogPages t).target.subsysList.map Subsystem.nqn = t.target.subsysList.map Subsystem.nqn := by
  unfold invalidateLogPages delUnattachedLogpageList
  rw [List.map_map]
  rfl

theorem meantForNone_congr {target target' : Target}
    (h : target'.subsysList.map Subsystem.nqn = target.subsysList.map Subsystem.nqn) (log : List Logpage) :
    meantForNone log target' = meantForNone log target := by
  unfold meantForNone
  refine List.filter_congr (fun p _ => ?_)
  rw [Bool.eq_iff_iff, isNone_findSubsys_iff, isNone_findSubsys_iff, h]

/-- After the pages were marked, those that are valid are those that the stream leaves. -/
theorem mem_valid_iff {xs log : List Logpage} (hn : (xs.map addressKey).Nodup) (hxs : ∀ p ∈ xs, p.valid = false)
    (hlog : ∀ p ∈ log, p.valid = true) (p : Logpage) :
    p ∈ log.foldl (putLast addressKey) xs ∧ p.valid = true ↔ IsLast addressKey log p := by
  rw [mem_foldl_putLast log hn]
  constructor
  · rintro ⟨hlast | ⟨hp, -⟩, hvalid⟩
    · exact hlast
    · rw [hxs p hp] at hvalid
      cases hvalid
  · intro hlast
    exact ⟨Or.inl hlast, hlog p hlast.mem⟩

/-- After a refresh the valid pages of a subsystem are those that came in for it, the last of each address; those kept apart are those
that came in for no subsystem, the first of each address; and no list has two pages with the same key. -/
theorem refresh_union {visits : Nat → Visit} {t : LogTarget} (hn : (t.target.subsysList.map Subsystem.nqn).Nodup)
    (hk : ∀ s ∈ t.target.subsysList, (s.logpageList.map addressKey).Nodup) (hmem : MemoryForAll visits) :
    (refreshLogPages visits t).target.subsysList.map Subsystem.nqn = t.target.subsysList.map Subsystem.nqn ∧
      (∀ s ∈ (refreshLogPages visits t).target.subsysList, (s.logpageList.map addressKey).Nodup ∧
        ∀ p : Logpage, p ∈ s.logpageList ∧ p.valid = true ↔ IsLast addressKey (meantFor (received visits t) s.nqn) p) ∧
      ((refreshLogPages visits t).unattachedLogpageList.map unattachedKey).Nodup ∧
      ∀ p : Logpage, p ∈ (refreshLogPages visits t).unattachedLogpageList ↔
        IsFirst unattachedKey (meantForNone (received visits t) t.target) p := by
  have hpages : (refreshLogPages visits t).toTargetPages =
      (received visits t).foldl savePage (invalidateLogPages t.toTargetPages) := by
    rw [pages_refreshLogPages, received_eq hmem]
    rfl
  have hnames := names_invalidateLogPages t.toTargetPages
  obtain ⟨hsubs, hunattached⟩ := foldl_savePage (received visits t) (invalidateLogPages t.toTargetPages)
  rw [← hpages, foldl_route (by rw [hnames]; exact hn) nqn_putPage] at hsubs
  rw [← hpages, meantForNone_congr hnames] at hunattached
  refine ⟨?_, ?_, ?_, ?_⟩
  · rw [hsubs, List.map_map, ← hnames]
    apply List.map_congr_left
    intro s _
    rw [Function.comp_apply, foldl_putPage]
  · intro s hs
    rw [hsubs] at hs
    obtain ⟨marked, hmarked, rfl⟩ := List.mem_map.mp hs
    obtain ⟨old, hold, rfl⟩ := List.mem_map.mp hmarked
    have hkeys : (old.invalidateLogPages.logpageList.map addressKey).Nodup := by
      unfold Subsystem.invalidateLogPages
      rw [List.map_map]
      exact hk old hold
    rw [foldl_putPage]
    refine ⟨nodup_foldl_putLast _ hkeys, mem_valid_iff hkeys (fun p hp => ?_) (fun p hp => ?_)⟩
    · obtain ⟨q, -, rfl⟩ := List.mem_map.mp hp
      rfl
    · exact valid_receivedFrom p (List.mem_of_mem_filter hp)
  · rw [hunattached]
    exact nodup_foldl_putFirst _ List.nodup_nil
  · intro p
    rw [hunattached, mem_foldl_putFirst]
    simp [invalidateLogPages, delUnattachedLogpageList]

/-- A target with a subsystem that has a page, and a queue that is connected. -/
def refreshedTarget : LogTarget where
  target :=
    { ptr := 1, name := "t"
      subsysList := [{ nqn := "nqn.s", logpageList := [{ portid := 0, e := { subnqn := "nqn.s", traddr := "9" }, valid := true }] }] }
  discoveryQueueList := [{ portid := 5, subsys := none, conn := { connected := true } }]

/-- A log with two entries of one address for the subsystem, and two for another subsystem. -/
def twiceVisits (_ : Nat) : Visit where
  connect :=
    { address := true, initEndpoint := 0, clientConnect := fun _ => 0, allocCmd := 0, allocData := 0
      connect := ⟨0, .fails 0⟩, again := ⟨0, .fails 0⟩, enable := ⟨0, .fails 0⟩ }
  log := some [({ subnqn := "nqn.s", traddr := "1", cntlid := 1 }, true), ({ subnqn := "nqn.x", traddr := "1", cntlid := 2 }, true),
    ({ subnqn := "nqn.s", traddr := "1", cntlid := 3 }, true), ({ subnqn := "nqn.x", traddr := "1", cntlid := 4 }, true)]

theorem refresh_union_twice :
    ((refreshLogPages twiceVisits refreshedTarget).unattachedLogpageList.map unattachedKey).Nodup ∧
      ∀ p : Logpage, p ∈ (refreshLogPages twiceVisits refreshedTarget).unattachedLogpageList ↔
        IsFirst unattachedKey (meantForNone (received twiceVisits refreshedTarget) refreshedTarget.target) p :=
  (refresh_union (by decide) (by decide) (fun i log hlog => by
    cases hlog
    decide)).2.2

/-- The page that was there stays and is not valid, the last entry of the subsystem is there, and the first of the other. -/
example :
    (refreshLogPages twiceVisits refreshedTarget).target.subsysList.map (fun s => s.logpageList.map (fun p => (p.e.cntlid, p.valid))) =
        [[(0, false), (3, true)]] ∧
      (refreshLogPages twiceVisits refreshedTarget).unattachedLogpageList.map (fun p => p.e.cntlid) = [2] := by decide

/-! ## The refresh as other modules see it -/

theorem logEvent_saveLogPages {log : List (LogEntry × Bool)} (hmem : ∀ x ∈ log, x.2 = true) (t : TargetPages) :
    (saveLogPages portid log t).target = t.target.logEvent (.fetch portid (log.map Prod.fst)) := by
  induction log generalizing t with
  | nil => rfl
  | cons x log ih =>
    obtain ⟨e, mem⟩ := x
    obtain rfl : mem = true := hmem _ List.mem_cons_self
    have ih := ih (fun x hx => hmem x (List.mem_cons_of_mem _ hx))
    have hstep : t.target.logEvent (.fetch portid (((e, true) :: log).map Prod.fst)) =
        (t.target.onSubsys e.subnqn (Subsystem.saveLogPage portid e)).logEvent (.fetch portid (log.map Prod.fst)) := rfl
    rw [hstep, saveLogPages]
    cases hfind : findSubsys t.target e.subnqn with
    | some subsys => exact ih _
    | none =>
      rw [onSubsys_of_none hfind]
      simp only [Bool.not_true, Bool.false_eq_true, if_false]
      split
      · exact ih t
      · exact ih _

/-- What happens to the pages of the subsystems in a refresh. -/
def refreshEvents (visits : Nat → Visit) (t : LogTarget) : List LogEvent :=
  .invalidate :: t.discoveryQueueList.zipIdx.map (fun dq =>
    .fetch dq.1.portid ((logOf (visits dq.2) t.target dq.1).map Prod.fst))

/-- A refresh is logs that come in, as a request meets them. -/
theorem refreshLogPages_target {visits : Nat → Visit} {t : LogTarget} (hmem : MemoryForAll visits) :
    (refreshLogPages visits t).target = (refreshEvents visits t).foldl Target.logEvent t.target := by
  have hfrom : ∀ (target : Target) (queues : List DiscoveryQueue) (i : Nat) (p : TargetPages),
      (saveFrom visits target i queues p).target =
        ((queues.zipIdx i).map (fun dq =>
          LogEvent.fetch dq.1.portid ((logOf (visits dq.2) target dq.1).map Prod.fst))).foldl Target.logEvent p.target := by
    intro target queues
    induction queues with
    | nil => exact fun _ _ => rfl
    | cons dq rest ih =>
      intro i p
      rw [saveFrom, ih, List.zipIdx_cons, List.map_cons, List.foldl_cons, logEvent_saveLogPages]
      exact mem_of_logOf hmem
  rw [pages_refreshLogPages, hfrom]
  rfl

/-- What `Conn.refreshLogPages` is told of the queues. -/
def connVisits (visits : Nat → Visit) (t : LogTarget) (i : Nat) : Conn.Visit where
  available := (t.discoveryQueueList[i]?).any (avilableDq t.target)
  connect := (visits i).connect

theorem conn_visitQueues {visits : Nat → Visit} {cv : Nat → Conn.Visit} {target : Target} {queues : List DiscoveryQueue} {i : Nat}
    {t : LogTarget} (h : accessOf t.target = accessOf target)
    (hcv : ∀ dq j, (dq, j) ∈ queues.zipIdx i → cv j = { available := avilableDq target dq, connect := (visits j).connect }) :
    (visitQueues visits i queues t).1.map DiscoveryQueue.conn =
        ((queues.map DiscoveryQueue.conn).zipIdx i).map (fun c => Conn.refreshQueue (cv c.2) c.1) ∧
      (visitQueues visits i queues t).2.logPageRetryCount =
        if ((queues.map DiscoveryQueue.conn).zipIdx i).any (fun c => Periodic.connectFails (cv c.2) c.1) then
          Periodic.logPageRetry
        else t.logPageRetryCount := by
  induction queues generalizing i t with
  | nil => exact ⟨rfl, rfl⟩
  | cons dq rest ih =>
    obtain ⟨hqueue, hcount⟩ := queue_visitQueue (visits i) dq t
    rw [avilableDq_congr h, ← hcv dq i List.mem_cons_self] at hqueue hcount
    have haccess : accessOf (visitQueue (visits i) dq t).2.target = accessOf target := by
      rw [pages_visitQueue, accessOf_saveLogPages, h]
    obtain ⟨hrest, hcounts⟩ := ih haccess (fun dq j hj => hcv dq j (List.mem_cons_of_mem _ hj))
    rw [visitQueues]
    dsimp only
    rw [List.map_cons, List.map_cons, List.zipIdx_cons, List.map_cons, List.any_cons, hqueue, hrest, hcounts, hcount]
    refine ⟨rfl, ?_⟩
    by_cases hfail : Periodic.connectFails (cv i) dq.conn = true
    · simp [hfail]
    · simp only [hfail, Bool.false_or, Bool.false_eq_true, if_false]

/-- The queues of a refresh and its count are those that the timer of the target has after it. -/
theorem refreshLogPages_timer {visits : Nat → Visit} {t : LogTarget} {timer : Periodic.Timer}
    (hqueues : timer.conn.discoveryQueueList = t.discoveryQueueList.map DiscoveryQueue.conn)
    (hcount : timer.logPageRetryCount = t.logPageRetryCount) :
    (timer.refreshLogPages (connVisits visits t)).conn.discoveryQueueList =
        (refreshLogPages visits t).discoveryQueueList.map DiscoveryQueue.conn ∧
      (timer.refreshLogPages (connVisits visits t)).logPageRetryCount = (refreshLogPages visits t).logPageRetryCount := by
  have haccess : accessOf (invalidateLogPages t.toTargetPages).target = accessOf t.target := accessOf_invalidateLogPages _
  obtain ⟨hconns, hretry⟩ := @conn_visitQueues visits (connVisits visits t) t.target t.discoveryQueueList 0
    { t with toTargetPages := invalidateLogPages t.toTargetPages } haccess (fun dq j hj => by
      have hget : t.discoveryQueueList[j]? = some dq := List.mk_mem_zipIdx_iff_getElem?.mp hj
      unfold connVisits
      rw [hget, Option.any_some])
  constructor
  · refine Eq.trans ?_ hconns.symm
    unfold Periodic.Timer.refreshLogPages Conn.refreshLogPages
    dsimp only
    rw [hqueues, List.mapIdx_eq_zipIdx_map]
  · refine Eq.trans ?_ hretry.symm
    unfold Periodic.Timer.refreshLogPages
    dsimp only
    rw [hqueues, hcount]

end NvmeDem.Refresh
