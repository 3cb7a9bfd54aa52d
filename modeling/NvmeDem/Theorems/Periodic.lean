import NvmeDem.Dem.Periodic
import NvmeDem.Lemmas.Reconfig
import NvmeDem.Theorems.Aliases
import NvmeDem.Theorems.Membership
import NvmeDem.Theorems.Partial

/-!
# The count to the next refresh

The count of a target comes to zero if it starts above zero. It is set at the start of the daemon and each time it comes to zero,
from the refresh period that the target has then; a request that gives a target a period leaves the count as it is.
-/

namespace NvmeDem

open Jansson

namespace Periodic

/-! ## The count in C -/

theorem refreshTicks_lt (refresh : Int) : refreshTicks refresh < 2 ^ 31 := by
  have hlt := (isInt_cInt (refresh * minutes)).2
  unfold refreshTicks Conn.idleTimeout
  rcases Int.le_total 0 (cInt (refresh * minutes)) with hpos | hneg
  · rw [Int.tdiv_eq_ediv_of_nonneg hpos]
    omega
  · rw [← Int.neg_neg (cInt (refresh * minutes)), Int.neg_tdiv, Int.tdiv_eq_ediv_of_nonneg (by omega)]
    omega

/-- For periods of up to 24 days the count is what it says: 600 ticks for a minute. -/
theorem refreshTicks_of_le {refresh : Int} (hpos : 0 < refresh) (hle : refresh ≤ 35791) :
    refreshTicks refresh = refresh * 600 := by
  have hms : cInt (refresh * minutes) = refresh * 60000 := by
    unfold minutes
    rw [cInt_of_isInt ⟨by omega, by omega⟩]
    omega
  unfold refreshTicks Conn.idleTimeout
  rw [hms, Int.tdiv_eq_ediv_of_nonneg (by omega)]
  omega

/-! ## A target's turn -/

/-- The count of a target with the given refresh period is where it is to be. -/
def InTime (refresh : Int) (t : Timer) : Prop := 0 < t.refreshCountdown ∧ t.refreshCountdown ≤ refreshTicks refresh

theorem InTime.ticks_pos {refresh : Int} {t : Timer} (h : InTime refresh t) : 0 < refreshTicks refresh :=
  Int.lt_of_lt_of_le h.1 h.2

/-- The cases of a turn: a connection was lost, the target waits, or its count goes down. -/
theorem tick_cases (refresh : Int) (turn : Turn) (t : Timer) :
    (keepAliveLost turn.keepAlive t.conn = true ∧
      t.tick refresh turn =
        (false, { t with conn := Conn.keepAliveWork turn.keepAlive t.conn, logPageRetryCount := logPageRetry })) ∨
    (keepAliveLost turn.keepAlive t.conn = false ∧ 1 < t.logPageRetryCount ∧
      t.tick refresh turn =
        (false,
          { t with conn := Conn.keepAliveWork turn.keepAlive t.conn, logPageRetryCount := t.logPageRetryCount - 1 })) ∨
    (keepAliveLost turn.keepAlive t.conn = false ∧ cInt (t.refreshCountdown - 1) ≠ 0 ∧
      t.tick refresh turn =
        (false,
          { conn := Conn.keepAliveWork turn.keepAlive t.conn, refreshCountdown := cInt (t.refreshCountdown - 1)
            logPageRetryCount := t.logPageRetryCount - 1 })) ∨
    (keepAliveLost turn.keepAlive t.conn = false ∧ (t.tick refresh turn).1 = true ∧
      (t.tick refresh turn).2.refreshCountdown = refreshTicks refresh) := by
  unfold Timer.tick
  cases hlost : keepAliveLost turn.keepAlive t.conn with
  | true => exact Or.inl ⟨rfl, rfl⟩
  | false =>
    refine Or.inr ?_
    by_cases hretry : 1 < t.logPageRetryCount
    · exact Or.inl ⟨rfl, hretry, by simp [hretry]⟩
    · refine Or.inr ?_
      by_cases hzero : cInt (t.refreshCountdown - 1) = 0
      · exact Or.inr ⟨rfl, by simp [hretry, hzero]⟩
      · exact Or.inl ⟨rfl, hzero, by simp [hretry, hzero]⟩

theorem InTime.tick {refresh : Int} {t : Timer} (h : InTime refresh t) (turn : Turn) :
    InTime refresh (t.tick refresh turn).2 := by
  have hlt := refreshTicks_lt refresh
  obtain ⟨hpos, hle⟩ := h
  have hcount : cInt (t.refreshCountdown - 1) = t.refreshCountdown - 1 := cInt_of_isInt ⟨by omega, by omega⟩
  rcases tick_cases refresh turn t with ⟨-, heq⟩ | ⟨-, -, heq⟩ | ⟨-, hne, heq⟩ | ⟨-, -, heq⟩
  · rw [heq]
    exact ⟨hpos, hle⟩
  · rw [heq]
    exact ⟨hpos, hle⟩
  · rw [heq]
    rw [hcount] at hne
    constructor
    · show 0 < cInt (t.refreshCountdown - 1)
      omega
    · show cInt (t.refreshCountdown - 1) ≤ refreshTicks refresh
      omega
  · rw [InTime, heq]
    exact ⟨by omega, Int.le_refl _⟩

/-! ## How long a target waits -/

/-- The connections that a keep-alive can still lose. -/
def live (queues : List Conn.Queue) : Nat := queues.countP (fun dq => dq.connected && !dq.failedKato)

/-- The most turns that a target can take before its count comes to zero: a turn for each step of the count, and for each
connection that is lost the wait that follows. -/
def turnsLeft (t : Timer) : Nat :=
  live t.conn.discoveryQueueList * (logPageRetry + 1) + t.logPageRetryCount + t.refreshCountdown.toNat

theorem live_keepAliveQueues (answer : Nat → Int) (i : Nat) (queues : List Conn.Queue) :
    live (Conn.keepAliveQueues answer i queues).2 + (if (Conn.keepAliveQueues answer i queues).1 then 1 else 0) =
      live queues := by
  induction queues generalizing i with
  | nil => rfl
  | cons dq queues ih =>
    unfold Conn.keepAliveQueues
    by_cases hkeep : (!dq.connected || dq.failedKato || answer i = 0) = true
    · have hrest := ih (i + 1)
      rw [if_pos hkeep]
      simp only [live, List.countP_cons] at hrest ⊢
      omega
    · have hdq : dq.connected = true ∧ dq.failedKato = false := by
        simp only [Bool.or_eq_true, Bool.not_eq_true', not_or, Bool.not_eq_false, Bool.not_eq_true] at hkeep
        exact hkeep.1
      rw [if_neg hkeep]
      simp [live, Conn.disconnectCtrl, hdq]

theorem live_keepAliveWork (k : Conn.KeepAlive) (target : Conn.Target) :
    live (Conn.keepAliveWork k target).discoveryQueueList + (if keepAliveLost k target then 1 else 0) =
      live target.discoveryQueueList := by
  have hqueues := live_keepAliveQueues k.answer 0 target.discoveryQueueList
  unfold Conn.keepAliveWork keepAliveLost
  dsimp only
  by_cases hcount : 0 < target.katoCountdown - 1
  · have hnot : ¬target.katoCountdown - 1 ≤ 0 := by omega
    rw [if_pos hcount]
    simp [hnot]
  · have hle : target.katoCountdown - 1 ≤ 0 := by omega
    rw [if_neg hcount]
    simp only [hle, decide_true, Bool.true_and]
    rw [← hqueues]
    cases (Conn.keepAliveQueues k.answer 0 target.discoveryQueueList).1 <;> rfl

/-- The count of a target is above zero, with room for it in an integer. -/
def Counts (t : Timer) : Prop := 0 < t.refreshCountdown ∧ t.refreshCountdown < 2 ^ 31

theorem InTime.counts {refresh : Int} {t : Timer} (h : InTime refresh t) : Counts t :=
  ⟨h.1, Int.lt_of_le_of_lt h.2 (refreshTicks_lt refresh)⟩

/-- A turn in which the count does not come to zero leaves it above zero, and brings the next refresh nearer. -/
theorem Counts.tick {refresh : Int} {turn : Turn} {t : Timer} (h : Counts t) (hnot : (t.tick refresh turn).1 = false) :
    Counts (t.tick refresh turn).2 ∧ turnsLeft (t.tick refresh turn).2 < turnsLeft t := by
  obtain ⟨hpos, hlt⟩ := h
  have hlive := live_keepAliveWork turn.keepAlive t.conn
  have hcount : cInt (t.refreshCountdown - 1) = t.refreshCountdown - 1 := cInt_of_isInt ⟨by omega, by omega⟩
  unfold turnsLeft
  rcases tick_cases refresh turn t with ⟨hlost, heq⟩ | ⟨hlost, hretry, heq⟩ | ⟨hlost, hne, heq⟩ | ⟨-, hdue, -⟩
  · rw [heq]
    rw [hlost] at hlive
    refine ⟨⟨hpos, hlt⟩, ?_⟩
    simp only [if_true, logPageRetry] at hlive ⊢
    omega
  · rw [heq]
    rw [hlost] at hlive
    refine ⟨⟨hpos, hlt⟩, ?_⟩
    simp only [Bool.false_eq_true, if_false, logPageRetry] at hlive ⊢
    omega
  · rw [heq]
    rw [hlost] at hlive
    rw [hcount] at hne ⊢
    refine ⟨⟨?_, ?_⟩, ?_⟩
    · show 0 < t.refreshCountdown - 1
      omega
    · show t.refreshCountdown - 1 < 2 ^ 31
      omega
    · simp only [Bool.false_eq_true, if_false, logPageRetry] at hlive ⊢
      omega
  · rw [hnot] at hdue
    cases hdue

/-! ## The turn of one of the targets -/

variable {timer : Nat → Timer} {turns : Nat → Turn} {target : Target}

theorem InTime.turnOf (h : InTime target.refresh (timer target.ptr)) : InTime target.refresh (turnOf timer turns target).2 := by
  unfold Periodic.turnOf
  refine InTime.tick ?_ _
  exact h

theorem Counts.turnOf (h : Counts (timer target.ptr)) (hnot : (turnOf timer turns target).1 = false) :
    Counts (turnOf timer turns target).2 ∧ turnsLeft (turnOf timer turns target).2 < turnsLeft (timer target.ptr) := by
  unfold Periodic.turnOf at hnot ⊢
  refine Counts.tick ?_ hnot
  exact h

/-! ## The periods of the targets -/

/-- The address of a target's record, by which its count is found, and its refresh period. -/
def periodOf (target : Target) : Nat × Int := (target.ptr, target.refresh)

def periods (lists : Lists) : List (Nat × Int) := lists.targetList.map periodOf

theorem fst_periods (lists : Lists) : (periods lists).map Prod.fst = lists.targetList.map Target.ptr := by
  rw [periods, List.map_map]
  rfl

theorem periods_withLogs (lists : Lists) (w : World) : periods (lists.withLogs w) = periods lists := by
  have hlogs : ∀ (es : List LogEvent) (t : Target), periodOf (es.foldl Target.logEvent t) = periodOf t := by
    intro es t
    have hwithout : ∀ u : Target, periodOf u = periodOf u.withoutLogs := fun _ => rfl
    rw [hwithout, withoutLogs_logs, ← hwithout]
  simp only [Lists.withLogs, periods, List.map_map, Function.comp_def, hlogs]

theorem periods_of_same {targets new : List Target} (h : List.Forall₂ SameTarget targets new) :
    new.map periodOf = targets.map periodOf := by
  induction h with
  | nil => rfl
  | cons hsame _ ih =>
    rw [List.map_cons, List.map_cons, ih, hsame]
    rfl

/-! ## A tick of the daemon -/

variable {J : JsonLib} {w : World} {c c' : Clock}

/-- What a tick makes of the counts: each target takes its turn. -/
structure Ticked (turns : Nat → Turn) (targets : List Target) (timer timer' : Nat → Timer) : Prop where
  turn : ∀ t ∈ targets, timer' t.ptr = (turnOf timer turns t).2
  other : ∀ ptr, ptr ∉ targets.map Target.ptr → timer' ptr = timer ptr

theorem periodicTarget_ok {acc acc' : Json × List Target × (Nat → Timer)} {target : Target}
    (h : periodicTarget J w turns acc target = .ok acc') :
    ∃ target', SameTarget target target' ∧ acc'.2.1 = acc.2.1 ++ [target'] ∧
      acc'.2.2 = Function.update acc.2.2 target.ptr (turnOf acc.2.2 turns target).2 := by
  obtain ⟨root, list, timer⟩ := acc
  unfold periodicTarget at h
  dsimp only at h
  split at h
  · obtain ⟨⟨ret, root', target'⟩, hget, h⟩ := bind_eq_ok h
    cases h
    exact ⟨target', (Reported.getConfig hget).target, rfl, rfl⟩
  · cases h
    exact ⟨target, rfl, rfl, rfl⟩

theorem periodicTarget_fold {targets : List Target} {acc acc' : Json × List Target × (Nat → Timer)}
    (hnodup : (targets.map Target.ptr).Nodup) (h : targets.foldlM (periodicTarget J w turns) acc = .ok acc') :
    ∃ new, List.Forall₂ SameTarget targets new ∧ acc'.2.1 = acc.2.1 ++ new ∧ Ticked turns targets acc.2.2 acc'.2.2 := by
  induction targets generalizing acc with
  | nil =>
    cases h
    exact ⟨[], .nil, (List.append_nil _).symm, fun t ht => (List.not_mem_nil ht).elim, fun _ _ => rfl⟩
  | cons target targets ih =>
    rw [List.foldlM_cons] at h
    obtain ⟨acc₁, hstep, h⟩ := bind_eq_ok h
    obtain ⟨target', hsame, hlist, htimer⟩ := periodicTarget_ok hstep
    rw [List.map_cons, List.nodup_cons] at hnodup
    obtain ⟨new, hnew, hacc, hturn, hother⟩ := ih hnodup.2 h
    -- The turn of one target leaves the counts of the others.
    have hkeep : ∀ ptr, ptr ≠ target.ptr → acc₁.2.2 ptr = acc.2.2 ptr := fun ptr hne => by
      rw [htimer, Function.update_of_ne hne]
    refine ⟨target' :: new, .cons hsame hnew, by rw [hacc, hlist, List.append_assoc, List.singleton_append], ?_, ?_⟩
    · intro t ht
      rcases List.mem_cons.mp ht with rfl | ht
      · rw [hother _ hnodup.1, htimer, Function.update_self]
      · have hne : t.ptr ≠ target.ptr := fun heq => hnodup.1 (heq ▸ List.mem_map_of_mem ht)
        rw [hturn t ht]
        unfold turnOf
        rw [hkeep _ hne]
    · intro ptr hptr
      rw [List.map_cons, List.mem_cons, not_or] at hptr
      rw [hother ptr hptr.2, hkeep ptr hptr.1]

theorem periodicWork_ok (hnodup : (c.dem.lists.targetList.map Target.ptr).Nodup) (h : periodicWork J w turns c = .ok c') :
    periods c'.dem.lists = periods c.dem.lists ∧ Ticked turns c.dem.lists.targetList c.timer c'.timer := by
  obtain ⟨acc, hfold, h⟩ := bind_eq_ok h
  obtain ⟨new, hnew, hlist, hticked⟩ := periodicTarget_fold hnodup hfold
  cases h
  refine ⟨?_, hticked⟩
  rw [periods_withLogs, periods, hlist, List.nil_append, periods_of_same hnew]
  rfl

/-! ## A request -/

/-- The store takes an update, and its text gives the period. -/
def GivesPeriod (J : JsonLib) (root : Json) (tgt : Option String) (data : String) (refresh : Int) : Prop :=
  ∃ r body, updateJsonTarget J root tgt data zeroTarget = .ok r ∧ r.ret = 0 ∧ J.loads data = some body ∧
    refresh = ((body.objectGet tagRefresh).map (fun v => cInt v.integerValue)).getD 0

theorem refresh_updateTargetFields {t t' body : Json} {arg out : TargetArg} (ht : t.isObject = true) (harg : arg.refresh = 0)
    (h : updateTargetFields t body arg = .ok (t', out)) :
    out.refresh = ((body.objectGet tagRefresh).map (fun v => cInt v.integerValue)).getD 0 := by
  unfold updateTargetFields at h
  obtain ⟨⟨iter, mode⟩, -, hrest⟩ := bind_eq_ok h
  rw [(updateInterface_out hrest).1]
  dsimp only
  cases body.objectGet tagRefresh with
  | none => exact harg
  | some v => simp [ht]

/-- What an update that the store takes gives its caller. -/
theorem refresh_updateJsonTarget {root : Json} {tgt : Option String} {data : String} {r : Reply TargetArg}
    (hr : updateJsonTarget J root tgt data zeroTarget = .ok r) (hret : r.ret = 0) :
    GivesPeriod J root tgt data r.out.refresh := by
  rcases updateJsonTarget_ok hr with ⟨hne, -⟩ | ⟨-, body, hbody, hupd⟩
  · exact absurd hret hne
  refine ⟨r, body, hr, hret, hbody, ?_⟩
  generalize r.out = out at hupd
  generalize r.root = root' at hupd
  cases hupd with
  | keep ht hfields => exact refresh_updateTargetFields (Json.isObject_of_strField ht.key) rfl hfields
  | rename ht _ _ _ hfields =>
    refine refresh_updateTargetFields ?_ rfl hfields
    rw [isObject_jsonUpdateString, Json.isObject_of_strField ht.key]
  | create _ _ _ hfields => exact refresh_updateTargetFields rfl rfl hfields

theorem GivesPeriod.eq {root : Json} {tgt : Option String} {data : String} {refresh refresh' : Int}
    (h : GivesPeriod J root tgt data refresh) (h' : GivesPeriod J root tgt data refresh') : refresh = refresh' := by
  obtain ⟨-, body, -, -, hbody, rfl⟩ := h
  obtain ⟨-, body', -, -, hbody', rfl⟩ := h'
  rw [Option.some.inj (hbody.symm.trans hbody')]

/-- What becomes of the periods in an update. -/
inductive PeriodUpdate (J : JsonLib) (w : World) (d : Daemon) (tgt : Option String) (data : String) : List (Nat × Int) → Prop
  | refused (h : ∀ refresh, ¬GivesPeriod J d.root tgt data refresh) : PeriodUpdate J w d tgt data (periods d.lists)
  | missing {name : String} (htgt : tgt = some name) (hnone : findTarget d.lists name = none) :
      PeriodUpdate J w d tgt data (periods d.lists)
  | found {name : String} {target : Target} {refresh : Int} (h : GivesPeriod J d.root tgt data refresh) (htgt : tgt = some name)
      (hfind : findTarget d.lists name = some target) :
      PeriodUpdate J w d tgt data
        (Keyed.modifyFirst (fun p => p.1 == target.ptr) (fun _ => (target.ptr, refresh)) (periods d.lists))
  | created {refresh : Int} (h : GivesPeriod J d.root tgt data refresh) (htgt : tgt = none) :
      PeriodUpdate J w d tgt data (periods d.lists ++ [(w.addr, refresh)])

theorem periods_updateTargetEnd {root : Json} {lists : Lists} {ptr : Nat} {target : Target} {a : Answer}
    (hr : updateTargetEnd J w root lists ptr target = .ok a) :
    periods a.dem.lists = Keyed.modifyFirst (fun p => p.1 == ptr) (fun _ => periodOf target) (periods lists) := by
  obtain ⟨⟨ret, root', target'⟩, hget, hr⟩ := bind_eq_ok hr
  cases hr
  have hperiod : periodOf target' = periodOf target := by
    rw [periodOf, (Reported.getConfig hget).target]
    rfl
  show (Keyed.modifyFirst (fun t => t.ptr == ptr) (fun _ => target') lists.targetList).map periodOf = _
  refine Keyed.modifyFirst_map (fun _ => ?_) (fun _ => ?_) lists.targetList
  · rfl
  · exact hperiod

theorem periodOf_updateTo (out : TargetArg) (target : Target) : periodOf (target.updateTo out) = (target.ptr, out.refresh) := by
  rw [periodOf, SameAliases.ptr_updateTo, refresh_updateTo]

theorem updateTarget_periods {d : Daemon} {tgt : Option String} {data : String} {a : Answer} (hf : w.Fresh d)
    (hr : NvmeDem.updateTarget J w d tgt data = .ok a) : PeriodUpdate J w d tgt data (periods a.dem.lists) := by
  obtain ⟨r, hstore, ⟨hne, rfl⟩ | ⟨hret, hr⟩⟩ := afterStore_ok hr
  · refine .refused ?_
    rintro refresh ⟨r', body, hstore', hret, -, -⟩
    rw [hstore] at hstore'
    cases hstore'
    exact hne hret
  · have hgives := refresh_updateJsonTarget hstore hret
    cases tgt with
    | none =>
      have hother : ∀ p ∈ periods d.lists, (p.1 == w.addr) = false := by
        intro p hp
        obtain ⟨t, ht, rfl⟩ := List.mem_map.mp hp
        exact SameAliases.fresh_addr hf t ht
      have halloc : periods (allocTarget d.lists w r.out.name) = periods d.lists ++ [(w.addr, 0)] := List.map_append ..
      rw [periods_updateTargetEnd hr, periodOf_updateTo, halloc, Keyed.modifyFirst_concat hother (beq_self_eq_true _)]
      exact .created hgives rfl
    | some name =>
      dsimp only at hr
      cases hfind : findTarget d.lists name with
      | none =>
        rw [hfind] at hr
        cases hr
        exact .missing rfl hfind
      | some target =>
        rw [hfind] at hr
        rw [periods_updateTargetEnd hr, periodOf_updateTo]
        exact .found hgives rfl hfind

theorem addTarget_periods {d : Daemon} {tgt : Option String} {a : Answer} (hr : NvmeDem.addTarget w d tgt = .ok a) :
    periods a.dem.lists = periods d.lists ∨ periods a.dem.lists = periods d.lists ++ [(w.addr, 0)] := by
  unfold NvmeDem.addTarget at hr
  split at hr
  · cases hr
  · split at hr
    · split at hr
      · cases hr
      · cases hr
        exact Or.inr (List.map_append ..)
    · cases hr
      exact Or.inl rfl

/-! ## Runs -/

/-- The count of every target that has a period is where it is to be. -/
def OnTime (c : Clock) : Prop := ∀ t ∈ c.dem.lists.targetList, 0 < t.refresh → InTime t.refresh (c.timer t.ptr)

theorem onTime_iff : OnTime c ↔ ∀ p ∈ periods c.dem.lists, 0 < p.2 → InTime p.2 (c.timer p.1) := by
  unfold OnTime periods
  rw [List.forall_mem_map]
  rfl

/-- The count of the record that an update gives a period to. -/
def countFor (c : Clock) : Option String → Option Timer
  | none => some {}
  | some name => (findTarget c.dem.lists name).map (fun t => c.timer t.ptr)

/-- An update that gives a target a period comes when its count is right for that. -/
def Timely (J : JsonLib) (c : Clock) : ClockOp → Prop
  | .updateTarget _ tgt data =>
    ∀ refresh t, GivesPeriod J c.dem.root tgt data refresh → 0 < refresh → countFor c tgt = some t → InTime refresh t
  | _ => True

theorem alloc_other {ptr : Nat} (hf : w.Fresh c.dem) (hmem : ptr ∈ c.dem.lists.targetList.map Target.ptr) :
    c.alloc w ptr = c.timer ptr := by
  obtain ⟨t, ht, rfl⟩ := List.mem_map.mp hmem
  exact Function.update_of_ne (beq_eq_false_iff_ne.mp (SameAliases.fresh_addr hf t ht)) ..

theorem alloc_period {p : Nat × Int} (hf : w.Fresh c.dem) (hp : p ∈ periods c.dem.lists) : c.alloc w p.1 = c.timer p.1 := by
  refine alloc_other hf ?_
  rw [← fst_periods]
  exact List.mem_map_of_mem hp

/-- The periods and the counts of the old targets are as before. -/
theorem onTime_alloc {d : Daemon} (hf : w.Fresh c.dem) (h : OnTime c) (hperiods : periods d.lists = periods c.dem.lists) :
    OnTime { dem := d, timer := c.alloc w } := by
  rw [onTime_iff] at h ⊢
  intro p hp hpos
  rw [hperiods] at hp
  show InTime p.2 (c.alloc w p.1)
  rw [alloc_period hf hp]
  exact h p hp hpos

theorem onTime_alloc_concat {d : Daemon} {refresh : Int} (hf : w.Fresh c.dem) (h : OnTime c)
    (hperiods : periods d.lists = periods c.dem.lists ++ [(w.addr, refresh)]) :
    OnTime { dem := d, timer := c.alloc w } ↔ (0 < refresh → InTime refresh {}) := by
  have hnew : c.alloc w w.addr = {} := Function.update_self ..
  rw [onTime_iff] at h ⊢
  rw [hperiods]
  constructor
  · intro hall
    have hlast : 0 < refresh → InTime refresh (c.alloc w w.addr) := hall (w.addr, refresh) (by simp)
    rwa [hnew] at hlast
  · intro hlast
    refine Keyed.forall_mem_concat (fun p hp hpos => ?_) ?_
    · show InTime p.2 (c.alloc w p.1)
      rw [alloc_period hf hp]
      exact h p hp hpos
    · show 0 < refresh → InTime refresh (c.alloc w w.addr)
      rwa [hnew]

theorem onTime_updateTarget {tgt : Option String} {data : String} {a : Answer} (hf : w.Fresh c.dem) (h : OnTime c)
    (hr : NvmeDem.updateTarget J w c.dem tgt data = .ok a) :
    OnTime { dem := a.dem, timer := c.alloc w } ↔ Timely J c (.updateTarget w tgt data) := by
  have hupd := updateTarget_periods hf hr
  generalize hnew : periods a.dem.lists = new at hupd
  cases hupd with
  | refused hnone =>
    exact iff_of_true (onTime_alloc hf h hnew) (fun refresh t hgives => absurd hgives (hnone refresh))
  | missing htgt hnone =>
    refine iff_of_true (onTime_alloc hf h hnew) (fun refresh t _ _ hcount => ?_)
    rw [htgt, countFor, hnone] at hcount
    cases hcount
  | @found name target refresh hgives htgt hfind =>
    have hmem : target ∈ c.dem.lists.targetList := List.mem_of_find?_eq_some hfind
    have hcount : countFor c tgt = some (c.timer target.ptr) := by rw [htgt, countFor, hfind, Option.map_some]
    have htimely : Timely J c (.updateTarget w tgt data) ↔ (0 < refresh → InTime refresh (c.timer target.ptr)) := by
      constructor
      · exact fun ht hpos => ht refresh _ hgives hpos hcount
      · rintro ht refresh' t hgives' hpos hcount'
        obtain rfl := hgives.eq hgives'
        obtain rfl := Option.some.inj (hcount.symm.trans hcount')
        exact ht hpos
    have hkeep : c.alloc w target.ptr = c.timer target.ptr := alloc_other hf (List.mem_map_of_mem hmem)
    have hfirst : ((periods c.dem.lists).find? (fun p => p.1 == target.ptr)).isSome = true :=
      List.find?_isSome.mpr ⟨periodOf target, List.mem_map_of_mem hmem, beq_self_eq_true _⟩
    obtain ⟨old, hold⟩ := Option.isSome_iff_exists.mp hfirst
    rw [htimely, onTime_iff, hnew]
    rw [onTime_iff] at h
    constructor
    · intro hall
      have hset : 0 < refresh → InTime refresh (c.alloc w target.ptr) :=
        hall (target.ptr, refresh) ((Keyed.mem_modifyFirst_iff hold).mpr (Or.inr rfl))
      rwa [hkeep] at hset
    · intro hset p hp hpos
      rcases Keyed.mem_modifyFirst hp with hp | ⟨_, -, -, rfl⟩
      · show InTime p.2 (c.alloc w p.1)
        rw [alloc_period hf hp]
        exact h p hp hpos
      · show InTime refresh (c.alloc w target.ptr)
        rw [hkeep]
        exact hset hpos
  | @created refresh hgives htgt =>
    rw [onTime_alloc_concat hf h hnew]
    subst htgt
    constructor
    · rintro hlast refresh' t hgives' hpos hcount
      obtain rfl := hgives.eq hgives'
      cases hcount
      exact hlast hpos
    · exact fun ht hpos => ht refresh {} hgives hpos rfl

theorem onTime_addTarget {tgt : Option String} {a : Answer} (hf : w.Fresh c.dem) (h : OnTime c)
    (hr : NvmeDem.addTarget w c.dem tgt = .ok a) : OnTime { dem := a.dem, timer := c.alloc w } := by
  rcases addTarget_periods hr with hsame | hnew
  · exact onTime_alloc hf h hsame
  · exact (onTime_alloc_concat hf h hnew).mpr (fun hpos => absurd hpos (Int.lt_irrefl 0))

theorem onTime_periodicWork (hnodup : (c.dem.lists.targetList.map Target.ptr).Nodup) (h : OnTime c)
    (hr : periodicWork J w turns c = .ok c') : OnTime c' := by
  obtain ⟨hperiods, hturn, -⟩ := periodicWork_ok hnodup hr
  rw [onTime_iff, hperiods, periods, List.forall_mem_map]
  intro t ht hpos
  show InTime t.refresh (c'.timer t.ptr)
  rw [hturn t ht]
  exact (h t ht hpos).turnOf

/-- The records have addresses of their own. -/
def Distinct (c : Clock) : Prop := (c.dem.lists.targetList.map Target.ptr).Nodup

theorem distinct_of_same {lists lists' : Lists} (h : periods lists' = periods lists)
    (hnodup : (lists.targetList.map Target.ptr).Nodup) : (lists'.targetList.map Target.ptr).Nodup := by
  rw [← fst_periods, h, fst_periods]
  exact hnodup

theorem distinct_of_concat {lists lists' : Lists} {refresh : Int} {root : Json} (hf : w.Fresh ⟨root, lists⟩)
    (h : periods lists' = periods lists ++ [(w.addr, refresh)]) (hnodup : (lists.targetList.map Target.ptr).Nodup) :
    (lists'.targetList.map Target.ptr).Nodup := by
  rw [← fst_periods] at hnodup
  rw [← fst_periods, h]
  refine Keyed.nodup_map_concat hnodup (fun hmem => ?_)
  rw [fst_periods] at hmem
  obtain ⟨t, ht, heq⟩ := List.mem_map.mp hmem
  exact beq_eq_false_iff_ne.mp (SameAliases.fresh_addr hf t ht) heq

theorem Distinct.step {op : ClockOp} (h : Distinct c) (hs : clockStep J op c c') : Distinct c' := by
  cases op with
  | addTarget w tgt =>
    obtain ⟨hf, a, hr, rfl⟩ := hs
    rcases addTarget_periods hr with hsame | hnew
    · exact distinct_of_same hsame h
    · exact distinct_of_concat hf hnew h
  | updateTarget w tgt data =>
    obtain ⟨hf, a, hr, rfl⟩ := hs
    have hupd := updateTarget_periods hf hr
    generalize hnew : periods a.dem.lists = new at hupd
    cases hupd with
    | refused => exact distinct_of_same hnew h
    | missing => exact distinct_of_same hnew h
    | created => exact distinct_of_concat hf hnew h
    | @found name target refresh =>
      show (a.dem.lists.targetList.map Target.ptr).Nodup
      rw [← fst_periods, hnew]
      rw [Distinct, ← fst_periods] at h
      exact Keyed.nodup_modifyFirst h (fun _ => rfl) (Or.inl rfl)
  | periodicWork w turns => exact distinct_of_same (periodicWork_ok h hs).1 h

/-- A step from a state whose counts are right leads to one exactly when it is timely. -/
theorem onTime_step {op : ClockOp} (hnodup : Distinct c) (h : OnTime c) (hs : clockStep J op c c') :
    OnTime c' ↔ Timely J c op := by
  cases op with
  | addTarget w tgt =>
    obtain ⟨hf, a, hr, rfl⟩ := hs
    exact iff_of_true (onTime_addTarget hf h hr) trivial
  | updateTarget w tgt data =>
    obtain ⟨hf, a, hr, rfl⟩ := hs
    exact onTime_updateTarget hf h hr
  | periodicWork w turns => exact iff_of_true (onTime_periodicWork hnodup h hs) trivial

theorem run_onTime {c₀ : Clock} (hrun : Run (clockStep J) (Timely J) c₀ c) (hnodup : Distinct c₀) (h : OnTime c₀) :
    Distinct c ∧ OnTime c :=
  hrun.invariant (I := fun c => Distinct c ∧ OnTime c) ⟨hnodup, h⟩
    (fun _ _ _ hi ha hs => ⟨hi.1.step hs, (onTime_step hi.1 hi.2 hs).mpr ha⟩)

/-! ## The wait for the next refresh -/

/-- So many ticks pass, with requests between them, and the count of the target at `ptr` does not come to zero in any. -/
inductive Waits (J : JsonLib) (ptr : Nat) (c : Clock) : Nat → Clock → Prop
  | start : Waits J ptr c 0 c
  | addTarget {n : Nat} {c₁ c₂ : Clock} {w : World} {tgt : Option String} (h : Waits J ptr c n c₁)
      (hs : clockStep J (.addTarget w tgt) c₁ c₂) : Waits J ptr c n c₂
  | updateTarget {n : Nat} {c₁ c₂ : Clock} {w : World} {tgt : Option String} {data : String} (h : Waits J ptr c n c₁)
      (hs : clockStep J (.updateTarget w tgt data) c₁ c₂) : Waits J ptr c n c₂
  | tick {n : Nat} {c₁ c₂ : Clock} {w : World} {turns : Nat → Turn} (h : Waits J ptr c n c₁)
      (hs : clockStep J (.periodicWork w turns) c₁ c₂)
      (hnot : ∀ t ∈ c₁.dem.lists.targetList, t.ptr = ptr → (turnOf c₁.timer turns t).1 = false) : Waits J ptr c (n + 1) c₂

theorem mem_ptrs_addTarget {d : Daemon} {tgt : Option String} {a : Answer} {ptr : Nat}
    (hr : NvmeDem.addTarget w d tgt = .ok a) (hmem : ptr ∈ d.lists.targetList.map Target.ptr) :
    ptr ∈ a.dem.lists.targetList.map Target.ptr := by
  rw [← fst_periods] at hmem ⊢
  rcases addTarget_periods hr with hsame | hnew
  · rwa [hsame]
  · rw [hnew, List.map_append]
    exact List.mem_append_left _ hmem

theorem mem_ptrs_updateTarget {d : Daemon} {tgt : Option String} {data : String} {a : Answer} {ptr : Nat} (hf : w.Fresh d)
    (hr : NvmeDem.updateTarget J w d tgt data = .ok a) (hmem : ptr ∈ d.lists.targetList.map Target.ptr) :
    ptr ∈ a.dem.lists.targetList.map Target.ptr := by
  have hupd := updateTarget_periods hf hr
  rw [← fst_periods] at hmem ⊢
  generalize periods a.dem.lists = new at hupd ⊢
  cases hupd with
  | refused => exact hmem
  | missing => exact hmem
  | created =>
    rw [List.map_append]
    exact List.mem_append_left _ hmem
  | @found name target refresh =>
    have hkeys : (Keyed.modifyFirst (fun p => p.1 == target.ptr) (fun _ => (target.ptr, refresh)) (periods d.lists)).map
        Prod.fst = Keyed.modifyFirst (fun k => k == target.ptr) (fun _ => target.ptr) ((periods d.lists).map Prod.fst) :=
      Keyed.map_modifyFirst (fun _ _ _ => rfl)
    rw [hkeys, Keyed.modifyFirst_of_find_same]
    · exact hmem
    · intro k hk
      exact (beq_iff_eq.mp (List.find?_some (p := fun k : Nat => k == target.ptr) hk)).symm

/-- What holds of a target while it waits. -/
structure Waiting (ptr : Nat) (c : Clock) : Prop where
  distinct : Distinct c
  mem : ptr ∈ c.dem.lists.targetList.map Target.ptr
  counts : Counts (c.timer ptr)

/-- A request has no part in the wait. -/
theorem Waiting.alloc {ptr : Nat} {d : Daemon} (h : Waiting ptr c) (hf : w.Fresh c.dem)
    (hnodup : Distinct { dem := d, timer := c.alloc w }) (hmem : ptr ∈ d.lists.targetList.map Target.ptr) :
    Waiting ptr { dem := d, timer := c.alloc w } ∧ Clock.timer { dem := d, timer := c.alloc w } ptr = c.timer ptr := by
  have hkeep : c.alloc w ptr = c.timer ptr := alloc_other hf h.mem
  refine ⟨⟨hnodup, hmem, ?_⟩, hkeep⟩
  show Counts (c.alloc w ptr)
  rw [hkeep]
  exact h.counts

theorem Waiting.tick {ptr : Nat} {turns : Nat → Turn} (h : Waiting ptr c) (hs : clockStep J (.periodicWork w turns) c c')
    (hnot : ∀ t ∈ c.dem.lists.targetList, t.ptr = ptr → (turnOf c.timer turns t).1 = false) :
    Waiting ptr c' ∧ turnsLeft (c'.timer ptr) < turnsLeft (c.timer ptr) := by
  obtain ⟨hperiods, hturn, -⟩ := periodicWork_ok h.distinct hs
  obtain ⟨t, ht, rfl⟩ := List.mem_map.mp h.mem
  obtain ⟨hcounts, hless⟩ := h.counts.turnOf (hnot t ht rfl)
  rw [← hturn t ht] at hcounts hless
  refine ⟨⟨h.distinct.step hs, ?_, hcounts⟩, hless⟩
  rw [← fst_periods, hperiods, fst_periods]
  exact h.mem

theorem Waits.left {ptr n : Nat} (h : Waits J ptr c n c') (h₀ : Waiting ptr c) :
    Waiting ptr c' ∧ turnsLeft (c'.timer ptr) + n ≤ turnsLeft (c.timer ptr) := by
  induction h with
  | start => exact ⟨h₀, Nat.le_refl _⟩
  | addTarget _ hs ih =>
    obtain ⟨hwait, hle⟩ := ih
    have hnodup := hwait.distinct.step hs
    obtain ⟨hf, a, hr, rfl⟩ := hs
    obtain ⟨hnext, hkeep⟩ := hwait.alloc hf hnodup (mem_ptrs_addTarget hr hwait.mem)
    refine ⟨hnext, ?_⟩
    rwa [hkeep]
  | updateTarget _ hs ih =>
    obtain ⟨hwait, hle⟩ := ih
    have hnodup := hwait.distinct.step hs
    obtain ⟨hf, a, hr, rfl⟩ := hs
    obtain ⟨hnext, hkeep⟩ := hwait.alloc hf hnodup (mem_ptrs_updateTarget hf hr hwait.mem)
    refine ⟨hnext, ?_⟩
    rwa [hkeep]
  | tick _ hs hnot ih =>
    obtain ⟨hwait, hle⟩ := ih
    obtain ⟨hnext, hless⟩ := hwait.tick hs hnot
    exact ⟨hnext, by omega⟩

/-! ## From the start -/

/-- The counts that the start sets are right for periods that come to a tick at least. -/
theorem onTime_start {d : Daemon} {queues : Nat → List Conn.Queue} (hnodup : (d.lists.targetList.map Target.ptr).Nodup) :
    OnTime (startClock d queues) ↔ ∀ t ∈ d.lists.targetList, 0 < t.refresh → 0 < refreshTicks t.refresh := by
  have htimer : ∀ t ∈ d.lists.targetList, (startClock d queues).timer t.ptr = initTimer queues t := fun t ht => by
    show ((d.lists.targetList.find? (fun u => u.ptr == t.ptr)).map (initTimer queues)).getD {} = _
    rw [Keyed.find?_of_mem hnodup ht]
    rfl
  constructor
  · exact fun h t ht hpos => (h t ht hpos).ticks_pos
  · intro h t ht hpos
    rw [htimer t ht]
    exact ⟨h t ht hpos, Int.le_refl _⟩

/-- The count of a target comes to zero in one of the next ticks, and is above zero until then, as long as the periods that the
store takes are timely. -/
theorem refresh_never_misses {J : JsonLib} {w : World} {buf : Nat → String} {root : Json} {d : Daemon}
    {queues : Nat → List Conn.Queue} {c : Clock} (hload : loadDaemon J w buf root = .ok d)
    (hstart : ∀ t ∈ d.lists.targetList, 0 < t.refresh → 0 < refreshTicks t.refresh)
    (hrun : Run (clockStep J) (Timely J) (startClock d queues) c) :
    OnTime c ∧ (∀ (op : ClockOp) (c' : Clock), clockStep J op c c' → (OnTime c' ↔ Timely J c op)) ∧
      ∀ t ∈ c.dem.lists.targetList, 0 < t.refresh → ∀ (n : Nat) (c' : Clock), Waits J t.ptr c n c' →
        n < turnsLeft (c.timer t.ptr) ∧ 0 < (c'.timer t.ptr).refreshCountdown := by
  have hptrs : (d.lists.targetList.map Target.ptr).Nodup := (FlagsTell.loadDaemon hload).targets
  obtain ⟨hnodup, htime⟩ := run_onTime hrun hptrs ((onTime_start hptrs).mpr hstart)
  refine ⟨htime, fun op c' hs => onTime_step hnodup htime hs, fun t ht hpos n c' hwaits => ?_⟩
  obtain ⟨hend, hle⟩ := hwaits.left ⟨hnodup, List.mem_map_of_mem ht, (htime t ht hpos).counts⟩
  have hcount := hend.counts.1
  unfold turnsLeft at hle ⊢
  exact ⟨by omega, hcount⟩

/-- A configuration with a target that is refreshed each minute. -/
def minuteConfig : Json := .object [(tagTargets, .array [.object [(tagAlias, .string "t"), (tagRefresh, .integer 1)]])]

def minuteDaemon : Daemon where
  root := minuteConfig
  lists := { targetList := [{ ptr := 0, name := "t", refresh := 1 }] }

/-- The period becomes seven minutes, right after the start. -/
theorem refresh_never_misses_longer :
    ∃ c : Clock, periods c.dem.lists = [(0, 7)] ∧ (c.timer 0).refreshCountdown = 600 ∧ OnTime c := by
  have hload : loadDaemon refreshBody {} (fun _ => "") minuteConfig = .ok minuteDaemon := rfl
  have hstart : ∀ t ∈ minuteDaemon.lists.targetList, 0 < t.refresh → 0 < refreshTicks t.refresh := by decide
  have hfresh : ({ addr := 1 } : World).Fresh minuteDaemon := by decide
  have hupd : NvmeDem.updateTarget refreshBody { addr := 1 } minuteDaemon (some "t") refreshText = .ok _ := rfl
  have htimely :
      Timely refreshBody (startClock minuteDaemon (fun _ => [])) (.updateTarget { addr := 1 } (some "t") refreshText) := by
    rintro refresh t ⟨r, body, -, -, hbody, rfl⟩ - hcount
    cases hbody
    cases hcount
    exact ⟨by decide, by decide⟩
  have hrun : Run (clockStep refreshBody) (Timely refreshBody) (startClock minuteDaemon (fun _ => [])) _ :=
    .next .start htimely ⟨hfresh, _, hupd, rfl⟩
  exact ⟨_, rfl, rfl, (refresh_never_misses hload hstart hrun).1⟩

/-- A target was added to the daemon that knows none. -/
def addedDaemon : Daemon where
  root := emptyRoot.pushAt tagTargets (newTarget (some "t"))
  lists := { targetList := [{ ptr := 0, name := "t" }] }

/-- A target is added, and a request gives it a period: its count is zero. -/
theorem refresh_misses_new :
    ¬∀ (J : JsonLib) (w : World) (buf : Nat → String) (root : Json) (d : Daemon) (queues : Nat → List Conn.Queue) (c : Clock),
      loadDaemon J w buf root = .ok d → Run (clockStep J) (fun _ _ => True) (startClock d queues) c → OnTime c := by
  intro h
  have hload : loadDaemon refreshBody {} (fun _ => "") emptyRoot = .ok emptyDaemon := rfl
  have hadd : NvmeDem.addTarget {} emptyDaemon (some "t") = .ok { ret := 0, resp := _, dem := addedDaemon } := rfl
  have hupd : NvmeDem.updateTarget refreshBody { addr := 1 } addedDaemon (some "t") refreshText = .ok _ := rfl
  have hfirst : clockStep refreshBody (.addTarget {} (some "t")) (startClock emptyDaemon (fun _ => [])) _ :=
    ⟨by decide, _, hadd, rfl⟩
  have hsecond : clockStep refreshBody (.updateTarget { addr := 1 } (some "t") refreshText)
      { dem := addedDaemon, timer := (startClock emptyDaemon (fun _ => [])).alloc {} } _ := ⟨by decide, _, hupd, rfl⟩
  have hrun : Run (clockStep refreshBody) (fun _ _ => True) (startClock emptyDaemon (fun _ => [])) _ :=
    .next (.next .start trivial hfirst) trivial hsecond
  have hcount := h refreshBody {} (fun _ => "") emptyRoot emptyDaemon (fun _ => []) _ hload hrun _ List.mem_cons_self (by decide)
  exact absurd hcount.1 (by decide)

end Periodic

end NvmeDem
