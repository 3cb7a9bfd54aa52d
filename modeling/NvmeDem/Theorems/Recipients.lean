import NvmeDem.Dem.Groups

/-!
# Who is told of a change

The lists of hosts to notify are made in two moves: an entry is flagged when some host of an access list compares unequal to it,
and what is not flagged is pruned. With one host in the access list this picks out everyone else, with two different ones it picks
out everyone. So the list is right when the subsystem is open, when nothing is to be picked, or when everyone is: `Mixed` is
the last two.
-/

namespace NvmeDem

/-- The hosts that may see a subsystem: every host, or those of its list. -/
def Subsystem.Allows (subsys : Subsystem) (nqn : String) : Prop :=
  subsys.isRestricted = false ∨ nqn ∈ subsys.hostList.map Host.nqn

def Target.Allows (target : Target) (nqn : String) : Prop := ∃ subsys ∈ target.subsysList, subsys.Allows nqn

/-- The NQNs that a group's links carry. -/
def groupNqns (lists : Lists) (group : Group) : List String :=
  (lists.hostList.filter (fun link => link.group == some group.ptr)).map GroupHostLink.nqn

/-- One entry for each NQN that is to be told, and no other. -/
def Recipients (list : List EventNotification) (p : String → Prop) : Prop :=
  (list.map EventNotification.nqn).Nodup ∧ ∀ nqn : String, nqn ∈ list.map EventNotification.nqn ↔ p nqn

/-- Every NQN that is to be told and has a request pending loses one; no other request goes. -/
def TakenOnce (reqs reqs' : List String) (p : String → Prop) : Prop :=
  ∀ nqn : String, (nqn ∈ reqs ∧ p nqn → reqs'.count nqn + 1 = reqs.count nqn) ∧
    (¬(nqn ∈ reqs ∧ p nqn) → reqs'.count nqn = reqs.count nqn)

/-- Nothing is to be picked, or everyone is and the names are not all the same. -/
def Mixed (reqs names : List String) : Prop :=
  reqs = [] ∨ names = [] ∨ ((∀ req ∈ reqs, req ∈ names) ∧ ∃ a ∈ names, ∃ b ∈ names, a ≠ b)

/-- The same for the two filters of a group: everyone passes both, or the group is one host over and over that may see no
subsystem and no other host has a request pending. -/
def MixedGroup (reqs names : List String) (p : String → Prop) : Prop :=
  reqs = [] ∨ names = [] ∨ ((∀ req ∈ reqs, req ∈ names ∧ p req) ∧ ∃ a ∈ names, ∃ b ∈ names, a ≠ b) ∨
    ∃ only, (∀ name ∈ names, name = only) ∧ ¬p only ∧ ∀ req ∈ reqs, req = only

namespace RecipientsAux

/-! ## Flags -/

/-- Flag the entries whose NQN passes a test. -/
def flag (p : String → Bool) (list : List EventNotification) : List EventNotification :=
  list.map (fun entry => if p entry.nqn then { entry with valid := true } else entry)

def otherHost (subsys : Subsystem) (nqn : String) : Bool := subsys.hostList.any (fun host => host.nqn != nqn)

theorem flagByAccessList_eq (subsys : Subsystem) : flagByAccessList subsys = flag (otherHost subsys) := rfl

@[simp] theorem map_nqn_flag (p : String → Bool) (list : List EventNotification) :
    (flag p list).map EventNotification.nqn = list.map EventNotification.nqn := by
  unfold flag
  rw [List.map_map]
  apply List.map_congr_left
  intro entry _
  dsimp only [Function.comp_apply]
  split <;> rfl

theorem flag_flag (p q : String → Bool) (list : List EventNotification) :
    flag q (flag p list) = flag (fun nqn => p nqn || q nqn) list := by
  unfold flag
  rw [List.map_map]
  apply List.map_congr_left
  intro entry _
  dsimp only [Function.comp_apply]
  by_cases hp : p entry.nqn = true <;> by_cases hq : q entry.nqn = true <;> simp [hp, hq]

/-- One subsystem after the other flags what any of them flags. -/
theorem foldl_flagByAccessList (subsysList : List Subsystem) (list : List EventNotification) :
    subsysList.foldl (fun list subsys => flagByAccessList subsys list) list =
      flag (fun nqn => subsysList.any (fun subsys => otherHost subsys nqn)) list := by
  induction subsysList generalizing list with
  | nil => simp [flag]
  | cons subsys subsysList ih =>
    rw [List.foldl_cons, ih, flagByAccessList_eq, flag_flag]
    simp only [List.any_cons]

/-! ## Pruning -/

theorem nodup_prune {list : List EventNotification} (h : (list.map EventNotification.nqn).Nodup) :
    ((pruneNotificationList list).map EventNotification.nqn).Nodup :=
  h.sublist (List.filter_sublist.map _)

/-- What is left of a list on which nothing was flagged before. -/
theorem mem_prune_flag {p : String → Bool} {list : List EventNotification} (h : ∀ entry ∈ list, entry.valid = false)
    (nqn : String) :
    nqn ∈ (pruneNotificationList (flag p list)).map EventNotification.nqn ↔
      nqn ∈ list.map EventNotification.nqn ∧ p nqn = true := by
  constructor
  · intro hm
    obtain ⟨entry, he, rfl⟩ := List.mem_map.mp hm
    obtain ⟨hmem, hvalid⟩ := List.mem_filter.mp he
    obtain ⟨old, hold, rfl⟩ := List.mem_map.mp hmem
    by_cases hp : p old.nqn = true
    · simp only [if_pos hp]
      exact ⟨List.mem_map_of_mem hold, hp⟩
    · simp only [if_neg hp, h old hold] at hvalid
      exact absurd hvalid (by simp)
  · rintro ⟨hm, hp⟩
    obtain ⟨old, hold, rfl⟩ := List.mem_map.mp hm
    refine List.mem_map.mpr ⟨{ old with valid := true }, List.mem_filter.mpr ⟨?_, rfl⟩, rfl⟩
    exact List.mem_map.mpr ⟨old, hold, if_pos hp⟩

/-- Once everything left is flagged, flagging and pruning do nothing. -/
theorem prune_flag_of_valid {p : String → Bool} {list : List EventNotification} (h : ∀ entry ∈ list, entry.valid = true) :
    pruneNotificationList (flag p list) = list := by
  have hflag : flag p list = list := by
    refine (List.map_congr_left (fun entry he => ?_)).trans (List.map_id list)
    obtain ⟨nqn, valid⟩ := entry
    have hv : valid = true := h _ he
    subst hv
    split <;> rfl
  rw [hflag]
  exact List.filter_eq_self.mpr h

theorem valid_prune {list : List EventNotification} : ∀ entry ∈ pruneNotificationList list, entry.valid = true :=
  fun _ he => (List.mem_filter.mp he).2

theorem not_valid_createNotificationList (reqs : List String) :
    ∀ entry ∈ createNotificationList reqs, entry.valid = false := by
  have hstep : ∀ (reqs : List String) (list : List EventNotification), (∀ entry ∈ list, entry.valid = false) →
      ∀ entry ∈ reqs.foldl (fun list req => if inNotificationList list req then list else list ++ [{ nqn := req }]) list,
        entry.valid = false := by
    intro reqs
    induction reqs with
    | nil => exact fun _ h => h
    | cons req reqs ih =>
      intro list h
      rw [List.foldl_cons]
      apply ih
      split
      · exact h
      · exact Keyed.forall_mem_concat h rfl
  exact hstep reqs [] (by simp)

theorem isEmpty_createNotificationList {reqs : List String} : (createNotificationList reqs).isEmpty = true ↔ reqs = [] := by
  rw [List.isEmpty_iff, ← List.map_eq_nil_iff (f := EventNotification.nqn)]
  simp only [List.eq_nil_iff_forall_not_mem, mem_createNotificationList]

theorem map_nqn_enableEntireList (list : List EventNotification) :
    (enableEntireList list).map EventNotification.nqn = list.map EventNotification.nqn := by
  simp [enableEntireList, Function.comp_def]

/-! ## The lists -/

/-- The NQNs of the list for a subsystem. -/
theorem forSubsys (reqs : List String) (subsys : Subsystem) :
    Recipients (createEventHostListForSubsys reqs subsys)
      (fun nqn => nqn ∈ reqs ∧ (subsys.isRestricted = false ∨ otherHost subsys nqn = true)) := by
  have hd := nodup_createNotificationList reqs
  unfold createEventHostListForSubsys
  dsimp only
  split
  case isTrue hempty =>
    have hnil := isEmpty_createNotificationList.mp hempty
    subst hnil
    exact ⟨hd, fun nqn => by simp [createNotificationList]⟩
  case isFalse =>
    cases hr : subsys.isRestricted with
    | false =>
      refine ⟨by simpa [map_nqn_enableEntireList] using hd, fun nqn => ?_⟩
      simp [map_nqn_enableEntireList, mem_createNotificationList]
    | true =>
      refine ⟨nodup_prune (by rw [flagByAccessList_eq, map_nqn_flag]; exact hd), fun nqn => ?_⟩
      simp only [Bool.not_true, Bool.false_eq_true, if_false, flagByAccessList_eq]
      rw [mem_prune_flag (not_valid_createNotificationList reqs), mem_createNotificationList]
      simp

theorem anySubsysUnrestricted_iff {target : Target} :
    anySubsysUnrestricted target = true ↔ ∃ subsys ∈ target.subsysList, subsys.isRestricted = false := by
  simp [anySubsysUnrestricted]

/-- The NQNs of the list for a target. -/
theorem forTarget (reqs : List String) (target : Target) :
    Recipients (createEventHostListForTarget reqs target)
      (fun nqn => nqn ∈ reqs ∧ (anySubsysUnrestricted target = true ∨
        target.subsysList.any (fun subsys => otherHost subsys nqn) = true)) := by
  have hd := nodup_createNotificationList reqs
  unfold createEventHostListForTarget flagByTarget
  dsimp only
  split
  case isTrue hempty =>
    have hnil := isEmpty_createNotificationList.mp hempty
    subst hnil
    exact ⟨hd, fun nqn => by simp [createNotificationList]⟩
  case isFalse =>
    split
    case isTrue hopen =>
      refine ⟨by simpa [map_nqn_enableEntireList] using hd, fun nqn => ?_⟩
      simp [map_nqn_enableEntireList, mem_createNotificationList, hopen]
    case isFalse hopen =>
      rw [foldl_flagByAccessList]
      refine ⟨nodup_prune (by rw [map_nqn_flag]; exact hd), fun nqn => ?_⟩
      rw [mem_prune_flag (not_valid_createNotificationList reqs), mem_createNotificationList]
      simp [hopen]

/-- The NQNs of the list for a group: the access lists take nobody off it. -/
theorem forGroup (lists : Lists) (isGroup : GroupHostLink → Bool) (target : Target) :
    Recipients (createEventHostListForGroup lists isGroup target)
      (fun nqn => nqn ∈ lists.aenReqList ∧
        lists.hostList.any (fun host => isGroup host && host.nqn != nqn) = true) := by
  have hd := nodup_createNotificationList lists.aenReqList
  have hflag : flagByGroupHosts lists.hostList isGroup (createNotificationList lists.aenReqList) =
      flag (fun nqn => lists.hostList.any (fun host => isGroup host && host.nqn != nqn))
        (createNotificationList lists.aenReqList) := rfl
  unfold createEventHostListForGroup flagByTarget
  dsimp only
  split
  case isTrue hempty =>
    have hnil := isEmpty_createNotificationList.mp hempty
    rw [hnil] at hd ⊢
    exact ⟨hd, fun nqn => by simp [createNotificationList]⟩
  case isFalse =>
    rw [hflag]
    generalize hp : pruneNotificationList _ = pruned
    have hpruned : Recipients pruned (fun nqn => nqn ∈ lists.aenReqList ∧
        lists.hostList.any (fun host => isGroup host && host.nqn != nqn) = true) := by
      rw [← hp]
      refine ⟨nodup_prune (by rw [map_nqn_flag]; exact hd), fun nqn => ?_⟩
      rw [mem_prune_flag (not_valid_createNotificationList _), mem_createNotificationList]
    have hvalid : ∀ entry ∈ pruned, entry.valid = true := by
      rw [← hp]
      exact valid_prune
    split
    · exact hpruned
    · split
      · unfold Recipients at hpruned ⊢
        rwa [map_nqn_enableEntireList]
      · rw [foldl_flagByAccessList, prune_flag_of_valid hvalid]
        exact hpruned

/-! ## When the wrong test is right -/

theorem otherHost_iff {subsys : Subsystem} {nqn : String} :
    otherHost subsys nqn = true ↔ ∃ name ∈ subsys.hostList.map Host.nqn, name ≠ nqn := by
  simp [otherHost]

theorem any_otherHost_iff {subsysList : List Subsystem} {nqn : String} :
    subsysList.any (fun subsys => otherHost subsys nqn) = true ↔
      ∃ name ∈ subsysList.flatMap (fun subsys => subsys.hostList.map Host.nqn), name ≠ nqn := by
  simp only [List.any_eq_true, otherHost_iff, List.mem_flatMap]
  constructor
  · rintro ⟨subsys, hs, name, hname, hne⟩
    exact ⟨name, ⟨subsys, hs, hname⟩, hne⟩
  · rintro ⟨name, ⟨subsys, hs, hname⟩, hne⟩
    exact ⟨subsys, hs, name, hname, hne⟩

theorem mixed_iff {reqs names : List String} :
    Mixed reqs names ↔ ∀ req ∈ reqs, ((∃ name ∈ names, name ≠ req) ↔ req ∈ names) := by
  constructor
  · rintro (rfl | rfl | ⟨hall, a, ha, b, hb, hab⟩) req hreq
    · simp at hreq
    · simp
    · refine ⟨fun _ => hall req hreq, fun _ => ?_⟩
      by_cases har : a = req
      · exact ⟨b, hb, fun hbr => hab (har.trans hbr.symm)⟩
      · exact ⟨a, ha, har⟩
  · intro h
    rcases reqs with _ | ⟨req, reqs⟩
    · exact Or.inl rfl
    · rcases names with _ | ⟨first, names⟩
      · exact Or.inr (Or.inl rfl)
      · have hall : ∀ r ∈ req :: reqs, r ∈ first :: names := by
          intro r hr
          by_cases hf : first = r
          · rw [hf]
            exact List.mem_cons_self
          · exact (h r hr).mp ⟨first, List.mem_cons_self, hf⟩
        refine Or.inr (Or.inr ⟨hall, ?_⟩)
        obtain ⟨name, hname, hne⟩ := (h req List.mem_cons_self).mpr (hall req List.mem_cons_self)
        exact ⟨name, hname, req, hall req List.mem_cons_self, hne⟩

theorem mixedGroup_iff {reqs names : List String} {p : String → Prop} :
    MixedGroup reqs names p ↔ ∀ req ∈ reqs, ((∃ name ∈ names, name ≠ req) ↔ req ∈ names ∧ p req) := by
  constructor
  · rintro (rfl | rfl | ⟨hall, a, ha, b, hb, hab⟩ | ⟨only, hsame, hnot, hall⟩) req hreq
    · simp at hreq
    · simp
    · refine ⟨fun _ => hall req hreq, fun _ => ?_⟩
      by_cases har : a = req
      · exact ⟨b, hb, fun hbr => hab (har.trans hbr.symm)⟩
      · exact ⟨a, ha, har⟩
    · rw [hall req hreq]
      constructor
      · rintro ⟨name, hname, hne⟩
        exact absurd (hsame name hname) hne
      · rintro ⟨_, hp⟩
        exact absurd hp hnot
  · intro h
    rcases reqs with _ | ⟨req, reqs⟩
    · exact Or.inl rfl
    · rcases names with _ | ⟨first, names⟩
      · exact Or.inr (Or.inl rfl)
      · by_cases hdiff : ∃ name ∈ first :: names, name ≠ first
        · obtain ⟨other, hother, hne⟩ := hdiff
          refine Or.inr (Or.inr (Or.inl ⟨fun r hr => ?_, other, hother, first, List.mem_cons_self, hne⟩))
          apply (h r hr).mp
          by_cases hf : first = r
          · exact ⟨other, hother, fun ho => hne (ho.trans hf.symm)⟩
          · exact ⟨first, List.mem_cons_self, hf⟩
        · have hsame : ∀ name ∈ first :: names, name = first := by
            intro name hname
            by_contra hne
            exact hdiff ⟨name, hname, hne⟩
          -- a request of another host passes the inverted test, and is then of the group
          have hreq : ∀ r ∈ req :: reqs, r = first := by
            intro r hr
            by_contra hne
            exact hne (hsame r ((h r hr).mp ⟨first, List.mem_cons_self, fun hf => hne hf.symm⟩).1)
          refine Or.inr (Or.inr (Or.inr ⟨first, hsame, fun hp => ?_, hreq⟩))
          have hfirst := hreq req List.mem_cons_self
          obtain ⟨name, hname, hne⟩ := (h req List.mem_cons_self).mpr (by rw [hfirst]; exact ⟨List.mem_cons_self, hp⟩)
          exact hne ((hsame name hname).trans hfirst.symm)

/-- The list is right when the test that the code makes agrees with the one that is meant on the hosts with a request. -/
theorem recipients_congr_iff {list : List EventNotification} {reqs : List String} {p q : String → Prop}
    (h : Recipients list (fun nqn => nqn ∈ reqs ∧ p nqn)) :
    Recipients list (fun nqn => nqn ∈ reqs ∧ q nqn) ↔ ∀ req ∈ reqs, (p req ↔ q req) := by
  unfold Recipients at h ⊢
  constructor
  · rintro ⟨_, hq⟩ req hreq
    have := (h.2 req).symm.trans (hq req)
    simpa [hreq] using this
  · intro hpq
    refine ⟨h.1, fun nqn => ?_⟩
    rw [h.2 nqn]
    constructor
    · rintro ⟨hr, hp⟩
      exact ⟨hr, (hpq nqn hr).mp hp⟩
    · rintro ⟨hr, hq⟩
      exact ⟨hr, (hpq nqn hr).mpr hq⟩

/-- The requests that a notification takes. -/
theorem takenOnce_iff {list : List EventNotification} {reqs : List String} {p q : String → Prop}
    (h : Recipients list (fun nqn => nqn ∈ reqs ∧ p nqn)) :
    TakenOnce reqs (sendNotifications list reqs).2 q ↔ ∀ req ∈ reqs, (p req ↔ q req) := by
  have hcount := fun nqn => count_sendNotifications list reqs nqn h.1
  unfold TakenOnce
  constructor
  · intro hq req hreq
    have hpos := List.count_pos_iff.mpr hreq
    have hc := hcount req
    obtain ⟨htold, hnot⟩ := hq req
    constructor
    · intro hp
      by_contra hqr
      rw [if_pos ((h.2 req).mpr ⟨hreq, hp⟩)] at hc
      have := hnot (fun hand => hqr hand.2)
      omega
    · intro hqr
      by_contra hp
      rw [if_neg (fun hm => hp ((h.2 req).mp hm).2)] at hc
      have := htold ⟨hreq, hqr⟩
      omega
  · intro hpq nqn
    rw [hcount nqn]
    constructor
    · rintro ⟨hr, hq⟩
      have hpos := List.count_pos_iff.mpr hr
      rw [if_pos ((h.2 nqn).mpr ⟨hr, (hpq nqn hr).mpr hq⟩)]
      omega
    · intro hnot
      rw [if_neg (fun hm => hnot ⟨((h.2 nqn).mp hm).1, (hpq nqn ((h.2 nqn).mp hm).1).mp ((h.2 nqn).mp hm).2⟩)]
      omega

end RecipientsAux

open RecipientsAux

/-! ## Subsystems and targets -/

/-- The list for a subsystem, and the one for a target, is right exactly when the subsystem, or one of the target, is open to all,
or the names of its hosts are `Mixed`. -/
theorem recipients_iff (reqs : List String) (subsys : Subsystem) (target : Target) :
    (Recipients (createEventHostListForSubsys reqs subsys) (fun nqn : String => nqn ∈ reqs ∧ subsys.Allows nqn) ↔
      subsys.isRestricted = false ∨ Mixed reqs (subsys.hostList.map Host.nqn)) ∧
    (Recipients (createEventHostListForTarget reqs target) (fun nqn : String => nqn ∈ reqs ∧ target.Allows nqn) ↔
      anySubsysUnrestricted target = true ∨
        Mixed reqs (target.subsysList.flatMap (fun subsys : Subsystem => subsys.hostList.map Host.nqn))) := by
  constructor
  · rw [recipients_congr_iff (forSubsys reqs subsys), mixed_iff]
    simp only [Subsystem.Allows, otherHost_iff]
    cases subsys.isRestricted with
    | false => simp
    | true => simp
  · rw [recipients_congr_iff (forTarget reqs target), mixed_iff]
    simp only [any_otherHost_iff]
    by_cases hopen : anySubsysUnrestricted target = true
    · obtain ⟨subsys, hs, hr⟩ := anySubsysUnrestricted_iff.mp hopen
      exact iff_of_true (fun req _ => iff_of_true (Or.inl hopen) ⟨subsys, hs, Or.inl hr⟩) (Or.inl hopen)
    · simp only [hopen]
      have hallows : ∀ nqn, target.Allows nqn ↔
          nqn ∈ target.subsysList.flatMap (fun subsys => subsys.hostList.map Host.nqn) := by
        intro nqn
        rw [List.mem_flatMap]
        constructor
        · rintro ⟨subsys, hs, hr | hm⟩
          · exact absurd (anySubsysUnrestricted_iff.mpr ⟨subsys, hs, hr⟩) hopen
          · exact ⟨subsys, hs, hm⟩
        · rintro ⟨subsys, hs, hm⟩
          exact ⟨subsys, hs, Or.inr hm⟩
      simp only [hallows, Bool.false_eq_true, false_or]

/-- The only host of a restricted subsystem has a request pending: it is not told, and another host is. -/
theorem not_recipients_single :
    let subsys : Subsystem := { nqn := "nqn.one", access := restricted, hostList := [{ name := "a", nqn := "nqn.a" }] }
    let target : Target := { ptr := 1, name := "t", subsysList := [subsys] }
    ¬Recipients (createEventHostListForSubsys ["nqn.a", "nqn.b"] subsys)
        (fun nqn : String => nqn ∈ ["nqn.a", "nqn.b"] ∧ subsys.Allows nqn) ∧
      ¬Recipients (createEventHostListForTarget ["nqn.a", "nqn.b"] target)
        (fun nqn : String => nqn ∈ ["nqn.a", "nqn.b"] ∧ target.Allows nqn) := by
  intro subsys target
  have hsub : (createEventHostListForSubsys ["nqn.a", "nqn.b"] subsys).map EventNotification.nqn = ["nqn.b"] := by decide
  have htgt : (createEventHostListForTarget ["nqn.a", "nqn.b"] target).map EventNotification.nqn = ["nqn.b"] := by decide
  have ha : subsys.Allows "nqn.a" := Or.inr (by decide)
  constructor
  · rintro ⟨_, h⟩
    have hm := (h "nqn.a").mpr ⟨by decide, ha⟩
    rw [hsub] at hm
    exact absurd hm (by decide)
  · rintro ⟨_, h⟩
    have hm := (h "nqn.a").mpr ⟨by decide, subsys, List.mem_singleton_self _, ha⟩
    rw [htgt] at hm
    exact absurd hm (by decide)

/-! ## Members of a group -/

namespace RecipientsAux

theorem any_groupHosts_iff {lists : Lists} {group : Group} {nqn : String} :
    lists.hostList.any (fun host => host.group == some group.ptr && host.nqn != nqn) = true ↔
      ∃ name ∈ groupNqns lists group, name ≠ nqn := by
  simp only [List.any_eq_true, groupNqns, List.mem_map, List.mem_filter, Bool.and_eq_true, bne_iff_ne]
  constructor
  · rintro ⟨link, hl, hg, hne⟩
    exact ⟨link.nqn, ⟨link, ⟨hl, hg⟩, rfl⟩, hne⟩
  · rintro ⟨_, ⟨link, ⟨hl, hg⟩, rfl⟩, hne⟩
    exact ⟨link, hl, hg, hne⟩

/-- A list that is made for no group is empty. -/
theorem forGroup_none (lists : Lists) (target : Target) : createEventHostListForGroup lists (fun _ => false) target = [] := by
  have h := forGroup lists (fun _ => false) target
  rw [← List.map_eq_nil_iff (f := EventNotification.nqn), List.eq_nil_iff_forall_not_mem]
  intro nqn hm
  have hany := ((h.2 nqn).mp hm).2
  simp at hany

/-- Nobody is told of a target that leaves a group: the list is not made, or made for no group. -/
theorem delTargetFromGroup_reqs {lists : Lists} {group : Group} {name : String} {target : Target}
    (hfind : findTarget lists name = some target) :
    ∃ lists', delTargetFromGroup lists (some group) name = .ok lists' ∧ lists'.aenReqList = lists.aenReqList := by
  unfold delTargetFromGroup
  rw [hfind]
  dsimp only
  split
  · split
    · exact ⟨_, rfl, rfl⟩
    · rw [forGroup_none]
      exact ⟨_, rfl, rfl⟩
  · exact ⟨_, rfl, rfl⟩

end RecipientsAux

/-- The hosts told of a target that comes to a group or goes are those of the group that may see it, exactly when they are
`MixedGroup` and, when it goes, there are none with a request pending. -/
theorem takenOnce_group_iff {lists : Lists} {group : Group} {name : String} {target : Target}
    (hfind : findTarget lists name = some target) :
    ((∃ lists' : Lists, addTargetToGroup lists (some group) name = .ok lists' ∧
        TakenOnce lists.aenReqList lists'.aenReqList
          (fun nqn : String => nqn ∈ groupNqns lists group ∧ target.Allows nqn)) ↔
      MixedGroup lists.aenReqList (groupNqns lists group) target.Allows) ∧
    ((∃ lists' : Lists, delTargetFromGroup lists (some group) name = .ok lists' ∧
        TakenOnce lists.aenReqList lists'.aenReqList
          (fun nqn : String => nqn ∈ groupNqns lists group ∧ target.Allows nqn)) ↔
      ∀ nqn ∈ lists.aenReqList, ¬(nqn ∈ groupNqns lists group ∧ target.Allows nqn)) := by
  constructor
  · have hlist := forGroup { lists.onTarget name (fun t => { t with groupMember := true }) with
      groupList := Keyed.modifyFirst (fun g => g.ptr == group.ptr)
        (fun g => { g with targetList := g.targetList ++ [target.ptr] }) lists.groupList }
      (fun link => link.group == some group.ptr) target
    have htaken := takenOnce_iff (q := fun nqn => nqn ∈ groupNqns lists group ∧ target.Allows nqn) hlist
    rw [mixedGroup_iff]
    unfold addTargetToGroup
    simp only [hfind, Except.ok.injEq, exists_eq_left']
    refine htaken.trans ?_
    simp only [Lists.onTarget, any_groupHosts_iff]
  · obtain ⟨lists', hdel, hreqs⟩ := @delTargetFromGroup_reqs lists group name target hfind
    simp only [hdel, Except.ok.injEq, exists_eq_left', hreqs]
    constructor
    · intro h nqn hr hp
      have := (h nqn).1 ⟨hr, hp⟩
      omega
    · intro h nqn
      exact ⟨fun hand => absurd hand.2 (h nqn hand.1), fun _ => rfl⟩

/-- A group with one host, and a target with a subsystem that is open to all. -/
def oneHostLists (reqs : List String) (linked : List Nat) : Lists :=
  { targetList := [{ ptr := 1, name := "t", subsysList := [{ nqn := "nqn.one", access := 1 }] }]
    groupList := [{ ptr := 2, name := "g", targetList := linked }]
    hostList := [{ group := some 2, name := "a", nqn := "nqn.a" }]
    aenReqList := reqs }

theorem takenOnce_group_iff_oneHost :
    (∃ lists' : Lists, addTargetToGroup (oneHostLists [] []) (some { ptr := 2, name := "g" }) "t" = .ok lists' ∧
        TakenOnce [] lists'.aenReqList (fun nqn : String =>
          nqn ∈ groupNqns (oneHostLists [] []) { ptr := 2, name := "g" } ∧
            Target.Allows { ptr := 1, name := "t", subsysList := [{ nqn := "nqn.one", access := 1 }] } nqn)) ∧
      ∃ lists' : Lists, delTargetFromGroup (oneHostLists ["nqn.b"] [1])
          (some { ptr := 2, name := "g", targetList := [1] }) "t" = .ok lists' ∧
        TakenOnce ["nqn.b"] lists'.aenReqList (fun nqn : String =>
          nqn ∈ groupNqns (oneHostLists ["nqn.b"] [1]) { ptr := 2, name := "g", targetList := [1] } ∧
            Target.Allows { ptr := 1, name := "t", subsysList := [{ nqn := "nqn.one", access := 1 }] } nqn) :=
  ⟨(@takenOnce_group_iff (oneHostLists [] []) _ "t" _ rfl).1.mpr (Or.inl rfl),
    (@takenOnce_group_iff (oneHostLists ["nqn.b"] [1]) _ "t" _ rfl).2.mpr (by
      intro nqn hr hp
      obtain rfl := List.mem_singleton.mp hr
      exact absurd hp.1 (by decide))⟩

/-- The group's only host and another one have a request pending: when the target comes, the other one is told, and when it
goes, nobody. -/
theorem not_takenOnce_oneHost :
    (¬∃ lists' : Lists, addTargetToGroup (oneHostLists ["nqn.a", "nqn.b"] []) (some { ptr := 2, name := "g" }) "t" =
          .ok lists' ∧
        TakenOnce ["nqn.a", "nqn.b"] lists'.aenReqList (fun nqn : String =>
          nqn ∈ groupNqns (oneHostLists ["nqn.a", "nqn.b"] []) { ptr := 2, name := "g" } ∧
            Target.Allows { ptr := 1, name := "t", subsysList := [{ nqn := "nqn.one", access := 1 }] } nqn)) ∧
      ¬∃ lists' : Lists, delTargetFromGroup (oneHostLists ["nqn.a", "nqn.b"] [1])
          (some { ptr := 2, name := "g", targetList := [1] }) "t" = .ok lists' ∧
        TakenOnce ["nqn.a", "nqn.b"] lists'.aenReqList (fun nqn : String =>
          nqn ∈ groupNqns (oneHostLists ["nqn.a", "nqn.b"] [1]) { ptr := 2, name := "g", targetList := [1] } ∧
            Target.Allows { ptr := 1, name := "t", subsysList := [{ nqn := "nqn.one", access := 1 }] } nqn) := by
  have hallows : Target.Allows { ptr := 1, name := "t", subsysList := [{ nqn := "nqn.one", access := 1 }] } "nqn.a" :=
    ⟨_, List.mem_singleton_self _, Or.inl (by decide)⟩
  constructor
  · rintro ⟨lists', hadd, htaken⟩
    have hreqs : (addTargetToGroup (oneHostLists ["nqn.a", "nqn.b"] []) (some { ptr := 2, name := "g" }) "t").map
        Lists.aenReqList = .ok ["nqn.a"] := by decide
    rw [hadd] at hreqs
    have hout : lists'.aenReqList = ["nqn.a"] := Except.ok.inj hreqs
    rw [hout] at htaken
    exact absurd ((htaken "nqn.a").1 ⟨by decide, by decide, hallows⟩) (by decide)
  · rintro ⟨lists', hdel, htaken⟩
    have hreqs : (delTargetFromGroup (oneHostLists ["nqn.a", "nqn.b"] [1])
        (some { ptr := 2, name := "g", targetList := [1] }) "t").map Lists.aenReqList = .ok ["nqn.a", "nqn.b"] := by decide
    rw [hdel] at hreqs
    have hout : lists'.aenReqList = ["nqn.a", "nqn.b"] := Except.ok.inj hreqs
    rw [hout] at htaken
    exact absurd ((htaken "nqn.a").1 ⟨by decide, by decide, hallows⟩) (by decide)

end NvmeDem
