import NvmeDem.Dem.State
import Mathlib.Data.List.Count

/-!
# Notifying hosts of a change

A host that wants to hear of changes leaves an async-event request with the daemon. A change is told to the hosts that have one
pending: for each NQN the first request of the list is answered and taken off it. Which hosts are told depends on what changed.

A pending request is the NQN of the host that made it; each host has one connection.
-/

namespace NvmeDem

/-- An entry of the list of hosts to notify. -/
structure EventNotification where
  nqn : String
  valid : Bool := false
  deriving DecidableEq, Repr

def inNotificationList (list : List EventNotification) (nqn : String) : Bool := list.any (fun entry => nqn == entry.nqn)

/-- One entry for each NQN that has a request pending. -/
def createNotificationList (aenReqList : List String) : List EventNotification :=
  aenReqList.foldl (fun list req => if inNotificationList list req then list else list ++ [{ nqn := req }]) []

def anySubsysUnrestricted (target : Target) : Bool := target.subsysList.any (fun subsys => !subsys.isRestricted)

/-- Flags an entry when a host of the group (`isGroup`) has another NQN. -/
def flagByGroupHosts (hostList : List GroupHostLink) (isGroup : GroupHostLink → Bool) (list : List EventNotification) :
    List EventNotification :=
  list.map (fun entry =>
    if hostList.any (fun host => isGroup host && host.nqn != entry.nqn) then { entry with valid := true } else entry)

/-- Flags an entry when a host of the subsystem has another NQN. -/
def flagByAccessList (subsys : Subsystem) (list : List EventNotification) : List EventNotification :=
  list.map (fun entry => if subsys.hostList.any (fun host => host.nqn != entry.nqn) then { entry with valid := true } else entry)

def pruneNotificationList (list : List EventNotification) : List EventNotification := list.filter (fun entry => entry.valid)

def enableEntireList (list : List EventNotification) : List EventNotification :=
  list.map (fun entry => { entry with valid := true })

def createEventHostListForSubsys (aenReqList : List String) (subsys : Subsystem) : List EventNotification :=
  let list := createNotificationList aenReqList
  if list.isEmpty then list
  else if !subsys.isRestricted then enableEntireList list
  else pruneNotificationList (flagByAccessList subsys list)

/-- The end of the lists for a group and for a target: the hosts that may see a subsystem of the target. -/
def flagByTarget (target : Target) (list : List EventNotification) : List EventNotification :=
  if anySubsysUnrestricted target then enableEntireList list
  else pruneNotificationList (target.subsysList.foldl (fun list subsys => flagByAccessList subsys list) list)

def createEventHostListForGroup (lists : Lists) (isGroup : GroupHostLink → Bool) (target : Target) : List EventNotification :=
  let list := createNotificationList lists.aenReqList
  if list.isEmpty then list
  else
    let list := pruneNotificationList (flagByGroupHosts lists.hostList isGroup list)
    if list.isEmpty then list else flagByTarget target list

def createEventHostListForTarget (aenReqList : List String) (target : Target) : List EventNotification :=
  let list := createNotificationList aenReqList
  if list.isEmpty then list else flagByTarget target list

/-- One entry for a host, if it has a request pending. -/
def createEventHostListForHost (aenReqList : List String) (nqn : String) : List EventNotification :=
  if nqn ∈ aenReqList then [{ nqn := nqn }] else []

/-- The hosts that are sent a notification, and the requests that are still pending after it. -/
def sendNotifications (list : List EventNotification) (aenReqList : List String) : List String × List String :=
  (list.map EventNotification.nqn, list.foldl (fun reqs entry => reqs.erase entry.nqn) aenReqList)

/-! ## What a notification takes off the list -/

theorem inNotificationList_iff {list : List EventNotification} {nqn : String} :
    inNotificationList list nqn = true ↔ nqn ∈ list.map EventNotification.nqn := by
  simp only [inNotificationList, List.any_eq_true, beq_iff_eq, List.mem_map]
  constructor
  · rintro ⟨entry, he, rfl⟩
    exact ⟨entry, he, rfl⟩
  · rintro ⟨entry, he, rfl⟩
    exact ⟨entry, he, rfl⟩

/-- The list so far, and after one more request. -/
theorem createNotificationList_aux (reqs : List String) (list : List EventNotification)
    (hd : (list.map EventNotification.nqn).Nodup) :
    let out := reqs.foldl (fun list req => if inNotificationList list req then list else list ++ [{ nqn := req }]) list
    (out.map EventNotification.nqn).Nodup ∧
      ∀ nqn, nqn ∈ out.map EventNotification.nqn ↔ nqn ∈ list.map EventNotification.nqn ∨ nqn ∈ reqs := by
  induction reqs generalizing list with
  | nil => exact ⟨hd, fun nqn => by simp⟩
  | cons req reqs ih =>
    rw [List.foldl_cons]
    by_cases h : inNotificationList list req = true
    · rw [if_pos h]
      obtain ⟨h1, h2⟩ := ih list hd
      refine ⟨h1, fun nqn => ?_⟩
      have hreq := inNotificationList_iff.mp h
      rw [h2, List.mem_cons]
      constructor
      · rintro (h | h)
        · exact Or.inl h
        · exact Or.inr (Or.inr h)
      · rintro (h | rfl | h)
        · exact Or.inl h
        · exact Or.inl hreq
        · exact Or.inr h
    · rw [if_neg h]
      have hnot : req ∉ list.map EventNotification.nqn := fun hm => h (inNotificationList_iff.mpr hm)
      have hd' : ((list ++ [({ nqn := req } : EventNotification)]).map EventNotification.nqn).Nodup :=
        Keyed.nodup_map_concat hd hnot
      obtain ⟨h1, h2⟩ := ih _ hd'
      refine ⟨h1, fun nqn => ?_⟩
      rw [h2, List.map_append, List.mem_append, List.mem_cons]
      simp [or_assoc]

theorem nodup_createNotificationList (reqs : List String) :
    ((createNotificationList reqs).map EventNotification.nqn).Nodup :=
  (createNotificationList_aux reqs [] List.nodup_nil).1

theorem mem_createNotificationList {reqs : List String} {nqn : String} :
    nqn ∈ (createNotificationList reqs).map EventNotification.nqn ↔ nqn ∈ reqs := by
  have h := (createNotificationList_aux reqs [] List.nodup_nil).2 nqn
  simpa [createNotificationList] using h

/-- Everyone with a request is told of a change of a subsystem that is open to every host. -/
theorem createEventHostListForSubsys_nqns {subsys : Subsystem} (h : subsys.isRestricted = false) (reqs : List String) :
    (createEventHostListForSubsys reqs subsys).map EventNotification.nqn =
      (createNotificationList reqs).map EventNotification.nqn := by
  unfold createEventHostListForSubsys
  dsimp only
  split
  · rfl
  · rw [h]
    simp [enableEntireList, Function.comp_def]

/-- A host whose NQN is on the list once loses one request, if it has any; a host that is not on it loses none. -/
theorem count_sendNotifications (list : List EventNotification) (reqs : List String) (nqn : String)
    (hd : (list.map EventNotification.nqn).Nodup) :
    (sendNotifications list reqs).2.count nqn =
      reqs.count nqn - (if nqn ∈ list.map EventNotification.nqn then 1 else 0) := by
  unfold sendNotifications
  dsimp only
  induction list generalizing reqs with
  | nil => simp
  | cons entry list ih =>
    rw [List.map_cons, List.nodup_cons] at hd
    rw [List.foldl_cons, ih _ hd.2, List.map_cons]
    by_cases he : nqn = entry.nqn
    · subst he
      rw [if_neg hd.1, if_pos List.mem_cons_self, List.count_erase_self]
      omega
    · rw [List.count_erase_of_ne he]
      simp [he]

/-- A change of an open subsystem takes one request of a host that has any, and tells that host once. -/
theorem notify_open {subsys : Subsystem} (h : subsys.isRestricted = false) (reqs : List String) (nqn : String) :
    let out := sendNotifications (createEventHostListForSubsys reqs subsys) reqs
    out.1.count nqn = (if nqn ∈ reqs then 1 else 0) ∧ out.2.count nqn + out.1.count nqn = reqs.count nqn := by
  have hnqns := createEventHostListForSubsys_nqns h reqs
  have hd := nodup_createNotificationList reqs
  rw [← hnqns] at hd
  have hmem : nqn ∈ (createEventHostListForSubsys reqs subsys).map EventNotification.nqn ↔ nqn ∈ reqs := by
    rw [hnqns, mem_createNotificationList]
  have hout : (sendNotifications (createEventHostListForSubsys reqs subsys) reqs).1.count nqn =
      if nqn ∈ reqs then 1 else 0 := by
    unfold sendNotifications
    by_cases hr : nqn ∈ reqs
    · rw [if_pos hr]
      exact List.count_eq_one_of_mem hd (hmem.mpr hr)
    · rw [if_neg hr]
      exact List.count_eq_zero.mpr (fun hm => hr (hmem.mp hm))
  refine ⟨hout, ?_⟩
  rw [hout, count_sendNotifications _ _ _ hd]
  simp only [hmem]
  by_cases hr : nqn ∈ reqs
  · have hpos := List.count_pos_iff.mpr hr
    simp only [if_pos hr]
    omega
  · simp [hr]

end NvmeDem
