import NvmeDem.Dem.Logpages
import NvmeDem.Lemmas.Loaded

/-!
# The two views of the log pages

A host on the fabric is given the log pages of its NQN, the REST interface shows those of its alias. The two are the same as long
as every copy of a host in the lists has the alias and the NQN of one host of the store.

A request can break that in four ways. An update of a host without an NQN in its body writes to the records what was in the
buffer for it. An update never reaches the links of a host, and neither does a deletion. A deletion skips the records of
subsystems that are open to every host. A host without an NQN is linked to a group with what was in the buffer.
-/

namespace NvmeDem

open Jansson

/-! ## Alias and NQN decide alike -/

/-- Among copies of hosts of the store, those of a host are told by its alias as well as by its NQN, if no other host has it. -/
theorem name_iff_nqn {root : Json} {a n b m : String} (hn : (root.keys tagHosts tagAlias).Nodup) (hhost : IsHost root a n)
    (huniq : (root.keys tagHosts tagHostnqn).count n = 1) (hcopy : IsHost root b m) : b = a ↔ m = n := by
  rw [keys_eq_hostPairs] at hn
  rw [nqns_eq_hostPairs] at huniq
  constructor
  · rintro rfl
    have heq := Keyed.eq_of_count_le_one (List.nodup_iff_count_le_one.mp hn b) hcopy hhost rfl rfl
    exact Option.some.inj (congrArg Prod.snd heq)
  · rintro rfl
    have heq := Keyed.eq_of_count_le_one (Nat.le_of_eq huniq) hcopy hhost rfl rfl
    exact Option.some.inj (congrArg Prod.fst heq)

theorem sharesGroup_congr {groups : List Group} {target : Target} {p q : GroupHostLink → Bool} {links : List GroupHostLink}
    (h : ∀ l ∈ links, p l = q l) : sharesGroup groups target p links = sharesGroup groups target q links := by
  induction links with
  | nil => rfl
  | cons l links ih =>
    have htail := ih (fun x hx => h x (List.mem_cons_of_mem l hx))
    simp only [sharesGroup, h l List.mem_cons_self, htail]

theorem walkLogPages_congr {inTarget inTarget' : Target → Except Fault Bool} {inSubsys inSubsys' : Subsystem → Bool}
    {targets : List Target} (ht : ∀ t ∈ targets, inTarget t = inTarget' t)
    (hs : ∀ t ∈ targets, ∀ s ∈ t.subsysList, inSubsys s = inSubsys' s) :
    walkLogPages inTarget inSubsys targets = walkLogPages inTarget' inSubsys' targets := by
  induction targets with
  | nil => rfl
  | cons t targets ih =>
    have htail := ih (fun u hu => ht u (List.mem_cons_of_mem t hu)) (fun u hu => hs u (List.mem_cons_of_mem t hu))
    have hfilter : t.subsysList.filter inSubsys = t.subsysList.filter inSubsys' :=
      List.filter_congr (hs t List.mem_cons_self)
    simp only [walkLogPages, ht t List.mem_cons_self, htail, hfilter]

/-- Where the copies mirror the hosts, the views of a host are the same. -/
theorem Mirrored.views {d : Daemon} (h : Mirrored d) {a n : String} (hhost : IsHost d.root a n)
    (huniq : (d.root.keys tagHosts tagHostnqn).count n = 1) : hostLogpage d.lists a = handleGetLogPages d.lists n := by
  unfold hostLogpage handleGetLogPages
  refine walkLogPages_congr (fun t _ => sharesGroup_congr (fun l hl => ?_)) (fun t ht s hs => ?_)
  · have hiff := name_iff_nqn h.hosts hhost huniq (h.links l hl)
    rw [Bool.eq_iff_iff, beq_iff_eq, beq_iff_eq]
    exact hiff
  · have hmem : s ∈ d.lists.subsystems := List.mem_flatMap.mpr ⟨t, ht, hs⟩
    have hany : s.hostList.any (fun y => y.name == a) = hostAccess s n := by
      rw [Bool.eq_iff_iff, hostAccess, List.any_eq_true, List.any_eq_true]
      refine exists_congr (fun y => and_congr_right (fun hy => ?_))
      rw [beq_iff_eq, beq_iff_eq]
      exact name_iff_nqn h.hosts hhost huniq (h.records s hmem y hy)
    rw [hany]
    unfold Subsystem.isRestricted restricted
    by_cases h0 : s.access = 0 <;> simp [h0]

/-! ## The requests that keep the copies -/

/-- What a request has to meet where it is made. -/
def Request.Keeps (J : JsonLib) (d : Daemon) : Request → Prop
  | .updateHost (some old) data =>
    ∀ body, J.loads data = some body → Mirrored.NameFree d.root old body → Mirrored.KeepsCopies d old body
  | .delHost (some name) =>
    (∀ l ∈ d.lists.hostList, l.name ≠ name) ∧
      ∀ s ∈ d.lists.subsystems, s.isRestricted = false → ∀ y ∈ s.hostList, y.name ≠ name
  | .setGroupMember _ data member .host =>
    ∀ m, memberAlias J data member = some m → m ∈ d.root.keys tagHosts tagAlias → ∃ nqn, IsHost d.root m nqn
  | _ => True

theorem step_mirrored {J : JsonLib} {op : World × Request} {d d' : Daemon} (h : Mirrored d) (hk : op.2.Keeps J d)
    (hs : demStep J op d d') : Mirrored d' := by
  obtain ⟨w, req⟩ := op
  obtain ⟨-, a, hr, rfl⟩ := hs
  cases req with
  | addGroup => exact (Quiet.addGroup hr).mirrored h
  | updateGroup => exact (Quiet.updateGroup hr).mirrored h
  | setGroupMember name data member kind =>
    cases kind with
    | host => exact h.setHostMember hk hr
    | target => exact (Quiet.setTargetMember hr).mirrored h
  | delGroupMember => exact (Quiet.delGroupMember hr).mirrored h
  | delGroup => exact (Quiet.delGroup hr).mirrored h
  | addHost => exact h.addHost hr
  | updateHost host data =>
    refine h.updateHost (fun old body hold hbody => ?_) hr
    subst hold
    exact hk body hbody
  | delHost host =>
    refine h.delHost (fun name hname => ?_) (fun name hname => ?_) hr
    · subst hname
      exact hk.1
    · subst hname
      exact hk.2
  | linkHost => exact h.linkHost hr
  | unlinkHost => exact (Quiet.unlinkHost hr).mirrored h
  | setSubsys => exact (Quiet.setSubsys hr).mirrored h
  | delSubsys => exact (Quiet.delSubsys hr).mirrored h
  | setPortid => exact (Quiet.setPortid hr).mirrored h
  | delPortid => exact (Quiet.delPortid hr).mirrored h
  | setNs => exact (Quiet.setNs hr).mirrored h
  | delNs => exact (Quiet.delNs hr).mirrored h
  | addTarget => exact (Quiet.addTarget hr).mirrored h
  | updateTarget => exact (Quiet.updateTarget hr).mirrored h
  | delTarget => exact (Quiet.delTarget hr).mirrored h
  | setInterface => exact (Quiet.setInterface hr).mirrored h
  | targetRefresh tgt =>
    cases hr
    exact (Quiet.targetRefresh tgt).mirrored h
  | targetReconfig tgt =>
    cases hr
    exact (Quiet.targetReconfig tgt).mirrored h

/-- A host, a target with a subsystem that is open to every host, and a group of the two. -/
def groupConfig (nqn : String) : Json :=
  .object
    [(tagHosts, .array [.object [(tagAlias, .string "h"), (tagHostnqn, .string nqn)]]),
     (tagTargets, .array [.object [(tagAlias, .string "t"),
       (tagSubsystems, .array [.object [(tagSubnqn, .string "s"), (tagAllowAny, .integer 1)]])]]),
     (tagGroups, .array [.object [(tagName, .string "g"), (tagTargets, .array [.string "t"]), (tagHosts, .array [.string "h"])]])]

theorem groupConfig_copyable (nqn : String) : Copyable (groupConfig nqn) where
  hosts := List.nodup_singleton "h"
  acls := by
    intro t ht s hs
    obtain rfl := List.mem_singleton.mp ht
    obtain rfl := List.mem_singleton.mp hs
    exact List.nodup_nil
  groups := by
    intro g hg m hm
    obtain rfl := List.mem_singleton.mp hg
    obtain rfl := List.mem_singleton.mp hm
    exact ⟨nqn, List.mem_singleton.mpr rfl⟩

/-- A world in which a log comes in with one entry, of the subsystem. -/
def logWorld : World := { logs := fun _ => [.fetch 0 [{ subnqn := "s" }]], addr := 2 }

/-- The texts of two bodies, each of which gives the NQN of a host. -/
def sameNqnText : String := "\x7b\"HOSTNQN\":\"q\"\x7d"
def otherNqnText : String := "\x7b\"HOSTNQN\":\"p\"\x7d"

def nqnBodies : JsonLib :=
  .ofTexts [(sameNqnText, .object [(tagHostnqn, .string "q")]), (otherNqnText, .object [(tagHostnqn, .string "p")])]

/-- The lists that are built from the configuration, with the log page. -/
def groupLists : Lists where
  targetList :=
    [{ ptr := 0, name := "t", groupMember := true
       subsysList := [{ nqn := "s", access := 1, logpageList := [{ portid := 0, e := { subnqn := "s" }, valid := true }] }] }]
  groupList := [{ ptr := 0, name := "g", targetList := [0] }]
  hostList := [{ group := some 0, name := "h", nqn := "q" }]

end NvmeDem
