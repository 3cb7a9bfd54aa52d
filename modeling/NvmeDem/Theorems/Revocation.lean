import NvmeDem.Dem.Groups
import NvmeDem.Lemmas.LoadedGroups

/-!
# A host that leaves a group

What a host may see of the targets of a group hangs on the links of the group. A member is stored under its alias and deleted
under its alias, but its link is looked for by NQN: the link stays, and with it the access, unless the host's alias is its NQN.
-/

namespace NvmeDem

open Jansson Keyed

/-- The links are those of the members that the store has: one for each, and no other. -/
structure OneLinkEach (d : Daemon) : Prop where
  ptrs : (d.lists.groupList.map Group.ptr).Nodup
  once : (d.lists.hostList.map (fun link => (link.group, link.name))).Nodup
  linked : ∀ name i x m, GroupAt d.root name i x → m ∈ x.strings tagHosts →
    ∃ group, findGroup d.lists name = some group ∧ ∃ link ∈ d.lists.hostList, link.group = some group.ptr ∧ link.name = m
  stored : ∀ link ∈ d.lists.hostList, ∃ group i x, findGroup d.lists group.name = some group ∧
    link.group = some group.ptr ∧ GroupAt d.root group.name i x ∧ link.name ∈ x.strings tagHosts

/-- A group other than `group` has a host and a target. -/
def SharedElsewhere (lists : Lists) (group : Group) (host : String) (target : Target) : Prop :=
  ∃ other ∈ lists.groupList, other.ptr ≠ group.ptr ∧ target.ptr ∈ other.targetList ∧
    ∃ link ∈ lists.hostList, link.group = some other.ptr ∧ link.name = host

/-- Both searches for a group of the host and the target return, and find one if and only if `P`. -/
def SearchesTell (lists : Lists) (target : Target) (nqn host : String) (P : Prop) : Prop :=
  (∃ b : Bool, sharedGroup lists target nqn = .ok b ∧ (b = true ↔ P)) ∧
    ∃ b : Bool, indirectSharedGroup lists target host = .ok b ∧ (b = true ↔ P)

namespace RevocationAux

variable {d : Daemon} {lists : Lists} {target : Target} {group : Group} {host nqn : String}

/-- The searches go by the links of the host, which its alias and its NQN tell alike. -/
theorem searchesTell_iff (hptrs : (lists.groupList.map Group.ptr).Nodup)
    (hlinks : ∀ link ∈ lists.hostList, ∃ g ∈ lists.groupList, link.group = some g.ptr)
    (hsame : ∀ link ∈ lists.hostList, link.nqn = nqn ↔ link.name = host) (P : Prop) :
    SearchesTell lists target nqn host P ↔
      ((∃ link ∈ lists.hostList, link.name = host ∧
        ∃ g ∈ lists.groupList, link.group = some g.ptr ∧ target.ptr ∈ g.targetList) ↔ P) := by
  have hsearch : ∀ isHost : GroupHostLink → Bool, (∀ link ∈ lists.hostList, isHost link = true ↔ link.name = host) →
      ((∃ b, sharesGroup lists.groupList target isHost lists.hostList = .ok b ∧ (b = true ↔ P)) ↔
        ((∃ link ∈ lists.hostList, link.name = host ∧
          ∃ g ∈ lists.groupList, link.group = some g.ptr ∧ target.ptr ∈ g.targetList) ↔ P)) := by
    intro isHost hhost
    rw [sharesGroup_eq hptrs hlinks]
    simp only [Except.ok.injEq, exists_eq_left', List.any_eq_true, Bool.and_eq_true, beq_iff_eq, decide_eq_true_eq]
    refine iff_congr (exists_congr (fun link => and_congr_right (fun hl => ?_))) Iff.rfl
    rw [hhost link hl]
  have hnqn := hsearch (fun link => link.nqn == nqn) (fun link hl => by rw [beq_iff_eq]; exact hsame link hl)
  have hname := hsearch (fun link => link.name == host) (fun link _ => beq_iff_eq)
  unfold SearchesTell sharedGroup indirectSharedGroup
  rw [hnqn, hname, and_self_iff]

theorem OneLinkEach.link (h : OneLinkEach d) {i : Nat} {x : Json} (hx : GroupAt d.root group.name i x)
    (hfind : findGroup d.lists group.name = some group) (hm : host ∈ x.strings tagHosts) :
    ∃ link ∈ d.lists.hostList, link.group = some group.ptr ∧ link.name = host := by
  obtain ⟨group', hfind', hlink⟩ := h.linked group.name i x host hx hm
  obtain rfl := Option.some.inj (hfind.symm.trans hfind')
  exact hlink

theorem OneLinkEach.leads (h : OneLinkEach d) :
    ∀ link ∈ d.lists.hostList, ∃ g ∈ d.lists.groupList, link.group = some g.ptr := by
  intro link hl
  obtain ⟨g, i, x, hfind, hgroup, -, -⟩ := h.stored link hl
  exact ⟨g, List.mem_of_find?_eq_some hfind, hgroup⟩

/-- A link with the NQN `host` is removed from the group: of the links of the host itself, that one goes if `host` is its NQN,
and none otherwise. -/
theorem mem_delHostFromGroup (h : OneLinkEach d) (hsame : ∀ link ∈ d.lists.hostList, link.nqn = nqn ↔ link.name = host)
    {link : GroupHostLink} (hname : link.name = host) :
    link ∈ (delHostFromGroup d.lists (some group) host).hostList ↔
      link ∈ d.lists.hostList ∧ (nqn = host → link.group ≠ some group.ptr) := by
  unfold delHostFromGroup
  dsimp only [Option.map_some]
  by_cases hn : nqn = host
  · subst hn
    have hmatch : ∀ l ∈ d.lists.hostList,
        (l.group == some group.ptr && l.nqn == nqn) = true → l.group = some group.ptr ∧ l.name = nqn := by
      intro l hl hp
      rw [Bool.and_eq_true, beq_iff_eq, beq_iff_eq, hsame l hl] at hp
      exact hp
    rw [mem_eraseP_of_unique (h.once.of_map _)]
    · refine and_congr_right (fun hl => ?_)
      rw [Bool.and_eq_true, beq_iff_eq, beq_iff_eq, hsame link hl]
      simp [hname]
    · intro l hl l' hl' hp hp'
      obtain ⟨hg, hk⟩ := hmatch l hl hp
      obtain ⟨hg', hk'⟩ := hmatch l' hl' hp'
      exact List.inj_on_of_nodup_map h.once hl hl' (by rw [hg, hk, hg', hk'])
  · constructor
    · exact fun hm => ⟨List.mem_of_mem_eraseP hm, fun heq => absurd heq hn⟩
    · rintro ⟨hl, -⟩
      refine (List.mem_eraseP_of_neg ?_).mpr hl
      rw [Bool.and_eq_true, beq_iff_eq, not_and]
      intro _
      rw [beq_iff_eq, (hsame link hl).mpr hname]
      exact hn

end RevocationAux

open RevocationAux

/-- After a host left a group, the searches for the groups that it shares with a target of the group find one exactly when another
group has both, if and only if the host's alias is its NQN or there is such a group. -/
theorem revoked_iff {d : Daemon} {a : Answer} {name host nqn : String} {group : Group} {target : Target} (h : OneLinkEach d)
    (hfind : findGroup d.lists name = some group) (htarget : target.ptr ∈ group.targetList)
    (hsame : ∀ link ∈ d.lists.hostList, link.nqn = nqn ↔ link.name = host)
    (hr : delGroupMember d name (some host) .host = .ok a) (hret : a.ret = 0) :
    SearchesTell a.dem.lists target nqn host (SharedElsewhere d.lists group host target) ↔
      nqn = host ∨ SharedElsewhere d.lists group host target := by
  obtain ⟨r, hstore, hr⟩ := afterStore_ok hr
  rcases hr with ⟨hne, rfl⟩ | ⟨hz, hr⟩
  · exact absurd hret hne
  · rcases delJsonGroupMember_ok hstore with ⟨hne, -⟩ | ⟨-, i, x, j, m, hx, hm, -, hget, -⟩
    · exact absurd hz hne
    · obtain rfl := Option.some.inj hm
      have hname : group.name = name := by simpa [findGroup] using List.find?_some hfind
      subst hname
      have hgroup := List.mem_of_find?_eq_some hfind
      have hmember : host ∈ x.strings tagHosts := List.mem_filterMap.mpr ⟨_, List.mem_of_getElem? hget, rfl⟩
      obtain ⟨link, hl, hlgroup, hlname⟩ := OneLinkEach.link h hx hfind hmember
      rw [hfind] at hr
      cases hr
      have hleft := fun l => @mem_delHostFromGroup d group host nqn h hsame l
      have hsub : ∀ l ∈ (delHostFromGroup d.lists (some group) host).hostList, l ∈ d.lists.hostList :=
        fun l hl => List.mem_of_mem_eraseP hl
      refine (@searchesTell_iff (delHostFromGroup d.lists (some group) host) target host nqn h.ptrs
        (fun l hl => OneLinkEach.leads h l (hsub l hl)) (fun l hl => hsame l (hsub l hl)) _).trans ?_
      constructor
      · intro htell
        by_cases hn : nqn = host
        · exact Or.inl hn
        · -- the link of the group is still there, and leads to the target
          exact Or.inr (htell.mp ⟨link, (hleft link hlname).mpr ⟨hl, fun heq => absurd heq hn⟩, hlname, group, hgroup, hlgroup,
            htarget⟩)
      · rintro hor
        constructor
        · rintro ⟨l, hl', hln, other, hother, hgo, hto⟩
          rcases hor with hn | hother
          · obtain ⟨hold, hne⟩ := (hleft l hln).mp hl'
            exact ⟨other, hother, fun heq => hne hn (by rw [hgo, heq]), hto, l, hold, hgo, hln⟩
          · exact hother
        · rintro ⟨other, hother, hne, hto, l, hold, hgo, hln⟩
          exact ⟨l, (hleft l hln).mpr ⟨hold, fun _ heq => hne (Option.some.inj (hgo.symm.trans heq))⟩, hln, other, hother, hgo, hto⟩

/-- A daemon with a host in a group with a target. -/
def sharedDaemon (nqn : String) : Daemon where
  root := .object [(tagGroups, .array [.object [(tagName, .string "g"), (tagHosts, .array [.string "h"])]])]
  lists :=
    { targetList := [{ ptr := 7, name := "t", groupMember := true }]
      groupList := [{ ptr := 1, name := "g", targetList := [7] }]
      hostList := [{ group := some 1, name := "h", nqn := nqn }] }

theorem sharedDaemon_links (nqn : String) : OneLinkEach (sharedDaemon nqn) where
  ptrs := List.nodup_singleton _
  once := List.nodup_singleton _
  linked := by
    intro name i x m hx hm
    obtain rfl := List.mem_singleton.mp (List.mem_of_getElem? hx.get)
    obtain rfl : "g" = name := Option.some.inj hx.key
    obtain rfl := List.mem_singleton.mp (hm : m ∈ ["h"])
    exact ⟨_, rfl, _, List.mem_singleton_self _, rfl, rfl⟩
  stored := by
    intro link hl
    obtain rfl := List.mem_singleton.mp hl
    exact ⟨{ ptr := 1, name := "g", targetList := [7] }, 0, _, rfl, rfl, ⟨rfl, rfl, rfl⟩, List.mem_singleton_self _⟩

/-- A host whose alias is its NQN leaves a group. -/
theorem revoked_iff_alias :
    ∃ a : Answer, delGroupMember (sharedDaemon "h") "g" (some "h") .host = .ok a ∧
      SearchesTell a.dem.lists { ptr := 7, name := "t" } "h" "h"
        (SharedElsewhere (sharedDaemon "h").lists { ptr := 1, name := "g", targetList := [7] } "h"
          { ptr := 7, name := "t" }) :=
  ⟨_, rfl, (@revoked_iff (sharedDaemon "h") _ "g" "h" "h" _ { ptr := 7, name := "t" } (sharedDaemon_links "h") rfl
    (List.mem_singleton_self 7) (fun link hl => by
      obtain rfl := List.mem_singleton.mp hl
      exact Iff.rfl) rfl rfl).mpr (Or.inl rfl)⟩

/-- A host with an NQN of its own leaves its only group, and still shares it with the target. -/
theorem revoked_keeps_access :
    ¬∀ (d : Daemon) (a : Answer) (name host nqn : String) (group : Group) (target : Target), OneLinkEach d →
      findGroup d.lists name = some group → target.ptr ∈ group.targetList →
      (∀ link ∈ d.lists.hostList, link.nqn = nqn ↔ link.name = host) →
      delGroupMember d name (some host) .host = .ok a → a.ret = 0 →
        SearchesTell a.dem.lists target nqn host (SharedElsewhere d.lists group host target) := by
  intro h
  have htell := h (sharedDaemon "nqn.h") _ "g" "h" "nqn.h" _ { ptr := 7, name := "t" } (sharedDaemon_links "nqn.h") rfl
    (List.mem_singleton_self 7) (fun link hl => by
      obtain rfl := List.mem_singleton.mp hl
      exact iff_of_true rfl rfl) rfl rfl
  obtain ⟨b, hb, hiff⟩ := htell.1
  obtain rfl : true = b := Except.ok.inj ((by decide :
    sharedGroup (delHostFromGroup (sharedDaemon "nqn.h").lists (some { ptr := 1, name := "g", targetList := [7] }) "h")
      { ptr := 7, name := "t" } "nqn.h" = .ok true).symm.trans hb)
  obtain ⟨other, hother, hne, -⟩ := hiff.mp rfl
  obtain rfl := List.mem_singleton.mp hother
  exact hne rfl

end NvmeDem
