import NvmeDem.Dem.Logpages
import NvmeDem.Lemmas.Loaded

/-!
# The groups that a load makes

A load links each group of the configuration to the targets and to the hosts that it names. `GroupsLoaded` says what the lists
hold when some of the groups are loaded, as a function of their entries.
-/

namespace NvmeDem

open Jansson Keyed

/-! ## Links -/

/-- The targets of the lists: their aliases and where they are. -/
def Lists.places (lists : Lists) : List (String × Nat) := lists.targetList.map (fun t => (t.name, t.ptr))

/-- A target without its flag. -/
def Target.unflagged (target : Target) : Target := { target with groupMember := false }

theorem Target.of_unflagged {t t' : Target} (h : t.unflagged = t'.unflagged) :
    t.name = t'.name ∧ t.ptr = t'.ptr ∧ t.subsysList = t'.subsysList := by
  refine ⟨?_, ?_, ?_⟩
  · have hname := congrArg Target.name h
    exact hname
  · have hptr := congrArg Target.ptr h
    exact hptr
  · have hsubsystems := congrArg Target.subsysList h
    exact hsubsystems

def Lists.unflagged (lists : Lists) : List Target := lists.targetList.map Target.unflagged

theorem unflagged_setFlag (lists : Lists) (name : String) (flag : Bool) :
    (lists.onTarget name (fun t => { t with groupMember := flag })).unflagged = lists.unflagged :=
  map_modifyFirst_same (g := fun t : Target => { t with groupMember := flag }) (r := Target.unflagged) (fun _ => rfl) _

/-- The flag of a target has nothing to do with where it is. -/
theorem places_of_unflagged {lists lists' : Lists} (h : lists'.unflagged = lists.unflagged) : lists'.places = lists.places := by
  have hplaces : ∀ l : Lists, l.places = l.unflagged.map (fun t => (t.name, t.ptr)) := by
    intro l
    rw [Lists.unflagged, List.map_map]
    rfl
  rw [hplaces, hplaces, h]

/-- Where the target with an alias is. -/
def placeOf (known : List (String × Nat)) (name : String) : Option Nat := (known.find? (fun k => k.1 == name)).map Prod.snd

theorem findTarget_map_ptr (lists : Lists) (name : String) :
    (findTarget lists name).map Target.ptr = placeOf lists.places name := by
  rw [placeOf, Lists.places, List.find?_map, Option.map_map]
  rfl

/-- When aliases are distinct, an alias is found where it is. -/
theorem placeOf_eq_some {known : List (String × Nat)} {name : String} {ptr : Nat} (h : (known.map Prod.fst).Nodup) :
    placeOf known name = some ptr ↔ (name, ptr) ∈ known := by
  constructor
  · intro hplace
    obtain ⟨k, hk, rfl⟩ := Option.map_eq_some_iff.mp hplace
    have hp := List.find?_some hk
    obtain rfl : k.1 = name := beq_iff_eq.mp hp
    exact List.mem_of_find?_eq_some hk
  · intro hmem
    have hfind : known.find? (fun k => k.1 == name) = some (name, ptr) := find?_of_mem h hmem
    rw [placeOf, hfind]
    rfl

/-! ## A group -/

/-- A target is linked to a group, if it is there. -/
theorem addTargetToGroup_ok {lists lists' : Lists} {group : Group} {name : String}
    (h : addTargetToGroup lists (some group) name = .ok lists') :
    lists'.unflagged = lists.unflagged ∧ lists'.hostList = lists.hostList ∧
      lists'.groupList = modifyFirst (fun g => g.ptr == group.ptr)
        (fun g => { g with targetList := g.targetList ++ (placeOf lists.places name).toList }) lists.groupList := by
  have hplace := findTarget_map_ptr lists name
  unfold addTargetToGroup at h
  split at h
  · rename_i hfind
    cases h
    rw [hfind, Option.map_none] at hplace
    refine ⟨rfl, rfl, ?_⟩
    simp only [← hplace, Option.toList_none, List.append_nil]
    exact (modifyFirst_id _).symm
  · rename_i target hfind
    cases h
    rw [hfind, Option.map_some] at hplace
    refine ⟨unflagged_setFlag .., rfl, ?_⟩
    simp only [← hplace, Option.toList_some]
    rfl

/-- The targets that a group names are linked to it, in order; the group is the last of the list. -/
theorem loadGroupTargets_ok (group : Group) (links : List Nat) {lists lists' : Lists} {objs : List Json} {before : List Group}
    (hfresh : ∀ g ∈ before, (g.ptr == group.ptr) = false)
    (hlists : lists.groupList = before ++ [{ group with targetList := links }])
    (h : objs.foldlM (loadGroupTarget group) lists = .ok lists') :
    lists'.unflagged = lists.unflagged ∧ lists'.hostList = lists.hostList ∧
      lists'.groupList = before ++ [{ group with
        targetList := links ++ (objs.filterMap Json.stringValue).filterMap (placeOf lists.places) }] := by
  induction objs generalizing lists links with
  | nil =>
    cases h
    exact ⟨rfl, rfl, by simpa using hlists⟩
  | cons obj objs ih =>
    rw [List.foldlM_cons] at h
    obtain ⟨lists₁, hstep, h⟩ := bind_eq_ok h
    unfold loadGroupTarget at hstep
    split at hstep
    · rename_i name hname
      obtain ⟨hplaces, hhosts, hgroups⟩ := addTargetToGroup_ok hstep
      rw [hlists, modifyFirst_concat (y := { group with targetList := links }) hfresh (beq_self_eq_true _)] at hgroups
      obtain ⟨hplaces', hhosts', hgroups'⟩ := ih _ hgroups h
      refine ⟨hplaces'.trans hplaces, hhosts'.trans hhosts, ?_⟩
      rw [hgroups', places_of_unflagged hplaces, List.filterMap_cons_some hname, List.append_assoc]
      cases hplace : placeOf lists.places name with
      | none => rw [List.filterMap_cons_none hplace, Option.toList_none, List.nil_append]
      | some ptr => rw [List.filterMap_cons_some hplace, Option.toList_some, List.singleton_append]
    · rename_i hnone
      split at hstep
      · cases hstep
        rw [List.filterMap_cons_none hnone]
        exact ih _ hlists h
      · cases hstep

/-- A link of a host to a group. -/
structure LinkOf (root : Json) (member : Nat × String) (link : GroupHostLink) : Prop where
  group : link.group = some member.1
  name : link.name = member.2
  host : IsHost root link.name link.nqn

/-- The hosts that a group names are linked to it, in order. -/
theorem loadGroupHosts_ok {root : Json} {buf : Nat → String} {group : Group} {lists lists' : Lists} {objs : List Json}
    (hnames : (root.keys tagHosts tagAlias).Nodup)
    (hhosts : ∀ m ∈ objs.filterMap Json.stringValue, ∃ nqn, IsHost root m nqn)
    (h : objs.foldlM (loadGroupHost root buf group) lists = .ok lists') :
    lists'.targetList = lists.targetList ∧ lists'.groupList = lists.groupList ∧ ∃ links,
      lists'.hostList = lists.hostList ++ links ∧
      List.Forall₂ (LinkOf root) ((objs.filterMap Json.stringValue).map (fun m => (group.ptr, m))) links := by
  induction objs generalizing lists with
  | nil =>
    cases h
    exact ⟨rfl, rfl, [], (List.append_nil _).symm, .nil⟩
  | cons obj objs ih =>
    rw [List.foldlM_cons] at h
    obtain ⟨lists₁, hstep, h⟩ := bind_eq_ok h
    unfold loadGroupHost at hstep
    split at hstep
    · rename_i name hname
      rw [List.filterMap_cons_some hname] at hhosts ⊢
      obtain ⟨nqn, hhost⟩ := hhosts name List.mem_cons_self
      obtain ⟨⟨ret, n⟩, hn, hstep⟩ := bind_eq_ok hstep
      obtain ⟨name', hcopy, hstep⟩ := bind_eq_ok hstep
      obtain rfl := Mirrored.getJsonHostNqn_ok hnames hhost hn
      obtain rfl := Option.some.inj (strcpy_ok hcopy)
      cases hstep
      obtain ⟨htargets, hgroups, links, hlinks, hrel⟩ := ih (fun m hm => hhosts m (List.mem_cons_of_mem name hm)) h
      refine ⟨htargets, hgroups, { group := some group.ptr, name := name, nqn := n } :: links, ?_, .cons ⟨rfl, rfl, hhost⟩ hrel⟩
      rw [hlinks, List.append_assoc]
      rfl
    · cases hstep

/-! ## All groups -/

/-- The groups `done` are loaded, with the targets that were there at the start: the group at a place has that address and the
links of the targets it names, and there is a link for each host that a group names. -/
structure GroupsLoaded (root : Json) (start lists : Lists) (done : List Json) : Prop where
  targets : lists.unflagged = start.unflagged
  groups : lists.groupList.map (fun g => (g.ptr, g.targetList)) =
    done.zipIdx.map (fun x => (x.2, (x.1.strings tagTargets).filterMap (placeOf start.places)))
  links : List.Forall₂ (LinkOf root) (done.zipIdx.flatMap (fun x => (x.1.strings tagHosts).map (fun m => (x.2, m))))
    lists.hostList

theorem GroupsLoaded.loadGroup {root : Json} {buf : Nat → String} {start lists lists' : Lists} {done : List Json} {x : Json}
    (h : GroupsLoaded root start lists done) (hnames : (root.keys tagHosts tagAlias).Nodup)
    (hhosts : ∀ m ∈ x.strings tagHosts, ∃ nqn, IsHost root m nqn)
    (hr : loadGroup root buf lists (x, done.length) = .ok lists') : GroupsLoaded root start lists' (done ++ [x]) := by
  obtain ⟨name, -, hr⟩ := bind_eq_ok hr
  obtain ⟨lists₁, htargets, hloaded⟩ := bind_eq_ok hr
  have hfresh : ∀ g ∈ lists.groupList, (g.ptr == done.length) = false := by
    intro g hg
    have hmem : (g.ptr, g.targetList) ∈ lists.groupList.map (fun g => (g.ptr, g.targetList)) := List.mem_map_of_mem hg
    rw [h.groups] at hmem
    obtain ⟨⟨y, i⟩, hy, heq⟩ := List.mem_map.mp hmem
    have hi : i < done.length := by simpa using List.snd_lt_of_mem_zipIdx hy
    have hptr : i = g.ptr := congrArg Prod.fst heq
    exact beq_eq_false_iff_ne.mpr (hptr ▸ Nat.ne_of_lt hi)
  obtain ⟨hsame, hlinks₀, hgroups⟩ := loadGroupTargets_ok { ptr := done.length, name := name } []
    hfresh rfl htargets
  obtain ⟨htargets', hgroups', links, hlinks, hrel⟩ := loadGroupHosts_ok hnames hhosts hloaded
  refine ⟨?_, ?_, ?_⟩
  · rw [Lists.unflagged, htargets', ← h.targets]
    exact hsame
  · have hplaces : Lists.places { lists with groupList := lists.groupList ++ [{ ptr := done.length, name := name }] } =
        start.places := places_of_unflagged h.targets
    rw [hplaces, List.nil_append] at hgroups
    rw [hgroups', hgroups, List.map_append, h.groups, List.zipIdx_append, List.map_append, Nat.zero_add]
    rfl
  · rw [hlinks, hlinks₀, List.zipIdx_append, List.flatMap_append]
    refine List.rel_append h.links ?_
    simpa [Json.strings] using hrel

theorem buildGroupList_ok {root : Json} {buf : Nat → String} {lists lists' : Lists} (hlists : lists.groupList = [])
    (hnone : lists.hostList = []) (hnames : (root.keys tagHosts tagAlias).Nodup)
    (hhosts : ∀ g ∈ root.entries tagGroups, ∀ m ∈ g.strings tagHosts, ∃ nqn, IsHost root m nqn)
    (h : buildGroupList root buf lists = .ok lists') : GroupsLoaded root lists lists' (root.entries tagGroups) := by
  refine foldlM_zipIdx_invariant [] (P := GroupsLoaded root lists) h ?_ ?_
  · exact ⟨rfl, by rw [hlists]; rfl, by rw [hnone]; exact .nil⟩
  · intro l done x l' hx hl hstep
    exact hl.loadGroup hnames (hhosts x hx) hstep

/-! ## Who shares a group with a target -/

/-- The search for a group of a host and a target, when every link leads to a group. -/
theorem sharesGroup_eq {groups : List Group} {target : Target} {isHost : GroupHostLink → Bool} {links : List GroupHostLink}
    (hn : (groups.map Group.ptr).Nodup) (hl : ∀ l ∈ links, ∃ g ∈ groups, l.group = some g.ptr) :
    sharesGroup groups target isHost links =
      .ok (links.any (fun l => isHost l && groups.any (fun g => l.group == some g.ptr && decide (target.ptr ∈ g.targetList)))) := by
  induction links with
  | nil => rfl
  | cons l links ih =>
    have hrest := ih (fun l' hl' => hl l' (List.mem_cons_of_mem l hl'))
    obtain ⟨g, hg, hptr⟩ := hl l List.mem_cons_self
    have hfind : groups.find? (fun g' => g'.ptr == g.ptr) = some g := find?_of_mem hn hg
    have hany : groups.any (fun g' => l.group == some g'.ptr && decide (target.ptr ∈ g'.targetList)) =
        decide (target.ptr ∈ g.targetList) := by
      rw [Bool.eq_iff_iff, List.any_eq_true]
      constructor
      · rintro ⟨g', hg', hmem⟩
        rw [Bool.and_eq_true, beq_iff_eq, hptr] at hmem
        obtain rfl := List.inj_on_of_nodup_map hn hg hg' (Option.some.inj hmem.1)
        exact hmem.2
      · intro hmem
        exact ⟨g, hg, by rw [hptr, beq_self_eq_true, Bool.true_and]; exact hmem⟩
    unfold sharesGroup
    rw [List.any_cons, hany, hrest]
    by_cases hhost : isHost l = true
    · rw [if_pos hhost, hhost, hptr]
      simp only [groupTargets, hfind, Bool.true_and]
      by_cases hmem : target.ptr ∈ g.targetList
      · rw [if_pos hmem, decide_eq_true hmem, Bool.true_or]
      · rw [if_neg hmem, decide_eq_false hmem, Bool.false_or]
    · rw [if_neg hhost, Bool.not_eq_true] at *
      rw [hhost, Bool.false_and, Bool.false_or]

/-- A group names a target. -/
def NamesTarget (root : Json) (name : String) : Prop := ∃ x ∈ root.entries tagGroups, name ∈ x.strings tagTargets

/-- A group names a target and a host. -/
def NamesBoth (root : Json) (name host : String) : Prop :=
  ∃ x ∈ root.entries tagGroups, name ∈ x.strings tagTargets ∧ host ∈ x.strings tagHosts

namespace GroupsLoaded

variable {root : Json} {start lists : Lists} {done : List Json}

theorem nodup_ptrs (h : GroupsLoaded root start lists done) : (lists.groupList.map Group.ptr).Nodup := by
  have hptrs : lists.groupList.map Group.ptr = done.zipIdx.map Prod.snd := by
    have hmap := congrArg (List.map Prod.fst) h.groups
    rw [List.map_map, List.map_map] at hmap
    exact hmap
  rw [hptrs, List.zipIdx_map_snd]
  exact List.nodup_range'

theorem group_of_mem (h : GroupsLoaded root start lists done) {g : Group} (hg : g ∈ lists.groupList) :
    ∃ x, (x, g.ptr) ∈ done.zipIdx ∧ g.targetList = (x.strings tagTargets).filterMap (placeOf start.places) := by
  have hmem : (g.ptr, g.targetList) ∈ lists.groupList.map (fun g => (g.ptr, g.targetList)) := List.mem_map_of_mem hg
  rw [h.groups] at hmem
  obtain ⟨⟨x, i⟩, hx, heq⟩ := List.mem_map.mp hmem
  obtain ⟨rfl, hlinks⟩ := Prod.mk.inj heq
  exact ⟨x, hx, hlinks.symm⟩

theorem mem_of_group (h : GroupsLoaded root start lists done) {x : Json} {i : Nat} (hx : (x, i) ∈ done.zipIdx) :
    ∃ g ∈ lists.groupList, g.ptr = i ∧ g.targetList = (x.strings tagTargets).filterMap (placeOf start.places) := by
  have hmem : (i, (x.strings tagTargets).filterMap (placeOf start.places)) ∈ lists.groupList.map (fun g => (g.ptr, g.targetList)) := by
    rw [h.groups]
    exact List.mem_map.mpr ⟨(x, i), hx, rfl⟩
  obtain ⟨g, hg, heq⟩ := List.mem_map.mp hmem
  exact ⟨g, hg, congrArg Prod.fst heq, congrArg Prod.snd heq⟩

theorem link_of_mem (h : GroupsLoaded root start lists done) {l : GroupHostLink} (hl : l ∈ lists.hostList) :
    ∃ x i, (x, i) ∈ done.zipIdx ∧ l.group = some i ∧ l.name ∈ x.strings tagHosts ∧ IsHost root l.name l.nqn := by
  obtain ⟨⟨i, m⟩, hmem, hlink⟩ := forall₂_mem_right h.links hl
  obtain ⟨⟨x, i'⟩, hx, hm⟩ := List.mem_flatMap.mp hmem
  obtain ⟨m', hm', heq⟩ := List.mem_map.mp hm
  obtain ⟨rfl, rfl⟩ := Prod.mk.inj heq
  exact ⟨x, i', hx, hlink.group, hlink.name ▸ hm', hlink.host⟩

theorem mem_of_link (h : GroupsLoaded root start lists done) {x : Json} {i : Nat} {m : String} (hx : (x, i) ∈ done.zipIdx)
    (hm : m ∈ x.strings tagHosts) : ∃ l ∈ lists.hostList, l.group = some i ∧ l.name = m := by
  obtain ⟨l, hl, hlink⟩ := forall₂_mem_left h.links
    (List.mem_flatMap.mpr ⟨(x, i), hx, List.mem_map.mpr ⟨m, hm, rfl⟩⟩)
  exact ⟨l, hl, hlink.group, hlink.name⟩

/-- A group links a target if and only if it names it. -/
theorem mem_targetList {known : List (String × Nat)} (hnames : (known.map Prod.fst).Nodup)
    (hptrs : (known.map Prod.snd).Nodup) {x : Json} {name : String} {ptr : Nat} (hplace : (name, ptr) ∈ known) :
    ptr ∈ (x.strings tagTargets).filterMap (placeOf known) ↔ name ∈ x.strings tagTargets := by
  rw [List.mem_filterMap]
  constructor
  · rintro ⟨m, hm, hmem⟩
    have hsame := List.inj_on_of_nodup_map hptrs ((placeOf_eq_some hnames).mp hmem) hplace rfl
    obtain rfl : m = name := congrArg Prod.fst hsame
    exact hm
  · intro hm
    exact ⟨name, hm, (placeOf_eq_some hnames).mpr hplace⟩

/-- The groups that link a target are those that name it. -/
theorem linked_iff (h : GroupsLoaded root start lists (root.entries tagGroups)) (hnames : (start.places.map Prod.fst).Nodup)
    (hptrs : (start.places.map Prod.snd).Nodup) {name : String} {ptr : Nat} (hplace : (name, ptr) ∈ start.places) :
    (∃ g ∈ lists.groupList, ptr ∈ g.targetList) ↔ NamesTarget root name := by
  constructor
  · rintro ⟨g, hg, hmem⟩
    obtain ⟨x, hx, hlinks⟩ := h.group_of_mem hg
    rw [hlinks, mem_targetList hnames hptrs hplace] at hmem
    exact ⟨x, List.fst_mem_of_mem_zipIdx hx, hmem⟩
  · rintro ⟨x, hx, hmem⟩
    obtain ⟨i, hi, rfl⟩ := List.getElem_of_mem hx
    obtain ⟨g, hg, -, hlinks⟩ := h.mem_of_group (List.mk_mem_zipIdx_iff_getElem?.mpr (List.getElem?_eq_getElem hi))
    exact ⟨g, hg, by rw [hlinks, mem_targetList hnames hptrs hplace]; exact hmem⟩

/-- A search for the host `host` finds a group of a target if and only if a group names both. -/
theorem shares_iff (h : GroupsLoaded root start lists (root.entries tagGroups)) (hnames : (start.places.map Prod.fst).Nodup)
    (hptrs : (start.places.map Prod.snd).Nodup) {target : Target} (hplace : (target.name, target.ptr) ∈ start.places) {host : String}
    {isHost : GroupHostLink → Bool} (hhost : ∀ l ∈ lists.hostList, isHost l = true ↔ l.name = host) :
    ∃ b, sharesGroup lists.groupList target isHost lists.hostList = .ok b ∧ (b = true ↔ NamesBoth root target.name host) := by
  refine ⟨_, sharesGroup_eq h.nodup_ptrs (fun l hl => ?_), ?_⟩
  · obtain ⟨x, i, hx, hgroup, -, -⟩ := h.link_of_mem hl
    obtain ⟨g, hg, rfl, -⟩ := h.mem_of_group hx
    exact ⟨g, hg, hgroup⟩
  · simp only [List.any_eq_true, Bool.and_eq_true, beq_iff_eq, decide_eq_true_eq]
    constructor
    · rintro ⟨l, hl, hname, g, hg, hgroup, hmem⟩
      obtain ⟨x, i, hx, hi, hm, -⟩ := h.link_of_mem hl
      obtain ⟨y, hy, hlinks⟩ := h.group_of_mem hg
      obtain rfl : i = g.ptr := Option.some.inj (hi.symm.trans hgroup)
      obtain rfl : x = y := Option.some.inj
        ((List.mk_mem_zipIdx_iff_getElem?.mp hx).symm.trans (List.mk_mem_zipIdx_iff_getElem?.mp hy))
      rw [hlinks, mem_targetList hnames hptrs hplace] at hmem
      rw [(hhost l hl).mp hname] at hm
      exact ⟨x, List.fst_mem_of_mem_zipIdx hx, hmem, hm⟩
    · rintro ⟨x, hx, hmem, hm⟩
      obtain ⟨i, hi, rfl⟩ := List.getElem_of_mem hx
      have hx := List.mk_mem_zipIdx_iff_getElem?.mpr (List.getElem?_eq_getElem hi)
      obtain ⟨l, hl, hgroup, hname⟩ := h.mem_of_link hx hm
      obtain ⟨g, hg, hptr, hlinks⟩ := h.mem_of_group hx
      refine ⟨l, hl, (hhost l hl).mpr hname, g, hg, by rw [hgroup, hptr], ?_⟩
      rw [hlinks, mem_targetList hnames hptrs hplace]
      exact hmem

end GroupsLoaded

end NvmeDem
