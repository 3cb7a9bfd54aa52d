import NvmeDem.Dem.Logpages
import NvmeDem.Dem.Requests
import NvmeDem.Lemmas.Loaded
import NvmeDem.Lemmas.Paired

/-!
# The flag of a target that is in a group

A target that is in a group is shown to the hosts of the group alone. Whether a target is in a group is not looked up each time:
the record of a target has a flag, which is set when the target is linked to a group and cleared when a link is taken away that
was the last one. When a group is deleted its links go and the flags stay as they are, so that a target whose only group is
deleted is shown to no host from then on.
-/

namespace NvmeDem

open Jansson Keyed

/-- Whether a group links the target with an address. -/
def linked (groups : List Group) (ptr : Nat) : Bool := groups.any (fun g => decide (ptr ∈ g.targetList))

/-- The flag of each target tells whether a group links it. The records have addresses of their own. -/
structure FlagsTell (lists : Lists) : Prop where
  targets : (lists.targetList.map Target.ptr).Nodup
  groups : (lists.groupList.map Group.ptr).Nodup
  flags : ∀ t ∈ lists.targetList, t.groupMember = linked lists.groupList t.ptr

/-! ## Links -/

theorem linked_append (groups groups' : List Group) (ptr : Nat) :
    linked (groups ++ groups') ptr = (linked groups ptr || linked groups' ptr) := List.any_append

/-- An edit of a group that concerns another target. -/
theorem linked_modifyFirst {p : Group → Bool} {f : Group → Group} {ptr : Nat}
    (hf : ∀ g, ptr ∈ (f g).targetList ↔ ptr ∈ g.targetList) (groups : List Group) :
    linked (modifyFirst p f groups) ptr = linked groups ptr := by
  induction groups with
  | nil => rfl
  | cons g groups ih =>
    unfold modifyFirst
    unfold linked at ih ⊢
    split
    · simp only [List.any_cons, hf]
    · simp only [List.any_cons, ih]

/-- A target is linked to a group that is there. -/
theorem linked_of_modifyFirst {groups : List Group} {gptr ptr : Nat} {f : Group → Group}
    (hg : gptr ∈ groups.map Group.ptr) (hf : ∀ g, ptr ∈ (f g).targetList) :
    linked (modifyFirst (fun g => g.ptr == gptr) f groups) ptr = true := by
  induction groups with
  | nil => cases hg
  | cons g groups ih =>
    unfold modifyFirst
    unfold linked at ih ⊢
    by_cases hp : g.ptr = gptr
    · rw [if_pos (beq_iff_eq.mpr hp), List.any_cons, decide_eq_true (hf g), Bool.true_or]
    · have hrest : gptr ∈ groups.map Group.ptr := by
        rcases List.mem_cons.mp hg with heq | hmem
        · exact absurd heq.symm hp
        · exact hmem
      rw [if_neg (by simpa using hp), List.any_cons, ih hrest, Bool.or_true]

/-- The first group that a search finds is taken off, and does not link the target. -/
theorem linked_eraseP {groups : List Group} {p : Group → Bool} {group : Group} {ptr : Nat} (hfind : groups.find? p = some group)
    (hp : ptr ∉ group.targetList) : linked (groups.eraseP p) ptr = linked groups ptr := by
  obtain ⟨hgroup, before, after, rfl, hbefore⟩ := List.find?_eq_some_iff_append.mp hfind
  have hnot : ∀ g ∈ before, ¬p g = true := fun g hg => by simpa using hbefore g hg
  rw [List.eraseP_append_right _ hnot, List.eraseP_cons_of_pos hgroup]
  simp [linked, hp]

namespace FlagsTell

variable {lists : Lists}

theorem notify (h : FlagsTell lists) (list : List EventNotification) : FlagsTell (lists.notify list) :=
  ⟨h.targets, h.groups, h.flags⟩

/-- The hosts and the requests of hosts have nothing to do with it. -/
theorem of_eq (h : FlagsTell lists) {lists' : Lists} (htargets : lists'.targetList = lists.targetList)
    (hgroups : lists'.groupList = lists.groupList) : FlagsTell lists' := by
  refine ⟨htargets ▸ h.targets, hgroups ▸ h.groups, fun t ht => ?_⟩
  rw [htargets] at ht
  rw [hgroups]
  exact h.flags t ht

/-- The targets changed in what has nothing to do with groups. -/
theorem of_forall₂ (h : FlagsTell lists) {targets : List Target}
    (hsame : List.Forall₂ (fun t t' : Target => t'.ptr = t.ptr ∧ t'.groupMember = t.groupMember) lists.targetList targets) :
    FlagsTell { lists with targetList := targets } := by
  obtain ⟨htargets, hgroups, hflags⟩ := h
  show FlagsTell ⟨targets, lists.groupList, lists.hostList, lists.aenReqList⟩
  generalize lists.targetList = old at hsame htargets hflags
  have hptrs : targets.map Target.ptr = old.map Target.ptr := by
    induction hsame with
    | nil => rfl
    | cons hxy _ ih =>
      rw [List.map_cons, List.map_cons, hxy.1, ih (List.nodup_cons.mp htargets).2
        (fun t ht => hflags t (List.mem_cons_of_mem _ ht))]
  refine ⟨hptrs ▸ htargets, hgroups, fun t ht => ?_⟩
  obtain ⟨t₀, ht₀, hptr, hflag⟩ := forall₂_mem_right hsame ht
  rw [hptr, hflag]
  exact hflags t₀ ht₀

theorem withLogs (h : FlagsTell lists) (w : World) : FlagsTell (lists.withLogs w) := by
  refine h.of_forall₂ (List.forall₂_map_right_iff.mpr (List.forall₂_same.mpr (fun t ht => ?_)))
  clear ht
  induction w.logs t.ptr generalizing t with
  | nil => exact ⟨rfl, rfl⟩
  | cons e es ih =>
    obtain ⟨hptr, hflag⟩ := ih (t.logEvent e)
    rw [List.foldl_cons, hptr, hflag, logEvent_eq]
    exact ⟨rfl, rfl⟩

/-- A group without targets is added. -/
theorem addGroup (h : FlagsTell lists) {group : Group} (hfresh : group.ptr ∉ lists.groupList.map Group.ptr)
    (hempty : group.targetList = []) : FlagsTell { lists with groupList := lists.groupList ++ [group] } := by
  refine ⟨h.targets, nodup_map_concat h.groups hfresh, fun t ht => ?_⟩
  have hnone : linked [group] t.ptr = false := by simp [linked, hempty]
  rw [linked_append, hnone, Bool.or_false, h.flags t ht]

/-- The target that a search finds is given a flag, and the groups are edited as to it: `linked'` says whether it is linked
after. -/
theorem setFlag (h : FlagsTell lists) {name : String} {target : Target} (hfind : findTarget lists name = some target)
    {groups : List Group} {flag : Bool} (hptrs : groups.map Group.ptr = lists.groupList.map Group.ptr)
    (hothers : ∀ ptr, ptr ≠ target.ptr → linked groups ptr = linked lists.groupList ptr)
    (hself : linked groups target.ptr = flag) :
    FlagsTell { lists.onTarget name (fun t => { t with groupMember := flag }) with groupList := groups } := by
  have hsame : modifyFirst (fun t => t.name == name) (fun t => { t with groupMember := flag }) lists.targetList =
      modifyFirst (fun t => t.ptr == target.ptr) (fun t => { t with groupMember := flag }) lists.targetList :=
    (modifyFirst_of_find h.targets hfind).symm
  refine ⟨?_, by rw [hptrs]; exact h.groups, fun t ht => ?_⟩
  · show ((modifyFirst (fun t => t.name == name) _ lists.targetList).map Target.ptr).Nodup
    rw [map_modifyFirst_same (g := fun t : Target => { t with groupMember := flag }) (r := Target.ptr) (fun _ => rfl)]
    exact h.targets
  · have ht : t ∈ modifyFirst (fun t => t.name == name) (fun t => { t with groupMember := flag }) lists.targetList := ht
    rw [hsame] at ht
    rcases mem_modifyFirst_of_nodup h.targets ht with ⟨ht, hne⟩ | ⟨u, -, hu, rfl⟩
    · rw [h.flags t ht, hothers t.ptr hne]
    · show flag = linked groups u.ptr
      rw [hu, hself]

theorem addTargetToGroup (h : FlagsTell lists) {group : Option Group} {name : String} {lists' : Lists}
    (hgroup : ∀ g ∈ group, g.ptr ∈ lists.groupList.map Group.ptr) (hr : addTargetToGroup lists group name = .ok lists') :
    FlagsTell lists' := by
  unfold NvmeDem.addTargetToGroup at hr
  split at hr
  · cases hr
    exact h
  · rename_i target hfind
    split at hr
    · cases hr
    rename_i group
    cases hr
    refine notify (h.setFlag hfind (map_modifyFirst_same (g := fun g : Group =>
      { g with targetList := g.targetList ++ [target.ptr] }) (r := Group.ptr) (fun _ => rfl) _) (fun ptr hne => ?_) ?_) _
    · exact linked_modifyFirst (fun g => by simp [hne]) _
    · exact linked_of_modifyFirst (hgroup group rfl) (fun g => by simp)

theorem delTargetFromGroup (h : FlagsTell lists) {group : Option Group} {name : String} {lists' : Lists}
    (hgroup : ∀ g ∈ group, g ∈ lists.groupList) (hr : delTargetFromGroup lists group name = .ok lists') :
    FlagsTell lists' := by
  unfold NvmeDem.delTargetFromGroup at hr
  split at hr
  · cases hr
    exact h
  · rename_i target hfind
    split at hr
    · cases hr
    rename_i group
    dsimp only at hr
    split at hr
    · rename_i hlink
      have hptrs : (modifyFirst (fun g => g.ptr == group.ptr) (fun g => { g with targetList := g.targetList.erase target.ptr })
          lists.groupList).map Group.ptr = lists.groupList.map Group.ptr :=
        map_modifyFirst_same (g := fun g : Group => { g with targetList := g.targetList.erase target.ptr }) (r := Group.ptr)
          (fun _ => rfl) _
      have hothers : ∀ ptr, ptr ≠ target.ptr → linked (modifyFirst (fun g => g.ptr == group.ptr)
          (fun g => { g with targetList := g.targetList.erase target.ptr }) lists.groupList) ptr =
          linked lists.groupList ptr :=
        fun ptr hne => linked_modifyFirst (fun g => List.mem_erase_of_ne hne) _
      split at hr
      · -- Another link is left: the flag was set, and stays so.
        rename_i hleft
        cases hr
        refine ⟨h.targets, by rw [hptrs]; exact h.groups, fun t ht => ?_⟩
        rw [h.flags t ht]
        by_cases hp : t.ptr = target.ptr
        · have hwas : linked lists.groupList target.ptr = true :=
            List.any_eq_true.mpr ⟨group, hgroup group rfl, decide_eq_true hlink⟩
          rw [hp, hwas]
          exact hleft.symm
        · exact (hothers t.ptr hp).symm
      · rename_i hnone
        cases hr
        refine notify (h.setFlag hfind hptrs hothers ?_) _
        exact Bool.eq_false_iff.mpr hnone
    · cases hr
      exact h

/-! ## A load -/

theorem buildTargetList {root : Json} {targets : List Target} (h : buildTargetList root = .ok targets) :
    FlagsTell { targetList := targets } := by
  unfold NvmeDem.buildTargetList at h
  split at h
  · cases h
    exact ⟨List.nodup_nil, List.nodup_nil, List.forall_mem_nil _⟩
  · refine ⟨?_, List.nodup_nil, fun t ht => ?_⟩
    · have hsub := sublist_collect_zipIdx (k := Target.ptr) (fun x zs hx => ?_) h
      · exact hsub.nodup List.nodup_range'
      · rcases loadTarget_ok hx with ⟨-, rfl⟩ | ⟨t, rfl, hmade⟩
        · exact List.nil_sublist _
        · rw [List.map_singleton, hmade.ptr]
    · obtain ⟨x, -, zs, hx, hmem⟩ := mem_collect h ht
      rcases loadTarget_ok hx with ⟨-, rfl⟩ | ⟨t', rfl, hmade⟩
      · cases hmem
      · rw [List.mem_singleton.mp hmem, hmade.flag]
        rfl

theorem ptrs_addTargetToGroup {group : Group} {name : String} {lists' : Lists}
    (hr : NvmeDem.addTargetToGroup lists (some group) name = .ok lists') :
    lists'.groupList.map Group.ptr = lists.groupList.map Group.ptr := by
  unfold NvmeDem.addTargetToGroup at hr
  split at hr
  · cases hr
    rfl
  · rename_i target hfind
    cases hr
    exact map_modifyFirst_same (g := fun g : Group => { g with targetList := g.targetList ++ [target.ptr] }) (r := Group.ptr)
      (fun _ => rfl) _

/-- A group of the configuration is loaded: it is the last, and is linked to targets that are there. -/
theorem loadGroup {root : Json} {buf : Nat → String} {iter : Json} {i : Nat} {lists' : Lists} (h : FlagsTell lists)
    (hi : ∀ ptr ∈ lists.groupList.map Group.ptr, ptr < i) (hr : loadGroup root buf lists (iter, i) = .ok lists') :
    FlagsTell lists' ∧ ∀ ptr ∈ lists'.groupList.map Group.ptr, ptr < i + 1 := by
  obtain ⟨name, -, hr⟩ := bind_eq_ok hr
  obtain ⟨lists₁, htargets, hhosts⟩ := bind_eq_ok hr
  have hfirst : FlagsTell lists₁ ∧ lists₁.groupList.map Group.ptr = lists.groupList.map Group.ptr ++ [i] := by
    refine foldlM_invariant (P := fun l => FlagsTell l ∧ l.groupList.map Group.ptr = lists.groupList.map Group.ptr ++ [i])
      htargets ⟨h.addGroup (fun hmem => Nat.lt_irrefl i (hi i hmem)) rfl, List.map_append⟩ ?_
    intro l obj l' _ hl hstep
    unfold loadGroupTarget at hstep
    split at hstep
    · exact ⟨hl.1.addTargetToGroup (fun g hg => by cases hg; simp [hl.2]) hstep, (ptrs_addTargetToGroup hstep).trans hl.2⟩
    · split at hstep
      · cases hstep
        exact hl
      · cases hstep
  have hsecond : FlagsTell lists' ∧ lists'.groupList.map Group.ptr = lists.groupList.map Group.ptr ++ [i] := by
    refine foldlM_invariant (P := fun l => FlagsTell l ∧ l.groupList.map Group.ptr = lists.groupList.map Group.ptr ++ [i])
      hhosts hfirst ?_
    intro l obj l' _ hl hstep
    unfold loadGroupHost at hstep
    split at hstep
    · obtain ⟨⟨ret, nqn⟩, -, hstep⟩ := bind_eq_ok hstep
      obtain ⟨name, -, hstep⟩ := bind_eq_ok hstep
      cases hstep
      exact ⟨hl.1.of_eq rfl rfl, hl.2⟩
    · cases hstep
  refine ⟨hsecond.1, fun ptr hptr => ?_⟩
  rw [hsecond.2] at hptr
  rcases List.mem_append.mp hptr with hptr | hptr
  · exact Nat.lt_succ_of_lt (hi ptr hptr)
  · rw [List.mem_singleton.mp hptr]
    exact Nat.lt_succ_self i

theorem buildLists {root : Json} {buf : Nat → String} {lists : Lists} (h : buildLists root buf = .ok lists) :
    FlagsTell lists := by
  obtain ⟨targets, htargets, h⟩ := bind_eq_ok h
  refine (foldlM_zipIdx_invariant []
    (P := fun l done => FlagsTell l ∧ ∀ ptr ∈ l.groupList.map Group.ptr, ptr < done.length) h ?_ ?_).1
  · exact ⟨buildTargetList htargets, List.forall_mem_nil _⟩
  · intro l done iter l' _ hl hstep
    rw [List.length_append, List.length_singleton]
    exact hl.1.loadGroup hl.2 hstep

theorem loadDaemon {J : JsonLib} {w : World} {buf : Nat → String} {root : Json} {d : Daemon}
    (h : loadDaemon J w buf root = .ok d) : FlagsTell d.lists := by
  obtain ⟨lists, hlists, h⟩ := bind_eq_ok h
  obtain ⟨targets, -, hsame, heq⟩ := initTargets_ok h
  rw [heq]
  refine (of_forall₂ (buildLists hlists) (hsame.imp (fun t t' ht => ?_))).withLogs w
  rw [SameTarget] at ht
  rw [ht]
  exact ⟨rfl, rfl⟩

/-! ## Requests -/

theorem initGroup (h : FlagsTell lists) {w : World} {root : Json} (hf : w.Fresh ⟨root, lists⟩) (name : String) :
    FlagsTell (initGroup lists w name) := by
  refine h.addGroup (fun hmem => hf ?_) rfl
  exact List.mem_append_left _ (List.mem_append_right _ hmem)

end FlagsTell

variable {J : JsonLib} {w : World} {d : Daemon} {a : Answer}

theorem addGroup_flags (h : FlagsTell d.lists) (hf : w.Fresh d) {name : Option String} (hr : addGroup w d name = .ok a) :
    FlagsTell a.dem.lists := by
  obtain ⟨r, -, ⟨-, rfl⟩ | ⟨-, hr⟩⟩ := afterStore_ok hr
  · exact h
  · split at hr
    · cases hr
    · cases hr
      exact h.initGroup hf _

theorem updateGroup_flags (h : FlagsTell d.lists) (hf : w.Fresh d) {name : Option String} {data : String}
    (hr : updateGroup J w d name data = .ok a) : FlagsTell a.dem.lists := by
  obtain ⟨r, -, ⟨-, rfl⟩ | ⟨-, hr⟩⟩ := afterStore_ok hr
  · exact h
  · cases hr
    dsimp only
    split
    · exact h
    · exact h.initGroup hf _

theorem setGroupMember_flags (h : FlagsTell d.lists) {name member : String} {data : Option String} {kind : Member}
    (hr : setGroupMember J w d name data member kind = .ok a) : FlagsTell a.dem.lists := by
  obtain ⟨r, -, ⟨-, rfl⟩ | ⟨-, hr⟩⟩ := afterStore_ok hr
  · exact h
  · obtain ⟨lists, hadd, hr⟩ := bind_eq_ok hr
    cases hr
    cases kind with
    | host =>
      obtain ⟨⟨ret, nqn⟩, -, hadd⟩ := bind_eq_ok hadd
      obtain ⟨name, -, hadd⟩ := bind_eq_ok hadd
      cases hadd
      exact h.of_eq rfl rfl
    | target =>
      refine h.addTargetToGroup (fun g hg => ?_) hadd
      exact List.mem_map_of_mem (List.mem_of_find?_eq_some hg)

theorem delGroupMember_flags (h : FlagsTell d.lists) {name : String} {member : Option String} {kind : Member}
    (hr : delGroupMember d name member kind = .ok a) : FlagsTell a.dem.lists := by
  obtain ⟨r, -, ⟨-, rfl⟩ | ⟨-, hr⟩⟩ := afterStore_ok hr
  · exact h
  · obtain ⟨lists, hdel, hr⟩ := bind_eq_ok hr
    cases hr
    cases member with
    | none => cases hdel
    | some member =>
      cases kind with
      | host =>
        cases hdel
        exact h.of_eq rfl rfl
      | target =>
        exact h.delTargetFromGroup (fun g hg => List.mem_of_find?_eq_some hg) hdel

/-- The targets of a group that is deleted are linked to other groups. -/
def LinkedElsewhere (lists : Lists) (name : String) : Prop :=
  ∀ group, findGroup lists name = some group → ∀ t ∈ lists.targetList, t.ptr ∈ group.targetList →
    linked (lists.groupList.eraseP (fun g => g.name == name)) t.ptr = true

theorem delGroup_flags (h : FlagsTell d.lists) {name : String}
    (hkeeps : name ∈ d.root.keys tagGroups tagName → LinkedElsewhere d.lists name) (hr : delGroup d name = .ok a) :
    FlagsTell a.dem.lists := by
  obtain ⟨r, hstore, ⟨-, rfl⟩ | ⟨hz, hr⟩⟩ := afterStore_ok hr
  · exact h
  · have hname : name ∈ d.root.keys tagGroups tagName := by
      obtain rfl := Except.ok.inj hstore
      rcases delJsonGroup_ok d.root name with ⟨hne, -⟩ | ⟨-, i, x, hx, -⟩
      · exact absurd hz hne
      · exact List.mem_filterMap.mpr ⟨x, List.mem_of_getElem? hx.get, hx.key⟩
    have hleft := hkeeps hname
    split at hr
    · cases hr
    · rename_i group hgroup
      cases hr
      refine ⟨h.targets, (List.eraseP_sublist.map _).nodup h.groups, fun t ht => ?_⟩
      rw [h.flags t ht]
      show linked d.lists.groupList t.ptr = linked (d.lists.groupList.eraseP (fun g => g.name == name)) t.ptr
      by_cases hp : t.ptr ∈ group.targetList
      · rw [hleft group hgroup t ht hp]
        exact List.any_eq_true.mpr ⟨group, List.mem_of_find?_eq_some hgroup, decide_eq_true hp⟩
      · exact (linked_eraseP hgroup hp).symm

/-! ## Runs -/

/-- The requests that create and delete groups, and add and remove their members. -/
def Request.editsGroups : Request → Bool
  | .addGroup _ | .updateGroup _ _ | .setGroupMember _ _ _ _ | .delGroupMember _ _ _ | .delGroup _ => true
  | _ => false

/-- A group that is deleted leaves each of its targets in another group. -/
def Request.KeepsFlags (d : Daemon) : Request → Prop
  | .delGroup name => name ∈ d.root.keys tagGroups tagName → LinkedElsewhere d.lists name
  | _ => True

theorem FlagsTell.step {op : World × Request} {d' : Daemon} (h : FlagsTell d.lists) (hop : op.2.editsGroups = true)
    (hkeeps : op.2.KeepsFlags d) (hs : demStep J op d d') : FlagsTell d'.lists := by
  obtain ⟨w, req⟩ := op
  obtain ⟨hf, a, hr, rfl⟩ := hs
  cases req with
  | addGroup name => exact addGroup_flags h hf hr
  | updateGroup name data => exact updateGroup_flags h hf hr
  | setGroupMember name data member kind => exact setGroupMember_flags h hr
  | delGroupMember name member kind => exact delGroupMember_flags h hr
  | delGroup name => exact delGroup_flags h hkeeps hr
  | _ => cases hop

/-- A target that is not marked as a member of a group is walked as any other: the group filter does not hide it. -/
theorem walkLogPages_infix {inTarget : Target → Except Fault Bool} {inSubsys : Subsystem → Bool} {targets : List Target}
    {entries : List LogEntry} {t : Target} (ht : t ∈ targets) (hflag : t.groupMember = false)
    (h : walkLogPages inTarget inSubsys targets = .ok entries) :
    (t.subsysList.filter inSubsys).flatMap Subsystem.validEntries <:+: entries := by
  induction targets generalizing entries with
  | nil => cases ht
  | cons target rest ih =>
    unfold walkLogPages at h
    split at h
    · cases h
    · rename_i shared hshared
      obtain ⟨entries, hrest, rfl⟩ := map_eq_ok h
      rcases List.mem_cons.mp ht with rfl | ht
      · rw [hflag] at hshared
        obtain rfl := Except.ok.inj hshared
        exact (List.prefix_append _ _).isInfix
      · exact (ih ht hrest).trans (List.suffix_append _ _).isInfix

/-- In every state that a run reaches from a load, where each group that is deleted leaves its targets in other groups, the
flag of a target is set if and only if a group links the target. A host is then given, and told the number of, all the valid
pages of a target in no group, of the subsystems that let the host in. -/
theorem member_flag_tells {J : JsonLib} {w : World} {buf : Nat → String} {root : Json} {d₀ d : Daemon}
    (hload : loadDaemon J w buf root = .ok d₀)
    (hrun : Run (demStep J) (fun d op => op.2.editsGroups = true ∧ op.2.KeepsFlags d) d₀ d) :
    (∀ t ∈ d.lists.targetList, t.groupMember = true ↔ ∃ g ∈ d.lists.groupList, t.ptr ∈ g.targetList) ∧
      ∀ t ∈ d.lists.targetList, (∀ g ∈ d.lists.groupList, t.ptr ∉ g.targetList) →
        ∀ nqn entries, handleGetLogPages d.lists nqn = .ok entries →
          (t.subsysList.filter (fun s => decide (s.access ≠ 0) || hostAccess s nqn)).flatMap Subsystem.validEntries <:+:
            entries ∧ handleGetLogPageCount d.lists nqn = .ok entries.length := by
  have h : FlagsTell d.lists := 
    hrun.invariant (I := fun d => FlagsTell d.lists) (FlagsTell.loadDaemon hload)
      (fun _ _ _ hi ha hs => FlagsTell.step hi ha.1 ha.2 hs)
  have hflags : ∀ t ∈ d.lists.targetList, t.groupMember = true ↔ ∃ g ∈ d.lists.groupList, t.ptr ∈ g.targetList := by
    intro t ht
    rw [h.flags t ht, linked, List.any_eq_true]
    simp only [decide_eq_true_eq]
  refine ⟨hflags, fun t ht hnone nqn entries hget => ⟨?_, ?_⟩⟩
  · have hflag : t.groupMember = false := by
      rw [← Bool.not_eq_true, hflags t ht]
      rintro ⟨g, hg, hmem⟩
      exact hnone g hg hmem
    exact walkLogPages_infix ht hflag hget
  · rw [handleGetLogPageCount_eq, hget]
    rfl

/-- A configuration with a target in the first of two groups. -/
def groupedConfig : Json :=
  .object [(tagTargets, .array [.object [(tagAlias, .string "t")]]),
    (tagGroups, .array [.object [(tagName, .string "g"), (tagTargets, .array [.string "t"])],
      .object [(tagName, .string "h")]])]

/-- The daemon that loads it. -/
def groupedDaemon : Daemon where
  root := groupedConfig
  lists :=
    { targetList := [{ ptr := 0, name := "t", groupMember := true }]
      groupList := [{ ptr := 0, name := "g", targetList := [0] }, { ptr := 1, name := "h" }] }

/-- The target is added to the second group, and the first is deleted. -/
theorem member_flag_tells_second_group :
    ∃ d : Daemon, d.lists.targetList.map Target.groupMember = [true] ∧ d.lists.groupList.map Group.targetList = [[0]] ∧
      ∀ t ∈ d.lists.targetList, t.groupMember = true ↔ ∃ g ∈ d.lists.groupList, t.ptr ∈ g.targetList := by
  have hadd := Run.request { addr := 2 } (.setGroupMember "h" none "t" .target)
    (.start : Run (demStep (.ofTexts [])) (fun d op => op.2.editsGroups = true ∧ op.2.KeepsFlags d) groupedDaemon _)
    ⟨rfl, trivial⟩ (by decide) rfl
  have hdel := Run.request { addr := 2 } (.delGroup "g") hadd
    ⟨rfl, fun _ group hgroup t ht _ => by
      obtain rfl := List.mem_singleton.mp ht
      rfl⟩ (by decide) rfl
  exact ⟨_, rfl, rfl, (@member_flag_tells (.ofTexts []) {} (fun _ => "") groupedConfig groupedDaemon _ rfl hdel).1⟩

/-- The one group of a target is deleted: its flag stays, and no group links it. -/
theorem member_flag_stays :
    ¬∀ (J : JsonLib) (w : World) (buf : Nat → String) (root : Json) (d₀ d : Daemon), loadDaemon J w buf root = .ok d₀ →
      Run (demStep J) (fun _ op => op.2.editsGroups = true) d₀ d →
        ∀ t ∈ d.lists.targetList, t.groupMember = true ↔ ∃ g ∈ d.lists.groupList, t.ptr ∈ g.targetList := by
  intro h
  have hdel := Run.request { addr := 2 } (.delGroup "g")
    (.start : Run (demStep (.ofTexts [])) (fun _ op => op.2.editsGroups = true) groupedDaemon _) rfl (by decide) rfl
  have hflag := h (.ofTexts []) {} (fun _ => "") groupedConfig groupedDaemon _ rfl hdel
    { ptr := 0, name := "t", groupMember := true } List.mem_cons_self
  obtain ⟨g, hg, hmem⟩ := hflag.mp rfl
  obtain rfl := List.mem_singleton.mp hg
  cases hmem

end NvmeDem
