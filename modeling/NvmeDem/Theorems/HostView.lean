import NvmeDem.Dem.HostView
import NvmeDem.Lemmas.LoadedGroups
import NvmeDem.Theorems.Membership

/-!
# The two views of what a host may use

After a load the REST interface shows a host the subsystems that the store opens to it, and on the fabric the host is served the
pages of those that the lists open to it. The lists are built from the store, so that the two should agree. They do not for a
target that is managed out of band without a complete interface, which the lists have without its subsystems, and for a
subsystem whose access is a number that a C `int` takes for zero, which the store opens to every host and the lists do not.
-/

namespace NvmeDem

open Jansson Keyed

/-! ## The configuration -/

/-- A configuration whose names are distinct, whose hosts each have an NQN of their own, and whose groups name hosts that are
there. -/
structure WellFormed (root : Json) : Prop where
  targets : (root.keys tagTargets tagAlias).Nodup
  fits : ∀ name ∈ root.keys tagTargets tagAlias, name.length ≤ maxAliasSize
  subsystems : ∀ x ∈ root.entries tagTargets, (x.keys tagSubsystems tagSubnqn).Nodup
  hosts : (root.keys tagHosts tagAlias).Nodup
  nqns : (root.keys tagHosts tagHostnqn).Nodup
  hostNqn : ∀ x ∈ root.entries tagHosts, ∀ name, x.strField tagAlias = some name → ∃ nqn, x.strField tagHostnqn = some nqn
  members : ∀ g ∈ root.entries tagGroups, ∀ m ∈ g.strings tagHosts, m ∈ root.keys tagHosts tagAlias

variable {root : Json} {buf : Nat → String} {lists : Lists} {host nqn : String}

theorem WellFormed.members_hosts (h : WellFormed root) :
    ∀ g ∈ root.entries tagGroups, ∀ m ∈ g.strings tagHosts, ∃ nqn, IsHost root m nqn := by
  intro g hg m hm
  obtain ⟨x, hx, hname⟩ := List.mem_filterMap.mp (h.members g hg m hm)
  obtain ⟨nqn, hnqn⟩ := h.hostNqn x hx m hname
  exact ⟨nqn, List.mem_map.mpr ⟨x, hx, by rw [hostPair, hname, hnqn]⟩⟩

/-- A host is known by its NQN. -/
theorem WellFormed.host_eq (h : WellFormed root) {a a' n : String} (ha : IsHost root a n) (ha' : IsHost root a' n) : a = a' := by
  have hn : ((hostPairs root).filterMap Prod.snd).Nodup := by
    rw [hostPairs, List.filterMap_map]
    exact h.nqns
  have heq := eq_of_count_le_one (List.nodup_iff_count_le_one.mp hn n) ha ha' rfl rfl
  exact Option.some.inj (congrArg Prod.fst heq)

theorem WellFormed.nqn_eq (h : WellFormed root) {a n n' : String} (hn : IsHost root a n) (hn' : IsHost root a n') : n = n' := by
  have hnames := h.hosts
  rw [keys_eq_hostPairs] at hnames
  have heq := eq_of_count_le_one (List.nodup_iff_count_le_one.mp hnames a) hn hn' rfl rfl
  exact Option.some.inj (congrArg Prod.snd heq)

/-! ## What the store says -/

/-- Whether the groups let a host see a target: one that no group names is seen by every host. -/
def SeenBy (root : Json) (name host : String) : Prop := NamesTarget root name → NamesBoth root name host

/-- A subsystem of the store. -/
structure SubsysOf (root x s : Json) (name nqn : String) : Prop where
  target : x ∈ root.entries tagTargets
  name : x.strField tagAlias = some name
  subsys : s ∈ x.entries tagSubsystems
  nqn : s.strField tagSubnqn = some nqn

/-- A subsystem that the store shows a host. -/
def ShownTo (root x s : Json) (name nqn host : String) : Prop :=
  SubsysOf root x s name nqn ∧ SeenBy root name host ∧ (opensToAny s = true ∨ host ∈ s.strings tagHosts)

/-- A subsystem of the store that the lists open to a host. -/
def ServedTo (root x s : Json) (name nqn host : String) : Prop :=
  SubsysOf root x s name nqn ∧ SeenBy root name host ∧ oobComplete x = true ∧ (loadedAccess s ≠ 0 ∨ host ∈ s.strings tagHosts)

/-! ## The lists after a load -/

theorem mem_checkMention {name nqn : Option String} {obj : Json} {zs : List Host} (h : checkMention name nqn obj = .ok zs)
    (z : Host) : z ∈ zs ↔ name = some z.name ∧ nqn = some z.nqn ∧ obj.stringValue = some z.name := by
  unfold checkMention at h
  split at h
  · rename_i n s hs
    split at h
    · rename_i hns
      obtain ⟨nqn', hnqn, h⟩ := bind_eq_ok h
      obtain ⟨name', hname, h⟩ := bind_eq_ok h
      cases h
      obtain rfl := Option.some.inj (strcpy_ok hname)
      obtain rfl := strcpy_ok hnqn
      obtain ⟨zname, znqn⟩ := z
      simp only [List.mem_singleton, Host.mk.injEq, Option.some.injEq, hs, ← hns]
      constructor
      · rintro ⟨rfl, rfl⟩
        exact ⟨rfl, rfl, rfl⟩
      · rintro ⟨rfl, rfl, -⟩
        exact ⟨rfl, rfl⟩
    · rename_i hns
      cases h
      simp only [List.not_mem_nil, false_iff, Option.some.injEq, hs]
      rintro ⟨rfl, -, rfl⟩
      exact hns rfl
  · cases h

theorem mem_checkHost {acl : Json} {name nqn : Option String} {zs : List Host} (h : checkHost acl name nqn = .ok zs) (z : Host) :
    z ∈ zs ↔ (name = some z.name ∧ nqn = some z.nqn) ∧ z.name ∈ acl.elems.filterMap Json.stringValue := by
  constructor
  · intro hz
    obtain ⟨obj, hobj, ys, hys, hmem⟩ := mem_collect h hz
    obtain ⟨hname, hnqn, hval⟩ := (mem_checkMention hys z).mp hmem
    exact ⟨⟨hname, hnqn⟩, List.mem_filterMap.mpr ⟨obj, hobj, hval⟩⟩
  · rintro ⟨⟨hname, hnqn⟩, hmem⟩
    obtain ⟨obj, hobj, hval⟩ := List.mem_filterMap.mp hmem
    obtain ⟨ys, hys⟩ := collect_each h hobj
    exact mem_collect_of_mem h hobj hys ((mem_checkMention hys z).mpr ⟨hname, hnqn, hval⟩)

/-- The records of a subsystem: the hosts of the root that its list names. -/
theorem mem_checkHosts {acl : Json} {hosts : List Json} {hs : List Host} (h : checkHosts acl (.array hosts) = .ok hs) (z : Host) :
    z ∈ hs ↔ (∃ x ∈ hosts, x.strField tagAlias = some z.name ∧ x.strField tagHostnqn = some z.nqn) ∧
      z.name ∈ acl.elems.filterMap Json.stringValue := by
  induction hosts generalizing hs with
  | nil =>
    obtain rfl := Except.ok.inj h
    simp
  | cons x hosts ih =>
    obtain ⟨zs, rest, hx, hrest, rfl⟩ := collect_cons_ok h
    have hrecords : z ∈ zs ↔ (x.strField tagAlias = some z.name ∧ x.strField tagHostnqn = some z.nqn) ∧
        z.name ∈ acl.elems.filterMap Json.stringValue := by
      split at hx
      · rename_i name nqn hname hnqn
        rw [mem_checkHost hx, Json.strField, hname, Json.strField, hnqn]
        rfl
      · rename_i hnot
        cases hx
        refine iff_of_false List.not_mem_nil ?_
        rintro ⟨⟨hname, hnqn⟩, -⟩
        exact hnot _ _ (Json.objectGet_of_strField hname) (Json.objectGet_of_strField hnqn)
    rw [List.mem_append, hrecords, ih hrest, ← or_and_right]
    simp only [List.mem_cons, exists_eq_or_imp]

/-- The lists let a host into a subsystem that is open, or whose list in the store names the host. -/
theorem letsIn_iff (hw : WellFormed root) (hhost : IsHost root host nqn) {s : Json} {subsys : Subsystem} {ss : List Subsystem}
    (hmem : subsys ∈ ss) (h : checkSubsystem (root.objectGet tagHosts) s = .ok ss) :
    (s.strField tagSubnqn = some subsys.nqn) ∧
      ((decide (subsys.access ≠ 0) || hostAccess subsys nqn) = true ↔ loadedAccess s ≠ 0 ∨ host ∈ s.strings tagHosts) := by
  unfold checkSubsystem at h
  split at h
  · cases h
    cases hmem
  · rename_i value hvalue
    obtain ⟨name, hname, h⟩ := bind_eq_ok h
    obtain ⟨hostList, hlist, h⟩ := bind_eq_ok h
    cases h
    obtain rfl := List.mem_singleton.mp hmem
    refine ⟨by rw [Json.strField, hvalue, Option.bind_some, strcpy_ok hname], ?_⟩
    rw [Bool.or_eq_true, decide_eq_true_eq]
    refine or_congr_right' (fun hzero => ?_)
    have hzero : loadedAccess s = 0 := not_not.mp hzero
    change allowedHosts (loadedAccess s) _ _ = _ at hlist
    rw [hzero] at hlist
    obtain ⟨x, hx, hpair⟩ := List.mem_map.mp hhost
    obtain ⟨halias, hnqn⟩ := Prod.mk.inj hpair
    unfold hostAccess
    simp only [List.any_eq_true, beq_iff_eq]
    unfold allowedHosts at hlist
    split at hlist
    · rename_i acl hosts hacl hroot
      rw [if_pos rfl] at hlist
      have hlist : checkHosts acl (.array hosts.elems) = .ok hostList := hlist
      rw [Json.strings, entries_of_objectGet hacl]
      rw [entries_of_objectGet hroot] at hx
      constructor
      · rintro ⟨z, hz, rfl⟩
        obtain ⟨⟨y, hy, hyname, hynqn⟩, hmem⟩ := (mem_checkHosts hlist z).mp hz
        have hzhost : IsHost root z.name z.nqn :=
          List.mem_map.mpr ⟨y, entries_of_objectGet hroot ▸ hy, by rw [hostPair, hyname, hynqn]⟩
        rwa [hw.host_eq hhost hzhost]
      · intro hmem
        exact ⟨⟨host, nqn⟩, (mem_checkHosts hlist ⟨host, nqn⟩).mpr ⟨⟨x, hx, halias, hnqn⟩, hmem⟩, rfl⟩
    · rename_i hnot
      cases hlist
      refine iff_of_false ?_ (fun hmem => ?_)
      · rintro ⟨z, hz, -⟩
        cases hz
      obtain ⟨v, hv, -⟩ := List.mem_filterMap.mp hmem
      cases hacl : s.objectGet tagHosts with
      | none => simp [Json.entries, hacl] at hv
      | some acl =>
        cases hroot : root.objectGet tagHosts with
        | none => simp [Json.entries, hroot] at hx
        | some hosts => exact hnot acl hosts hacl hroot

/-- The lists after a load of a configuration: the targets before the groups were loaded, and the groups. -/
structure ListsLoaded (root : Json) (start lists : Lists) : Prop where
  build : buildTargetList root = .ok start.targetList
  groups : GroupsLoaded root start lists (root.entries tagGroups)
  names : start.places.map Prod.fst = root.keys tagTargets tagAlias
  ptrs : (start.places.map Prod.snd).Nodup
  flags : FlagsTell lists

theorem buildLists_ok (hw : WellFormed root) (h : buildLists root buf = .ok lists) : ∃ start, ListsLoaded root start lists := by
  have hflags := FlagsTell.buildLists h
  obtain ⟨targets, htargets, h⟩ := bind_eq_ok h
  refine ⟨{ targetList := targets }, ⟨htargets, buildGroupList_ok rfl rfl hw.hosts hw.members_hosts h, ?_, ?_, hflags⟩⟩
  · rw [Lists.places, List.map_map]
    have hfits := hw.fits
    unfold buildTargetList at htargets
    split at htargets
    · rename_i hnone
      cases htargets
      simp [Json.keys, Json.entries, hnone]
    · rename_i array harray
      rw [Json.keys, entries_of_objectGet harray] at hfits ⊢
      have hnames := map_collect (g := Target.name) (k := fun iter : Json × Nat => iter.1.strField tagAlias)
        (fun iter hiter zs hzs => ?_) htargets
      · have hmap := List.filterMap_map (f := Prod.fst) (g := Json.strField tagAlias) (l := array.elems.zipIdx)
        rw [List.zipIdx_map_fst] at hmap
        rw [hmap]
        exact hnames
      · rcases loadTarget_ok hzs with ⟨hnone, rfl⟩ | ⟨t, rfl, hmade⟩
        · simp [Json.strField, hnone]
        · obtain ⟨name, hname, hcut⟩ := hmade.name
          have hlen := hfits name (List.mem_filterMap.mpr ⟨iter.1, List.fst_mem_of_mem_zipIdx hiter, hname⟩)
          rw [hname, List.map_singleton, hcut, cCut_of_le hlen]
          rfl
  · rw [Lists.places, List.map_map]
    exact (FlagsTell.buildTargetList htargets).targets

namespace ListsLoaded

variable {start : Lists}

theorem nodup_names (h : ListsLoaded root start lists) (hw : WellFormed root) : (start.places.map Prod.fst).Nodup := by
  rw [h.names]
  exact hw.targets

/-- The targets of the lists are those that the load started with, but for the flag. -/
theorem mem_start (h : ListsLoaded root start lists) {t : Target} (ht : t ∈ lists.targetList) :
    ∃ t₀ ∈ start.targetList, t₀.name = t.name ∧ t₀.ptr = t.ptr ∧ t₀.subsysList = t.subsysList := by
  have hmem : t.unflagged ∈ start.unflagged := h.groups.targets ▸ List.mem_map_of_mem ht
  obtain ⟨t₀, ht₀, heq⟩ := List.mem_map.mp hmem
  exact ⟨t₀, ht₀, Target.of_unflagged heq⟩

theorem of_mem_start (h : ListsLoaded root start lists) {t₀ : Target} (ht₀ : t₀ ∈ start.targetList) :
    ∃ t ∈ lists.targetList, t.name = t₀.name ∧ t.ptr = t₀.ptr ∧ t.subsysList = t₀.subsysList := by
  have hmem : t₀.unflagged ∈ lists.unflagged := h.groups.targets ▸ List.mem_map_of_mem ht₀
  obtain ⟨t, ht, heq⟩ := List.mem_map.mp hmem
  exact ⟨t, ht, Target.of_unflagged heq⟩

theorem place_of_mem (h : ListsLoaded root start lists) {t : Target} (ht : t ∈ lists.targetList) :
    (t.name, t.ptr) ∈ start.places := by
  obtain ⟨t₀, ht₀, hname, hptr, -⟩ := h.mem_start ht
  exact List.mem_map.mpr ⟨t₀, ht₀, by rw [hname, hptr]⟩

/-- A target of the lists and the entry it was made of. -/
theorem entry_of_mem (h : ListsLoaded root start lists) (hw : WellFormed root) {t : Target} (ht : t ∈ lists.targetList) :
    ∃ x ∈ root.entries tagTargets, x.strField tagAlias = some t.name ∧
      if oobComplete x then collect (checkSubsystem (root.objectGet tagHosts)) (x.entries tagSubsystems) = .ok t.subsysList
      else t.subsysList = [] := by
  obtain ⟨t₀, ht₀, hname, -, hsub⟩ := h.mem_start ht
  have hbuild := h.build
  unfold buildTargetList at hbuild
  split at hbuild
  · rw [← Except.ok.inj hbuild] at ht₀
    cases ht₀
  · rename_i array harray
    obtain ⟨⟨x, i⟩, hx, zs, hzs, hmem⟩ := mem_collect hbuild ht₀
    have hx : x ∈ root.entries tagTargets := entries_of_objectGet harray ▸ List.fst_mem_of_mem_zipIdx hx
    rcases loadTarget_ok hzs with ⟨-, rfl⟩ | ⟨t', rfl, hmade⟩
    · cases hmem
    · obtain rfl := List.mem_singleton.mp hmem
      obtain ⟨name, hkey, hcut⟩ := hmade.name
      rw [cCut_of_le (hw.fits name (List.mem_filterMap.mpr ⟨x, hx, hkey⟩))] at hcut
      refine ⟨x, hx, by rw [← hname, hcut, hkey], ?_⟩
      rw [← hsub]
      exact hmade.subsystems

/-- An entry of the store with an alias and the target that was made of it. -/
theorem mem_of_entry (h : ListsLoaded root start lists) (hw : WellFormed root) {x : Json}
    (hx : x ∈ root.entries tagTargets) (hget : x.objectGet tagAlias ≠ none) :
    ∃ t ∈ lists.targetList, x.strField tagAlias = some t.name ∧
      if oobComplete x then collect (checkSubsystem (root.objectGet tagHosts)) (x.entries tagSubsystems) = .ok t.subsysList
      else t.subsysList = [] := by
  have hbuild := h.build
  unfold buildTargetList at hbuild
  split at hbuild
  · rename_i hnone
    simp [Json.entries, hnone] at hx
  · rename_i array harray
    have hentry := hx
    rw [entries_of_objectGet harray] at hx
    obtain ⟨i, hi, rfl⟩ := List.getElem_of_mem hx
    have hmem : (array.elems[i], i) ∈ array.elems.zipIdx := List.mk_mem_zipIdx_iff_getElem?.mpr (List.getElem?_eq_getElem hi)
    obtain ⟨zs, hzs⟩ := collect_each hbuild hmem
    rcases loadTarget_ok hzs with ⟨hnone, -⟩ | ⟨t₀, rfl, hmade⟩
    · exact absurd hnone hget
    · obtain ⟨name, hkey, hcut⟩ := hmade.name
      rw [cCut_of_le (hw.fits name (List.mem_filterMap.mpr ⟨_, hentry, hkey⟩))] at hcut
      obtain ⟨t, ht, htname, -, htsub⟩ := h.of_mem_start (mem_collect_of_mem hbuild hmem hzs List.mem_cons_self)
      refine ⟨t, ht, by rw [htname, hcut, hkey], ?_⟩
      rw [htsub]
      exact hmade.subsystems

theorem find_of_mem (h : ListsLoaded root start lists) (hw : WellFormed root) {t : Target} (ht : t ∈ lists.targetList) :
    findTarget lists t.name = some t := by
  refine find?_of_mem ?_ ht
  have hnames := h.nodup_names hw
  rwa [← places_of_unflagged h.groups.targets, Lists.places, List.map_map] at hnames

/-- The flag of a target says whether a group names it. -/
theorem flag_iff (h : ListsLoaded root start lists) (hw : WellFormed root) {t : Target} (ht : t ∈ lists.targetList) :
    t.groupMember = true ↔ NamesTarget root t.name := by
  rw [← h.groups.linked_iff (h.nodup_names hw) h.ptrs (h.place_of_mem ht), h.flags.flags t ht, linked, List.any_eq_true]
  simp only [decide_eq_true_eq]

/-- The filter of the groups, by whichever field of a link a host is looked for. -/
theorem filter_iff (h : ListsLoaded root start lists) (hw : WellFormed root) {t : Target} (ht : t ∈ lists.targetList)
    {isHost : GroupHostLink → Bool} (hhost : ∀ l ∈ lists.hostList, isHost l = true ↔ l.name = host) :
    ∃ b, (if t.groupMember then sharesGroup lists.groupList t isHost lists.hostList else .ok true) = .ok b ∧
      (b = true ↔ SeenBy root t.name host) := by
  by_cases hflag : t.groupMember = true
  · obtain ⟨b, hb, hiff⟩ := h.groups.shares_iff (h.nodup_names hw) h.ptrs (h.place_of_mem ht) hhost
    refine ⟨b, by rw [if_pos hflag, hb], hiff.trans ?_⟩
    exact ⟨fun hboth _ => hboth, fun hseen => hseen ((h.flag_iff hw ht).mp hflag)⟩
  · refine ⟨true, by rw [if_neg hflag], fun _ hnames => ?_, fun _ => rfl⟩
    exact absurd ((h.flag_iff hw ht).mpr hnames) hflag

end ListsLoaded

/-! ## The two walks -/

theorem mem_pairs_append (view : HostView) (shared restricted : List Json) (p : String × String) :
    p ∈ HostView.pairs ⟨view.shared ++ shared, view.restricted ++ restricted⟩ ↔
      p ∈ view.pairs ∨ p ∈ shared.filterMap viewedPair ∨ p ∈ restricted.filterMap viewedPair := by
  simp only [HostView.pairs, List.filterMap_append, List.mem_append]
  tauto

theorem viewedPair_addHostSubsys (name : String) (nqn : Json) :
    viewedPair (addHostSubsys (.string name) nqn) = nqn.stringValue.map (fun q => (name, q)) := by
  cases nqn <;> rfl

theorem mem_viewSubsys (host name : String) (view : HostView) (s : Json) (p : String × String) :
    p ∈ (viewSubsys host (.string name) view s).pairs ↔
      p ∈ view.pairs ∨ (name = p.1 ∧ s.strField tagSubnqn = some p.2 ∧ (opensToAny s = true ∨ host ∈ s.strings tagHosts)) := by
  unfold viewSubsys
  cases hget : s.objectGet tagSubnqn with
  | none => simp [Json.strField, hget]
  | some nqn =>
    have hpair : ∀ q, some q = viewedPair (addHostSubsys (.string name) nqn) ↔ name = q.1 ∧ nqn.stringValue = some q.2 := by
      rintro ⟨q₁, q₂⟩
      rw [viewedPair_addHostSubsys, eq_comm, Option.map_eq_some_iff]
      simp only [Prod.mk.injEq]
      constructor
      · rintro ⟨q, hq, rfl, rfl⟩
        exact ⟨rfl, hq⟩
      · rintro ⟨rfl, hq⟩
        exact ⟨q₂, hq, rfl, rfl⟩
    dsimp only
    rw [Json.strField, hget, Option.bind_some]
    by_cases hopen : opensToAny s = true
    · rw [if_pos hopen]
      have happend := mem_pairs_append view [addHostSubsys (.string name) nqn] [] p
      rw [List.append_nil] at happend
      rw [happend, List.filterMap_nil]
      simp only [List.mem_filterMap, List.mem_singleton, exists_eq_left, List.not_mem_nil, or_false, hopen, true_or, and_true]
      rw [eq_comm, hpair]
    · rw [if_neg hopen]
      have happend := mem_pairs_append view [] (((s.entries tagHosts).filter (fun item => matchString item host)).map
        (fun _ => addHostSubsys (.string name) nqn)) p
      rw [List.append_nil] at happend
      rw [happend, List.filterMap_nil]
      have hmem : host ∈ s.strings tagHosts ↔ ∃ item ∈ s.entries tagHosts, matchString item host = true := by
        simp only [Json.strings, List.mem_filterMap, matchString, decide_eq_true_eq]
      simp only [List.not_mem_nil, false_or, List.mem_filterMap, List.mem_map, List.mem_filter, hopen, hmem]
      constructor
      · rintro (hp | ⟨obj, ⟨item, hitem, rfl⟩, hobj⟩)
        · exact Or.inl hp
        · obtain ⟨h₁, h₂⟩ := (hpair p).mp hobj.symm
          exact Or.inr ⟨h₁, h₂, Or.inr ⟨item, hitem⟩⟩
      · rintro (hp | ⟨h₁, h₂, hfalse | ⟨item, hitem⟩⟩)
        · exact Or.inl hp
        · exact absurd hfalse Bool.false_ne_true
        · exact Or.inr ⟨_, ⟨item, hitem, rfl⟩, ((hpair p).mpr ⟨h₁, h₂⟩).symm⟩

theorem mem_viewSubsystems (host name : String) (view : HostView) (ss : List Json) (p : String × String) :
    p ∈ (ss.foldl (viewSubsys host (.string name)) view).pairs ↔
      p ∈ view.pairs ∨ ∃ s ∈ ss, name = p.1 ∧ s.strField tagSubnqn = some p.2 ∧
        (opensToAny s = true ∨ host ∈ s.strings tagHosts) := by
  induction ss generalizing view with
  | nil => simp
  | cons s ss ih =>
    rw [List.foldl_cons, ih, mem_viewSubsys]
    simp only [List.mem_cons, exists_eq_or_imp, or_assoc]

namespace ListsLoaded

variable {start : Lists}

/-- One entry of the walk over the store. -/
theorem viewTarget_ok (h : ListsLoaded root start lists) (hw : WellFormed root) (host : String) (view : HostView) {x : Json}
    (hx : x ∈ root.entries tagTargets) :
    ∃ view', viewTarget lists host view x = .ok view' ∧ ∀ p, p ∈ view'.pairs ↔
      p ∈ view.pairs ∨ ∃ s, ShownTo root x s p.1 p.2 host := by
  unfold viewTarget
  cases hget : x.objectGet tagAlias with
  | none =>
    refine ⟨view, rfl, fun p => ⟨Or.inl, ?_⟩⟩
    rintro (hp | ⟨s, ⟨-, hname, -, -⟩, -, -⟩)
    · exact hp
    · simp [Json.strField, hget] at hname
  | some value =>
    obtain ⟨t, ht, hname, -⟩ := h.mem_of_entry hw hx (by rw [hget]; exact Option.some_ne_none value)
    obtain rfl : value = .string t.name := Option.some.inj (hget.symm.trans (Json.objectGet_of_strField hname))
    have hlink : ∀ l ∈ lists.hostList, (l.name == host) = true ↔ l.name = host := fun l _ => beq_iff_eq
    obtain ⟨b, hb, hiff⟩ := h.filter_iff hw ht hlink
    dsimp only
    by_cases harray : (x.arrayOr tagSubsystems).isArray = true
    · rw [if_pos harray]
      have hviewed : viewedBy lists host (some t) = .ok b := hb
      simp only [Json.stringValue, findTargetPtr, h.find_of_mem hw ht, hviewed, bind, Except.bind, pure, Except.pure]
      refine ⟨_, rfl, fun p => ?_⟩
      by_cases hseen : b = true
      · rw [if_pos hseen, mem_viewSubsystems]
        refine or_congr_right (exists_congr (fun s => ?_))
        constructor
        · rintro ⟨hs, heq, hnqn, hopen⟩
          exact ⟨⟨hx, heq ▸ hname, hs, hnqn⟩, heq ▸ hiff.mp hseen, hopen⟩
        · rintro ⟨⟨-, hname', hs, hnqn⟩, -, hopen⟩
          exact ⟨hs, Option.some.inj (hname.symm.trans hname'), hnqn, hopen⟩
      · rw [if_neg hseen]
        refine ⟨Or.inl, ?_⟩
        rintro (hp | ⟨s, ⟨-, hname', -, -⟩, hsee, -⟩)
        · exact hp
        · rw [← Option.some.inj (hname.symm.trans hname')] at hsee
          exact absurd (hiff.mpr hsee) hseen
    · rw [if_neg harray]
      refine ⟨view, rfl, fun p => ⟨Or.inl, ?_⟩⟩
      rintro (hp | ⟨s, ⟨-, -, hs, -⟩, -, -⟩)
      · exact hp
      · rw [Json.entries_of_not_isArray harray] at hs
        cases hs

/-- The subsystems that the store shows a host. -/
theorem getHostSubsystems_ok (h : ListsLoaded root start lists) (hw : WellFormed root) (host : String) :
    ∃ view, getHostSubsystems root lists host = .ok (ensureSubsystems root, view) ∧
      ∀ p, p ∈ view.pairs ↔ ∃ x s, ShownTo root x s p.1 p.2 host := by
  have hwalk : ∀ (xs : List Json) (view : HostView), (∀ x ∈ xs, x ∈ root.entries tagTargets) →
      ∃ view', xs.foldlM (viewTarget lists host) view = .ok view' ∧ ∀ p, p ∈ view'.pairs ↔
        p ∈ view.pairs ∨ ∃ x ∈ xs, ∃ s, ShownTo root x s p.1 p.2 host := by
    intro xs
    induction xs with
    | nil => exact fun view _ => ⟨view, rfl, fun p => by simp⟩
    | cons x xs ih =>
      intro view hxs
      obtain ⟨view₁, hstep, hmem₁⟩ := h.viewTarget_ok hw host view (hxs x List.mem_cons_self)
      obtain ⟨view', hrest, hmem⟩ := ih view₁ (fun y hy => hxs y (List.mem_cons_of_mem x hy))
      refine ⟨view', ?_, fun p => ?_⟩
      · rw [List.foldlM_cons, hstep]
        exact hrest
      · rw [hmem, hmem₁]
        simp only [List.mem_cons, exists_eq_or_imp, or_assoc]
  obtain ⟨view, hfold, hmem⟩ := hwalk (root.entries tagTargets) {} (fun x hx => hx)
  refine ⟨view, ?_, fun p => ?_⟩
  · unfold getHostSubsystems
    rw [hfold]
    rfl
  · rw [hmem]
    constructor
    · rintro (hp | ⟨x, -, s, hshown⟩)
      · cases hp
      · exact ⟨x, s, hshown⟩
    · rintro ⟨x, s, hshown⟩
      exact Or.inr ⟨x, hshown.1.target, s, hshown⟩

/-- A link is that of a host by its NQN if and only if it is by its alias. -/
theorem link_iff (h : ListsLoaded root start lists) (hw : WellFormed root) (hhost : IsHost root host nqn) :
    ∀ l ∈ lists.hostList, (l.nqn == nqn) = true ↔ l.name = host := by
  intro l hl
  obtain ⟨-, -, -, -, -, hlhost⟩ := h.groups.link_of_mem hl
  rw [beq_iff_eq]
  constructor
  · rintro rfl
    exact hw.host_eq hlhost hhost
  · rintro rfl
    exact hw.nqn_eq hlhost hhost

/-- The subsystems that the lists serve to a host. -/
theorem servedSubsystems_ok (h : ListsLoaded root start lists) (hw : WellFormed root) (hhost : IsHost root host nqn) :
    ∃ pairs, servedSubsystems lists nqn = .ok pairs ∧
      ∀ p, p ∈ pairs.map (fun p => (p.1.name, p.2.nqn)) ↔ ∃ x s, ServedTo root x s p.1 p.2 host := by
  have hseen : ∀ t ∈ lists.targetList, ∃ b, (if t.groupMember then sharedGroup lists t nqn else .ok true) = .ok b ∧
      (b = true ↔ SeenBy root t.name host) := fun t ht => h.filter_iff hw ht (h.link_iff hw hhost)
  obtain ⟨pairs, hpairs⟩ := walkSubsystems_ok (fun subsys => decide (subsys.access ≠ 0) || hostAccess subsys nqn)
    (fun t ht => (hseen t ht).imp (fun b hb => hb.1))
  have hmem := mem_walkSubsystems hpairs
  refine ⟨pairs, hpairs, fun p => ?_⟩
  rw [List.mem_map]
  constructor
  · rintro ⟨⟨t, subsys⟩, hp, rfl⟩
    obtain ⟨ht, hin, hsub, hopen⟩ := (hmem _).mp hp
    obtain ⟨b, hb, hiff⟩ := hseen t ht
    obtain rfl : b = true := Except.ok.inj (hb.symm.trans hin)
    obtain ⟨x, hx, hname, hload⟩ := h.entry_of_mem hw ht
    split at hload
    · rename_i hcomplete
      obtain ⟨s, hs, ss, hss, hmem'⟩ := mem_collect hload hsub
      obtain ⟨hnqn, hopen'⟩ := letsIn_iff hw hhost hmem' hss
      exact ⟨x, s, ⟨hx, hname, hs, hnqn⟩, hiff.mp rfl, hcomplete, hopen'.mp hopen⟩
    · rw [hload] at hsub
      cases hsub
  · rintro ⟨x, s, ⟨hx, hname, hs, hnqn⟩, hsee, hcomplete, hopen⟩
    obtain ⟨t, ht, htname, hload⟩ := h.mem_of_entry hw hx (fun hnone => by simp [Json.strField, hnone] at hname)
    have heq : t.name = p.1 := Option.some.inj (htname.symm.trans hname)
    rw [if_pos hcomplete] at hload
    obtain ⟨ss, hss⟩ := collect_each hload hs
    obtain ⟨subsys, rfl, -, -⟩ := checkSubsystem_access hnqn hss
    obtain ⟨hnqn', hopen'⟩ := letsIn_iff hw hhost List.mem_cons_self hss
    obtain ⟨b, hb, hiff⟩ := hseen t ht
    rw [hiff.mpr (heq ▸ hsee)] at hb
    refine ⟨(t, subsys), (hmem _).mpr ⟨ht, hb, ?_, hopen'.mpr hopen⟩, ?_⟩
    · exact mem_collect_of_mem hload hs hss List.mem_cons_self
    · rw [heq, Option.some.inj (hnqn'.symm.trans hnqn)]

end ListsLoaded

/-! ## Agreement -/

/-- What the lists open to every host the store opens too. -/
theorem opensToAny_of_access {s : Json} (h : loadedAccess s ≠ 0) : opensToAny s = true := by
  unfold loadedAccess Json.intField at h
  unfold opensToAny
  rw [decide_eq_true_eq]
  cases hv : s.objectGet tagAllowAny with
  | none => simp [hv] at h
  | some v =>
    cases v with
    | integer n =>
      rw [hv] at h
      rintro (hzero : n = 0)
      rw [hzero] at h
      exact h rfl
    | _ => simp [hv, Json.integer?] at h

theorem ServedTo.shown {x s : Json} {name q : String} (h : ServedTo root x s name q host) : ShownTo root x s name q host :=
  ⟨h.1, h.2.1, h.2.2.2.imp_left opensToAny_of_access⟩

/-- Names that are distinct tell the subsystems of the store apart. -/
theorem SubsysOf.eq (hw : WellFormed root) {x s x' s' : Json} {name q : String} (h : SubsysOf root x s name q)
    (h' : SubsysOf root x' s' name q) : x = x' ∧ s = s' := by
  obtain rfl : x = x' := eq_of_count_le_one (List.nodup_iff_count_le_one.mp hw.targets name) h.target h'.target h.name h'.name
  exact ⟨rfl, eq_of_count_le_one (List.nodup_iff_count_le_one.mp (hw.subsystems x h.target) q) h.subsys h'.subsys h.nqn h'.nqn⟩

/-- Each subsystem that the store shows a host is one of a target that the lists have its subsystems of, and is open to the host
by its list or by an access that is not zero as a C `int`. -/
def LoadedAsShown (root : Json) (host : String) : Prop :=
  ∀ x s name q, ShownTo root x s name q host → oobComplete x = true ∧ (loadedAccess s ≠ 0 ∨ host ∈ s.strings tagHosts)

/-- The subsystems that the lists serve to a host, as `handleGetLogPages` decides it. -/
def Serves (lists : Lists) (nqn : String) (t : Target) (s : Subsystem) : Prop :=
  t ∈ lists.targetList ∧ s ∈ t.subsysList ∧ (t.groupMember = false ∨ sharedGroup lists t nqn = .ok true) ∧
    (s.access ≠ 0 ∨ hostAccess s nqn = true)

/-- A configuration with a host, and a target in its group. A subsystem of the target has a given access and no list, another one
lists the host. -/
def viewConfig (access : Int) : Json :=
  .object
    [(tagHosts, .array [.object [(tagAlias, .string "h"), (tagHostnqn, .string "nqn.h")]]),
     (tagTargets, .array [.object
       [(tagAlias, .string "t"),
        (tagSubsystems, .array
          [.object [(tagSubnqn, .string "s1"), (tagAllowAny, .integer access)],
           .object [(tagSubnqn, .string "s2"), (tagHosts, .array [.string "h"])]])]]),
     (tagGroups, .array [.object
       [(tagName, .string "g"), (tagTargets, .array [.string "t"]), (tagHosts, .array [.string "h"])]])]

theorem viewConfig_wellFormed (access : Int) : WellFormed (viewConfig access) where
  targets := List.nodup_singleton "t"
  fits := by
    intro name hname
    obtain rfl := List.mem_singleton.mp hname
    decide
  subsystems := by
    intro x hx
    obtain rfl := List.mem_singleton.mp hx
    have hkeys : List.Nodup ["s1", "s2"] := by decide
    exact hkeys
  hosts := List.nodup_singleton "h"
  nqns := List.nodup_singleton "nqn.h"
  hostNqn := by
    intro x hx name _
    obtain rfl := List.mem_singleton.mp hx
    exact ⟨"nqn.h", rfl⟩
  members := by
    intro g hg m hm
    obtain rfl := List.mem_singleton.mp hg
    exact hm

theorem viewConfig_host (access : Int) : IsHost (viewConfig access) "h" "nqn.h" := List.mem_singleton.mpr rfl

/-- What is loaded of it. -/
def viewLists (access : Int) : Lists where
  targetList :=
    [{ ptr := 0
       name := "t"
       groupMember := true
       subsysList := [{ nqn := "s1", access := cInt access }, { nqn := "s2", hostList := [⟨"h", "nqn.h"⟩] }] }]
  groupList := [{ ptr := 0, name := "g", targetList := [0] }]
  hostList := [{ group := some 0, name := "h", nqn := "nqn.h" }]

end NvmeDem
