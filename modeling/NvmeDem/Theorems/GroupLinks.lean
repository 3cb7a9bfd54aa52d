import NvmeDem.Dem.Requests
import NvmeDem.Lemmas.LoadedGroups
import NvmeDem.Lemmas.Members
import NvmeDem.Lemmas.Paired

/-!
# The links of the groups

A group of the store lists the aliases of its targets; a group of the lists has a link to each of them. A request that adds a
target to a group links it whether or not the group has it already, while the store lists it once. A request that deletes a
target takes it from the groups of the store and leaves the links, which then lead nowhere. In every run without these two, the
links of a group are those of its aliases, one by one.
-/

namespace NvmeDem

open Jansson Keyed

/-! ## Links -/

/-- A group of the store and its group of the lists: the one has an alias once, and the other has the links of the aliases. -/
structure GroupLinked (known : List (String × Nat)) (x : Json) (g : Group) : Prop where
  pushes : x.canPush tagTargets = true
  distinct : (x.strings tagTargets).Nodup
  links : List.Forall₂ (fun m ptr => (m, ptr) ∈ known) (x.strings tagTargets) g.targetList

/-- The groups of the store and of the lists stand for one another, and so do the targets. -/
structure LinksMirror (root : Json) (known : List (String × Nat)) (groupList : List Group) : Prop where
  pushes : root.canPush tagTargets = true
  targets : Pairs (Json.strField tagAlias) Prod.fst (fun _ _ => True) (root.entries tagTargets) known
  names : (known.map Prod.fst).Nodup
  ptrs : (known.map Prod.snd).Nodup
  groups : Pairs (Json.strField tagName) Group.name (GroupLinked known) (root.entries tagGroups) groupList
  groupPtrs : (groupList.map Group.ptr).Nodup

variable {known : List (String × Nat)} {x x' : Json} {g : Group} {m : String} {ptr : Nat}

namespace GroupLinked

/-- What a group is linked to depends on its list alone. -/
theorem of_strings (h : GroupLinked known x g) (hpush : x'.canPush tagTargets = x.canPush tagTargets)
    (hstrings : x'.strings tagTargets = x.strings tagTargets) : GroupLinked known x' g :=
  ⟨hpush.trans h.pushes, hstrings ▸ h.distinct, hstrings ▸ h.links⟩

/-- An alias is added, and the link of its target. -/
theorem push (h : GroupLinked known x g) (hm : m ∉ x.strings tagTargets) (hknown : (m, ptr) ∈ known) :
    GroupLinked known (x.pushAt tagTargets (.string m)) { g with targetList := g.targetList ++ [ptr] } := by
  have hstrings : (x.pushAt tagTargets (.string m)).strings tagTargets = x.strings tagTargets ++ [m] := by
    rw [Json.strings, Json.entries_pushAt_of_canPush h.pushes, List.filterMap_append]
    rfl
  refine ⟨by rw [Json.canPush_pushAt]; exact h.pushes, ?_, ?_⟩
  · rw [hstrings, List.nodup_append]
    refine ⟨h.distinct, List.nodup_singleton m, fun a ha b hb => ?_⟩
    rw [List.mem_singleton.mp hb]
    rintro rfl
    exact hm ha
  · rw [hstrings]
    exact List.rel_append h.links (.cons hknown .nil)

/-- An alias is removed, and the link of its target. -/
theorem remove (h : GroupLinked known x g) (hnames : (known.map Prod.fst).Nodup) (hptrs : (known.map Prod.snd).Nodup)
    {j : Nat} (hj : (x.entries tagTargets).findIdx? (fun iter => decide (iter.stringValue = some m)) = some j)
    (hknown : (m, ptr) ∈ known) :
    GroupLinked known (x.removeAt tagTargets j) { g with targetList := g.targetList.erase ptr } := by
  have hstrings : (x.removeAt tagTargets j).strings tagTargets = (x.strings tagTargets).eraseP (fun k => k == m) := by
    rw [Json.strings, Json.entries_removeAt, keys_eraseIdx_first hj]
    rfl
  refine ⟨by rw [Json.canPush_removeAt]; exact h.pushes, ?_, ?_⟩
  · rw [hstrings]
    exact List.eraseP_sublist.nodup h.distinct
  · rw [hstrings]
    show List.Forall₂ _ _ (g.targetList.erase ptr)
    rw [List.erase_eq_eraseP']
    -- An alias is the one that is removed if and only if its link is.
    refine forall₂_eraseP h.links (fun m' ptr' hmem => ?_)
    rw [Bool.eq_iff_iff, beq_iff_eq, beq_iff_eq]
    constructor
    · rintro rfl
      exact congrArg Prod.snd (List.inj_on_of_nodup_map hnames hmem hknown rfl)
    · rintro rfl
      exact congrArg Prod.fst (List.inj_on_of_nodup_map hptrs hmem hknown rfl)

/-- No target is linked twice. -/
theorem nodup_links (h : GroupLinked known x g) (hptrs : (known.map Prod.snd).Nodup) : g.targetList.Nodup := by
  have hdistinct := h.distinct
  have hlinks := h.links
  generalize x.strings tagTargets = ms at hdistinct hlinks
  generalize g.targetList = links at hlinks
  induction hlinks with
  | nil => exact List.nodup_nil
  | @cons m ptr ms links hmem hrest ih =>
    rw [List.nodup_cons] at hdistinct ⊢
    refine ⟨fun hptr => hdistinct.1 ?_, ih hdistinct.2⟩
    obtain ⟨m', hm', hmem'⟩ := forall₂_mem_right hrest hptr
    obtain rfl : m' = m := congrArg Prod.fst (List.inj_on_of_nodup_map hptrs hmem' hmem rfl)
    exact hm'

/-- The targets that the group lists are still there. -/
theorem of_known (h : GroupLinked known x g) {known' : List (String × Nat)}
    (hknown : ∀ m ptr, m ∈ x.strings tagTargets → (m, ptr) ∈ known → (m, ptr) ∈ known') : GroupLinked known' x g :=
  ⟨h.pushes, h.distinct, forall₂_imp_of_mem h.links (fun m ptr hm => hknown m ptr hm)⟩

end GroupLinked

namespace LinksMirror

variable {root : Json} {groupList : List Group} {name : String} {i : Nat}

/-- A target of the store is a target of the lists. -/
theorem known_of_key (h : LinksMirror root known groupList) (hm : m ∈ root.keys tagTargets tagAlias) :
    m ∈ known.map Prod.fst := by
  rw [← h.targets.keys]
  exact hm

theorem key_of_known (h : LinksMirror root known groupList) (hm : m ∈ known.map Prod.fst) :
    m ∈ root.keys tagTargets tagAlias := by
  rw [Json.keys, h.targets.keys]
  exact hm

/-- A group is changed, in the store and in the lists. -/
theorem onGroup (h : LinksMirror root known groupList) (hx : GroupAt root name i x) {f : Group → Group}
    (hptr : ∀ g, (f g).ptr = g.ptr) (hname : ∀ g, (f g).name = g.name) (hkey : x'.strField tagName = x.strField tagName)
    (hf : ∀ g, GroupLinked known x g → GroupLinked known x' (f g)) :
    LinksMirror (root.putAt tagGroups i x') known (modifyFirst (fun g => g.name == name) f groupList) where
  pushes := by
    rw [Json.canPush_putAt]
    exact h.pushes
  targets := by
    rw [Json.entries_putAt_ne (by decide)]
    exact h.targets
  names := h.names
  ptrs := h.ptrs
  groups := by
    rw [Json.entries_putAt]
    refine Pairs.modify h.groups hx.first (fun y g hy _ hg hlinked => ⟨?_, ?_⟩)
    · rw [hkey, hx.key, hname, hg]
    · obtain rfl := Option.some.inj (hx.get.symm.trans hy)
      exact hf g hlinked
  groupPtrs := by
    rw [map_modifyFirst_same hptr]
    exact h.groupPtrs

/-- A group without targets is added. -/
theorem addGroup (h : LinksMirror root known groupList) {group : Group} (hpush : root.canPush tagGroups = true)
    (hx : x.strField tagName = some group.name) (hlist : x.canPush tagTargets = true) (hentries : x.entries tagTargets = [])
    (hgroup : group.targetList = []) (hfresh : group.ptr ∉ groupList.map Group.ptr) :
    LinksMirror (root.pushAt tagGroups x) known (groupList ++ [group]) where
  pushes := by
    rw [Json.canPush_pushAt]
    exact h.pushes
  targets := by
    rw [Json.entries_pushAt_ne (by decide)]
    exact h.targets
  names := h.names
  ptrs := h.ptrs
  groups := by
    rw [Json.entries_pushAt_of_canPush hpush]
    have hstrings : x.strings tagTargets = [] := by rw [Json.strings, hentries]; rfl
    exact h.groups.concat hx ⟨hlist, by rw [hstrings]; exact List.nodup_nil, by rw [hstrings, hgroup]; exact .nil⟩
  groupPtrs := nodup_map_concat h.groupPtrs hfresh

/-- A target is added. No group has it yet. -/
theorem addTarget (h : LinksMirror root known groupList) (hx : x.strField tagAlias = some name)
    (hname : name ∉ root.keys tagTargets tagAlias) (hptr : ptr ∉ known.map Prod.snd) :
    LinksMirror (root.pushAt tagTargets x) (known ++ [(name, ptr)]) groupList where
  pushes := by
    rw [Json.canPush_pushAt]
    exact h.pushes
  targets := by
    rw [Json.entries_pushAt_of_canPush h.pushes]
    exact h.targets.concat hx trivial
  names := nodup_map_concat h.names (fun hmem => hname (by rw [Json.keys, h.targets.keys]; exact hmem))
  ptrs := nodup_map_concat h.ptrs hptr
  groups := by
    rw [Json.entries_pushAt_ne (by decide)]
    exact h.groups.imp (fun x g hlinked => hlinked.of_known (fun m ptr _ hmem => List.mem_append_left _ hmem))
  groupPtrs := h.groupPtrs

/-- A target that no group lists is deleted. -/
theorem delTarget (h : LinksMirror root known groupList) {t : Json} (ht : TargetAt root name i t)
    (hnone : ∀ x ∈ root.entries tagGroups, name ∉ x.strings tagTargets) :
    LinksMirror (delFromGroups (root.removeAt tagTargets i) tagTargets name) (known.eraseP (fun k => k.1 == name))
      groupList where
  pushes := by
    unfold delFromGroups
    rw [Json.canPush_adjust_ne (by decide), Json.canPush_removeAt]
    exact h.pushes
  targets := by
    rw [entries_delFromGroups_ne (by decide), Json.entries_removeAt]
    exact h.targets.erase ht.findIdx
  names := (List.eraseP_sublist.map _).nodup h.names
  ptrs := (List.eraseP_sublist.map _).nodup h.ptrs
  groups := by
    rw [entries_delFromGroups, Json.entries_removeAt_ne (by decide)]
    refine List.forall₂_map_left_iff.mpr (forall₂_imp_of_mem h.groups (fun x g hx hlinked => ⟨?_, ?_⟩))
    · rw [groupWithout, Json.strField_adjust_ne (by decide)]
      exact hlinked.1
    · have hstrings : (groupWithout tagTargets name x).strings tagTargets = x.strings tagTargets :=
        strings_groupWithout (hnone x hx)
      refine (hlinked.2.of_strings (canPush_groupWithout ..) hstrings).of_known (fun m ptr hm hmem => ?_)
      rw [hstrings] at hm
      refine List.mem_eraseP_of_neg ?_ |>.mpr hmem
      simp only [beq_iff_eq]
      rintro rfl
      exact hnone x hx hm
  groupPtrs := h.groupPtrs

end LinksMirror

/-! ## Requests -/

/-- The mirror, of the daemon. -/
def SameLinks (d : Daemon) : Prop := LinksMirror d.root d.lists.places d.lists.groupList

variable {J : JsonLib} {w : World} {d : Daemon} {a : Answer}

/-- A target of the store is found in the lists. -/
theorem SameLinks.find (h : SameLinks d) (hm : m ∈ d.root.keys tagTargets tagAlias) :
    ∃ target, findTarget d.lists m = some target ∧ target.name = m ∧ (m, target.ptr) ∈ d.lists.places := by
  obtain ⟨⟨name, ptr⟩, hk, rfl⟩ := List.mem_map.mp (h.known_of_key hm)
  obtain ⟨t, ht, heq⟩ := List.mem_map.mp hk
  obtain ⟨rfl, rfl⟩ := Prod.mk.inj heq
  have hnames : (d.lists.targetList.map Target.name).Nodup := by
    have hnodup := h.names
    rwa [Lists.places, List.map_map] at hnodup
  exact ⟨t, find?_of_mem hnames ht, rfl, hk⟩

/-- A group of the store is found in the lists, and can be told by its address. -/
theorem SameLinks.findGroup (h : SameLinks d) {name : String} {i : Nat} (hx : GroupAt d.root name i x) :
    ∃ group, findGroup d.lists name = some group ∧ GroupLinked d.lists.places x group ∧
      ∀ f : Group → Group, modifyFirst (fun g => g.ptr == group.ptr) f d.lists.groupList =
        modifyFirst (fun g => g.name == name) f d.lists.groupList := by
  obtain ⟨y, group, hy, hfind, -, hlinked⟩ := Pairs.find h.groups hx.first
  obtain rfl := Option.some.inj (hx.get.symm.trans hy)
  exact ⟨group, hfind, hlinked, fun f => modifyFirst_of_find h.groupPtrs hfind⟩

theorem addGroup_links (h : SameLinks d) (hf : w.Fresh d) {name : Option String}
    (hfits : ∀ n, name = some n → n ∉ d.root.keys tagGroups tagName → cCut maxAliasSize n = n)
    (hr : addGroup w d name = .ok a) : SameLinks a.dem := by
  obtain ⟨r, hstore, hr⟩ := afterStore_ok hr
  rcases ret_cases (addJsonGroup_ok hstore) hr with ⟨hroot, rfl⟩ | ⟨⟨hfresh, hpush, hroot⟩, hr⟩
  · rw [hroot]
    exact h
  · cases name with
    | none => cases hr
    | some n =>
      cases hr
      rw [hroot]
      refine LinksMirror.addGroup h hpush ?_ rfl rfl rfl ?_
      · show _ = some (cCut maxAliasSize n)
        rw [hfits n rfl (hfresh n rfl)]
        rfl
      · intro hmem
        exact hf (List.mem_append_left _ (List.mem_append_right _ hmem))

theorem addTarget_links (h : SameLinks d) (hf : w.Fresh d) {tgt : Option String}
    (hfits : ∀ n, tgt = some n → n ∉ d.root.keys tagTargets tagAlias → cCut maxAliasSize n = n)
    (hr : addTarget w d tgt = .ok a) : SameLinks a.dem := by
  unfold addTarget at hr
  split at hr
  · cases hr
  · rename_i r hstore
    rcases addJsonTarget_ok hstore with ⟨hne, hroot⟩ | ⟨hz, hfresh, hroot⟩
    · rw [if_neg hne] at hr
      cases hr
      rw [hroot]
      exact h
    · rw [if_pos hz] at hr
      cases tgt with
      | none => cases hr
      | some n =>
        cases hr
        rw [hroot]
        have hplaces : (allocTarget d.lists w n).places = d.lists.places ++ [(n, w.addr)] := by
          rw [Lists.places, allocTarget, List.map_append, hfits n rfl (hfresh n rfl)]
          rfl
        unfold SameLinks
        rw [hplaces]
        refine LinksMirror.addTarget h rfl (hfresh n rfl) (fun hmem => hf ?_)
        refine List.mem_append_left _ (List.mem_append_left _ ?_)
        rwa [Lists.places, List.map_map] at hmem

theorem delTarget_links (h : SameLinks d) {tgt : Option String}
    (hnone : ∀ n, tgt = some n → n ∈ d.root.keys tagTargets tagAlias →
      ∀ x ∈ d.root.entries tagGroups, n ∉ x.strings tagTargets)
    (hr : delTarget d tgt = .ok a) : SameLinks a.dem := by
  obtain ⟨r, hstore, hr⟩ := afterStore_ok hr
  rcases ret_cases (delJsonTarget_ok hstore) hr with ⟨hroot, rfl⟩ | ⟨⟨i, t, name, ht, rfl, hroot⟩, hr⟩
  · rw [hroot]
    exact h
  · have hkey : name ∈ d.root.keys tagTargets tagAlias :=
      List.mem_filterMap.mpr ⟨t, List.mem_of_getElem? ht.get, ht.key⟩
    obtain ⟨target, hfind, -, -⟩ := h.find hkey
    simp only [cStr, Option.getD_some, hfind] at hr
    cases hr
    rw [hroot]
    have hplaces : ({ d.lists with targetList := d.lists.targetList.eraseP (fun t => t.name == name) } : Lists).places =
        d.lists.places.eraseP (fun k => k.1 == name) := by
      rw [Lists.places, Lists.places, List.eraseP_map]
      rfl
    show LinksMirror _ (Lists.places { d.lists with targetList := d.lists.targetList.eraseP (fun t => t.name == name) }) _
    rw [hplaces]
    exact LinksMirror.delTarget h ht (hnone name rfl hkey)

/-- A host of a group: the targets that the group lists stay. -/
theorem SameLinks.of_member (h : SameLinks d) {name : String} {i : Nat} (hx : GroupAt d.root name i x)
    (hkey : x'.strField tagName = x.strField tagName) (hpush : x'.canPush tagTargets = x.canPush tagTargets)
    (hentries : x'.entries tagTargets = x.entries tagTargets) :
    LinksMirror (d.root.putAt tagGroups i x') d.lists.places d.lists.groupList := by
  have hstrings : x'.strings tagTargets = x.strings tagTargets := by rw [Json.strings, hentries, Json.strings]
  have hsame := LinksMirror.onGroup h hx (f := id) (fun _ => rfl) (fun _ => rfl) hkey (fun g hg => hg.of_strings hpush hstrings)
  rwa [modifyFirst_id] at hsame

theorem setGroupMember_links (h : SameLinks d) {name member : String} {data : Option String} {kind : Member}
    (hnew : kind = .target → ∀ m i x, memberAlias J data member = some m → m ∈ d.root.keys tagTargets tagAlias →
      GroupAt d.root name i x → m ∉ x.strings tagTargets)
    (hr : setGroupMember J w d name data member kind = .ok a) : SameLinks a.dem := by
  obtain ⟨r, hstore, hr⟩ := afterStore_ok hr
  rcases ret_cases (setJsonGroupMember_ok hstore) hr with ⟨hroot, rfl⟩ | ⟨⟨i, x, m, hx, hmember, hout, hknown, hadd⟩, hr⟩
  · rw [hroot]
    exact h
  · obtain ⟨lists, hlists, hr⟩ := bind_eq_ok hr
    cases hr
    cases kind with
    | host =>
      obtain ⟨⟨ret, nqn⟩, -, hlists⟩ := bind_eq_ok hlists
      obtain ⟨alias', -, hlists⟩ := bind_eq_ok hlists
      cases hlists
      rcases hadd with ⟨-, hroot⟩ | ⟨-, hroot⟩
      · show LinksMirror r.root _ _
        rw [hroot]
        exact h.of_member hx (Json.strField_ensureArray ..) ((Json.Fills.ensureArray x _).canPush _)
          (Json.entries_ensureArray ..)
      · show LinksMirror r.root _ _
        rw [hroot]
        exact h.of_member hx (Json.strField_pushAt_ne (by decide) ..) (Json.canPush_pushAt ..)
          (Json.entries_pushAt_ne (by decide) ..)
    | target =>
      obtain ⟨target, hfind, -, hplace⟩ := h.find hknown
      obtain ⟨group, hgroup, -, hmodify⟩ := h.findGroup hx
      have hlists : addTargetToGroup d.lists (findGroup d.lists name) r.out = .ok lists := hlists
      unfold addTargetToGroup at hlists
      simp only [hout, hfind, hgroup] at hlists
      cases hlists
      have hnot := hnew rfl m i x hmember hknown hx
      rcases hadd with ⟨hmem, -⟩ | ⟨-, hroot⟩
      · exact absurd hmem hnot
      · show LinksMirror r.root (d.lists.onTarget m _).places (modifyFirst _ _ d.lists.groupList)
        rw [hroot, places_of_unflagged (unflagged_setFlag ..), hmodify]
        refine LinksMirror.onGroup h hx (fun _ => rfl) (fun _ => rfl) (Json.strField_pushAt_ne (by decide) ..) (fun g hg => ?_)
        exact hg.push hnot hplace

theorem delGroupMember_links (h : SameLinks d) {name : String} {member : Option String} {kind : Member}
    (hr : delGroupMember d name member kind = .ok a) : SameLinks a.dem := by
  obtain ⟨r, hstore, hr⟩ := afterStore_ok hr
  rcases ret_cases (delJsonGroupMember_ok hstore) hr with ⟨hroot, rfl⟩ | ⟨⟨i, x, j, m, hx, rfl, hj, hget, hroot⟩, hr⟩
  · rw [hroot]
    exact h
  · obtain ⟨lists, hlists, hr⟩ := bind_eq_ok hr
    cases hr
    show LinksMirror r.root _ _
    rw [hroot]
    cases kind with
    | host =>
      cases hlists
      exact h.of_member hx (Json.strField_removeAt_ne (by decide) ..) (Json.canPush_removeAt ..)
        (Json.entries_removeAt_ne (by decide) ..)
    | target =>
      obtain ⟨group, hgroup, hlinked, hmodify⟩ := h.findGroup hx
      obtain ⟨ptr, hlink, hplace⟩ := 
        forall₂_mem_left hlinked.links (List.mem_filterMap.mpr ⟨_, List.mem_of_getElem? hget, rfl⟩)
      obtain ⟨target, hfind, -, hfound⟩ := h.find (h.key_of_known (List.mem_map_of_mem hplace))
      obtain rfl : target.ptr = ptr := congrArg Prod.snd (List.inj_on_of_nodup_map h.names hfound hplace rfl)
      have hlists : delTargetFromGroup d.lists (findGroup d.lists name) m = .ok lists := hlists
      unfold delTargetFromGroup at hlists
      simp only [hfind, hgroup, if_pos hlink, hmodify] at hlists
      have hmirror := LinksMirror.onGroup h hx (f := fun g => { g with targetList := g.targetList.erase target.ptr })
        (fun _ => rfl) (fun _ => rfl) (Json.strField_removeAt_ne (by decide) ..) (fun g hg => hg.remove h.names h.ptrs hj hplace)
      split at hlists
      · cases hlists
        exact hmirror
      · cases hlists
        show LinksMirror _ (Lists.places (Lists.onTarget _ m _)) _
        rw [places_of_unflagged (unflagged_setFlag ..)]
        exact hmirror

/-! ## Runs -/

/-- The requests that add groups and targets, delete targets, and add and remove the members of groups. -/
def Request.editsLinks : Request → Bool
  | .addGroup _ | .setGroupMember _ _ _ _ | .delGroupMember _ _ _ | .addTarget _ | .delTarget _ => true
  | _ => false

/-- The names of what is added fit into the records, a target that is added to a group is not in it yet, and a target that is
deleted is in no group. -/
def Request.KeepsLinks (J : JsonLib) (d : Daemon) : Request → Prop
  | .addGroup name => ∀ n, name = some n → n ∉ d.root.keys tagGroups tagName → cCut maxAliasSize n = n
  | .addTarget tgt => ∀ n, tgt = some n → n ∉ d.root.keys tagTargets tagAlias → cCut maxAliasSize n = n
  | .setGroupMember name data member kind =>
    kind = .target → ∀ m i x, memberAlias J data member = some m → m ∈ d.root.keys tagTargets tagAlias →
      GroupAt d.root name i x → m ∉ x.strings tagTargets
  | .delTarget tgt =>
    ∀ n, tgt = some n → n ∈ d.root.keys tagTargets tagAlias → ∀ x ∈ d.root.entries tagGroups, n ∉ x.strings tagTargets
  | _ => True

theorem SameLinks.step {op : World × Request} {d' : Daemon} (h : SameLinks d) (hop : op.2.editsLinks = true)
    (hkeeps : op.2.KeepsLinks J d) (hs : demStep J op d d') : SameLinks d' := by
  obtain ⟨w, req⟩ := op
  obtain ⟨hf, a, hr, rfl⟩ := hs
  cases req with
  | addGroup name => exact addGroup_links h hf hkeeps hr
  | setGroupMember name data member kind => exact setGroupMember_links h hkeeps hr
  | delGroupMember name member kind => exact delGroupMember_links h hr
  | addTarget tgt => exact addTarget_links h hf hkeeps hr
  | delTarget tgt => exact delTarget_links h hkeeps hr
  | _ => cases hop

/-- The links of a group: one for each alias that the store lists, to the target with that alias, and no other. -/
structure LinksOnce (lists : Lists) (x : Json) (g : Group) : Prop where
  once : ∀ m ∈ x.strings tagTargets, ∃ t, findTarget lists m = some t ∧ g.targetList.count t.ptr = 1
  only : ∀ ptr ∈ g.targetList, ∃ t, findTarget lists t.name = some t ∧ t.ptr = ptr ∧ t.name ∈ x.strings tagTargets

theorem SameLinks.once (h : SameLinks d) (hlinked : GroupLinked d.lists.places x g) : LinksOnce d.lists x g := by
  have hfound : ∀ m ptr, (m, ptr) ∈ d.lists.places →
      ∃ t, findTarget d.lists m = some t ∧ t.name = m ∧ t.ptr = ptr := by
    intro m ptr hplace
    obtain ⟨t, hfind, hname, hfound⟩ := h.find (h.key_of_known (List.mem_map_of_mem hplace))
    exact ⟨t, hfind, hname, congrArg Prod.snd (List.inj_on_of_nodup_map h.names hfound hplace rfl)⟩
  constructor
  · intro m hm
    obtain ⟨ptr, hlink, hplace⟩ := forall₂_mem_left hlinked.links hm
    obtain ⟨t, hfind, -, rfl⟩ := hfound m ptr hplace
    exact ⟨t, hfind, List.count_eq_one_of_mem (hlinked.nodup_links h.ptrs) hlink⟩
  · intro ptr hptr
    obtain ⟨m, hm, hplace⟩ := forall₂_mem_right hlinked.links hptr
    obtain ⟨t, hfind, rfl, ht⟩ := hfound m ptr hplace
    exact ⟨t, hfind, ht, hm⟩

theorem emptyDaemon_links : SameLinks emptyDaemon := ⟨rfl, .nil, List.nodup_nil, List.nodup_nil, .nil, List.nodup_nil⟩

end NvmeDem
