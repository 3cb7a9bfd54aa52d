import NvmeDem.Lemmas.Copies

/-!
# The copies that a load makes

A record is made of a host of the root that an access list mentions, a link of a host that a group names.
-/

namespace NvmeDem

open Jansson

/-- A configuration whose hosts can be copied: aliases are distinct, no access list mentions a host twice, and a host that a
group names is there with an NQN. -/
structure Copyable (root : Json) : Prop where
  hosts : (root.keys tagHosts tagAlias).Nodup
  acls : ∀ t ∈ root.entries tagTargets, ∀ s ∈ t.entries tagSubsystems, (s.strings tagHosts).Nodup
  groups : ∀ g ∈ root.entries tagGroups, ∀ m ∈ g.strings tagHosts, ∃ nqn, IsHost root m nqn

/-! ## Records -/

theorem checkMention_ok {name nqn : Option String} {obj : Json} {zs : List Host} (h : checkMention name nqn obj = .ok zs) :
    zs = [] ∨ ∃ z, zs = [z] ∧ name = some z.name ∧ nqn = some z.nqn ∧ obj.stringValue = some z.name := by
  unfold checkMention at h
  split at h
  · rename_i n s hs
    split at h
    · rename_i hns
      obtain ⟨nqn', hnqn, h⟩ := bind_eq_ok h
      obtain ⟨name', hname, h⟩ := bind_eq_ok h
      cases h
      have hname := Option.some.inj (strcpy_ok hname)
      exact Or.inr ⟨_, rfl, by rw [hname], strcpy_ok hnqn, by rw [hs, ← hns, hname]⟩
    · cases h
      exact Or.inl rfl
  · cases h

/-- The records of one host have its alias and its NQN, and there are not more than its mentions. -/
theorem checkHost_ok {acl : List Json} {name nqn : Option String} {zs : List Host}
    (h : collect (checkMention name nqn) acl = .ok zs) :
    (∀ z ∈ zs, name = some z.name ∧ nqn = some z.nqn) ∧
      ∀ n, name = some n → zs.length ≤ (acl.filterMap Json.stringValue).count n := by
  induction acl generalizing zs with
  | nil =>
    obtain rfl := Except.ok.inj h
    exact ⟨List.forall_mem_nil _, fun n _ => Nat.zero_le _⟩
  | cons obj acl ih =>
    obtain ⟨ys, rest, hobj, hacl, rfl⟩ := collect_cons_ok h
    obtain ⟨hall, hlen⟩ := ih hacl
    rcases checkMention_ok hobj with rfl | ⟨z, rfl, hz, hq, hs⟩
    · refine ⟨hall, fun n hn => Nat.le_trans (hlen n hn) ?_⟩
      exact ((List.sublist_cons_self obj acl).filterMap _).count_le n
    · refine ⟨?_, fun n hn => ?_⟩
      · intro y hy
        rcases List.mem_cons.mp hy with rfl | hy
        · exact ⟨hz, hq⟩
        · exact hall y hy
      · obtain rfl : z.name = n := Option.some.inj (hz.symm.trans hn)
        rw [List.filterMap_cons_some hs, List.count_cons_self]
        exact Nat.succ_le_succ (hlen _ hn)

/-- The records of a subsystem are of hosts of the root, each of another one. -/
theorem checkHosts_ok {acl : Json} {hosts : List Json} {hs : List Host} (hn : (hosts.filterMap (Json.strField tagAlias)).Nodup)
    (hacl : (acl.elems.filterMap Json.stringValue).Nodup)
    (h : collect (fun iter =>
      match iter.objectGet tagAlias, iter.objectGet tagHostnqn with
      | some name, some nqn => checkHost acl name.stringValue nqn.stringValue
      | _, _ => .ok []) hosts = .ok hs) :
    (∀ y ∈ hs, ∃ x ∈ hosts, x.strField tagAlias = some y.name ∧ x.strField tagHostnqn = some y.nqn) ∧
      (hs.map Host.name).Nodup := by
  induction hosts generalizing hs with
  | nil =>
    obtain rfl := Except.ok.inj h
    exact ⟨List.forall_mem_nil _, List.nodup_nil⟩
  | cons x hosts ih =>
    obtain ⟨zs, rest, hx, hrest, rfl⟩ := collect_cons_ok h
    have hsub : (hosts.filterMap (Json.strField tagAlias)).Sublist ((x :: hosts).filterMap (Json.strField tagAlias)) :=
      (List.sublist_cons_self x hosts).filterMap _
    obtain ⟨hall, hnodup⟩ := ih (hn.sublist hsub) hrest
    -- The records of the first host, with at most one mention.
    have hblock : (∀ z ∈ zs, x.strField tagAlias = some z.name ∧ x.strField tagHostnqn = some z.nqn) ∧ zs.length ≤ 1 := by
      split at hx
      · rename_i name nqn hname hnqn
        obtain ⟨hz, hlen⟩ := checkHost_ok hx
        have hfields : ∀ z ∈ zs, x.strField tagAlias = some z.name ∧ x.strField tagHostnqn = some z.nqn := by
          intro z hmem
          simpa [Json.strField, hname, hnqn] using hz z hmem
        refine ⟨hfields, ?_⟩
        cases zs with
        | nil => exact Nat.zero_le 1
        | cons z zs =>
          have hone := List.nodup_iff_count_le_one.mp hacl z.name
          exact Nat.le_trans (hlen z.name (hz z List.mem_cons_self).1) hone
      · cases hx
        exact ⟨List.forall_mem_nil _, Nat.zero_le 1⟩
    refine ⟨?_, ?_⟩
    · intro y hy
      rcases List.mem_append.mp hy with hy | hy
      · exact ⟨x, List.mem_cons_self, hblock.1 y hy⟩
      · obtain ⟨x', hx', hfields⟩ := hall y hy
        exact ⟨x', List.mem_cons_of_mem x hx', hfields⟩
    · rw [List.map_append, List.nodup_append]
      refine ⟨?_, hnodup, ?_⟩
      · rw [List.nodup_iff_count_le_one]
        intro b
        exact Nat.le_trans List.count_le_length (by simpa using hblock.2)
      · intro b hb c hc
        obtain ⟨z, hz, rfl⟩ := List.mem_map.mp hb
        obtain ⟨y, hy, rfl⟩ := List.mem_map.mp hc
        obtain ⟨x', hx', halias, -⟩ := hall y hy
        intro heq
        rw [List.filterMap_cons_some (hblock.1 z hz).1, List.nodup_cons] at hn
        exact hn.1 (List.mem_filterMap.mpr ⟨x', hx', heq ▸ halias⟩)

/-- A subsystem whose records are copies of hosts of the root, each of another one. -/
structure GoodRecords (root : Json) (s : Subsystem) : Prop where
  distinct : (s.hostList.map Host.name).Nodup
  records : ∀ y ∈ s.hostList, IsHost root y.name y.nqn

theorem allowedHosts_ok {root : Json} {access : Int} {acl : Option Json} {hs : List Host}
    (hn : (root.keys tagHosts tagAlias).Nodup) (hacl : ∀ a, acl = some a → (a.elems.filterMap Json.stringValue).Nodup)
    (h : allowedHosts access acl (root.objectGet tagHosts) = .ok hs) :
    (hs.map Host.name).Nodup ∧ ∀ y ∈ hs, IsHost root y.name y.nqn := by
  unfold allowedHosts at h
  split at h
  · rename_i a hosts hhosts
    split at h
    · have hentries := entries_of_objectGet hhosts
      unfold Json.keys at hn
      rw [hentries] at hn
      obtain ⟨hall, hnodup⟩ := checkHosts_ok hn (hacl a rfl) h
      refine ⟨hnodup, fun y hy => ?_⟩
      obtain ⟨x, hx, halias, hnqn⟩ := hall y hy
      refine List.mem_map.mpr ⟨x, hentries ▸ hx, ?_⟩
      rw [hostPair, halias, hnqn]
    · cases h
      exact ⟨List.nodup_nil, List.forall_mem_nil _⟩
  · cases h
    exact ⟨List.nodup_nil, List.forall_mem_nil _⟩

theorem checkSubsystem_ok {root iter : Json} {ss : List Subsystem} (hn : (root.keys tagHosts tagAlias).Nodup)
    (hacl : (iter.strings tagHosts).Nodup) (h : checkSubsystem (root.objectGet tagHosts) iter = .ok ss) :
    ∀ s ∈ ss, GoodRecords root s := by
  unfold checkSubsystem at h
  split at h
  · cases h
    exact List.forall_mem_nil _
  · obtain ⟨nqn, -, h⟩ := bind_eq_ok h
    obtain ⟨hs, hallowed, h⟩ := bind_eq_ok h
    cases h
    intro s hs
    rw [List.mem_singleton.mp hs]
    have hgood := allowedHosts_ok hn (fun a ha => ?_) hallowed
    · exact ⟨hgood.1, hgood.2⟩
    · rw [Json.strings, entries_of_objectGet ha] at hacl
      exact hacl

/-- The access that a load gives to a subsystem. -/
def loadedAccess (iter : Json) : Int := ((iter.intField tagAllowAny).map cInt).getD 0

/-- The subsystem that a load makes of an entry. -/
theorem checkSubsystem_access {hosts : Option Json} {iter : Json} {ss : List Subsystem} {nqn : String}
    (hnqn : iter.strField tagSubnqn = some nqn) (h : checkSubsystem hosts iter = .ok ss) :
    ∃ s, ss = [s] ∧ s.nqn = nqn ∧ s.access = loadedAccess iter := by
  unfold checkSubsystem at h
  split at h
  · rename_i hnone
    simp [Json.strField, hnone] at hnqn
  · rename_i value hvalue
    obtain ⟨nqn', hcopy, h⟩ := bind_eq_ok h
    obtain ⟨hostList, -, h⟩ := bind_eq_ok h
    cases h
    refine ⟨_, rfl, ?_, rfl⟩
    have hstr : iter.strField tagSubnqn = some nqn' := by simp [Json.strField, hvalue, strcpy_ok hcopy]
    exact Option.some.inj (hstr.symm.trans hnqn)

/-- The interface of a target is set up, and its mode; nothing else of it changes. -/
theorem setupTarget_ok {parent : Json} {target target' : Target} {good : Bool}
    (h : setupTarget parent target = .ok (good, target')) :
    target' = { target with mgmtMode := target'.mgmtMode, oob := target'.oob, inb := target'.inb } := by
  unfold setupTarget at h
  split at h
  · unfold setupOobTarget at h
    split at h
    · cases h
      rfl
    · split at h
      · cases h
        rfl
      · obtain ⟨address, -, h⟩ := bind_eq_ok h
        split at h
        · cases h
          rfl
        · cases h
          rfl
  · obtain ⟨t, ht, heq⟩ := map_eq_ok h
    cases heq
    unfold setupInbTarget at ht
    dsimp only at ht
    split at ht
    · cases ht
      rfl
    · split at ht
      · cases ht
        rfl
      · obtain ⟨type, -, ht⟩ := bind_eq_ok ht
        split at ht
        · cases ht
          rfl
        · obtain ⟨family, -, ht⟩ := bind_eq_ok ht
          split at ht
          · cases ht
            rfl
          · obtain ⟨address, -, ht⟩ := bind_eq_ok ht
            split at ht
            · cases ht
              rfl
            · cases ht
              rfl
  · cases h
    rfl

/-- The management mode that an entry asks for. -/
def modeOf (iter : Json) : MgmtMode := ((iter.strField tagMgmtMode).map getMgmtMode).getD .localMgmt

/-- Whether an entry that asks to be managed out of band has the interface for it. -/
def oobComplete (iter : Json) : Bool :=
  match modeOf iter with
  | .outOfBandMgmt =>
    (iter.objectGet tagInterface).any (fun iface => (iface.strField tagIfaddress).isSome && (iface.intField tagIfport).isSome)
  | _ => true

theorem setupTarget_good {parent : Json} {target target' : Target} {good : Bool} (hmode : target.mgmtMode = modeOf parent)
    (h : setupTarget parent target = .ok (good, target')) : good = oobComplete parent := by
  unfold setupTarget at h
  unfold oobComplete
  rw [hmode] at h
  split at h
  · rename_i hoob
    rw [hoob]
    unfold setupOobTarget at h
    split at h
    · rename_i hnone
      cases h
      rw [hnone]
      rfl
    · rename_i iface hiface
      rw [hiface]
      split at h
      · rename_i hnone
        cases h
        simp [hnone]
      · rename_i address haddress
        obtain ⟨copy, -, h⟩ := bind_eq_ok h
        split at h
        · rename_i hnone
          cases h
          simp [hnone]
        · rename_i port hport
          cases h
          simp [haddress, hport]
  · rename_i hinb
    rw [hinb]
    obtain ⟨t, -, heq⟩ := map_eq_ok h
    exact (congrArg Prod.fst heq).symm
  · rename_i hlocal
    rw [hlocal]
    exact (congrArg Prod.fst (Except.ok.inj h)).symm

/-- A target as a load makes it of an entry. It is in no group yet, and has its subsystems only when it can be used. -/
structure Made (hosts : Option Json) (iter : Json) (ptr : Nat) (t : Target) : Prop where
  ptr : t.ptr = ptr
  flag : t.groupMember = false
  name : ∃ name, iter.strField tagAlias = some name ∧ t.name = cCut maxAliasSize name
  subsystems : if oobComplete iter then collect (checkSubsystem hosts) (iter.entries tagSubsystems) = .ok t.subsysList
    else t.subsysList = []

theorem addToTargetList_made {ptr : Nat} {parent : Json} {hosts : Option Json} {target : Option Target} {good : Bool}
    (h : addToTargetList ptr parent hosts = .ok (target, good)) :
    (parent.objectGet tagAlias = none ∧ target = none) ∨ ∃ t, target = some t ∧ Made hosts parent ptr t := by
  unfold addToTargetList at h
  split at h
  · rename_i hnone
    cases h
    exact Or.inl ⟨hnone, rfl⟩
  · rename_i obj hobj
    obtain ⟨name, hname, h⟩ := bind_eq_ok h
    obtain ⟨⟨ok, t'⟩, hsetup, h⟩ := bind_eq_ok h
    have hsame := setupTarget_ok hsetup
    obtain rfl := setupTarget_good (by rfl) hsetup
    have hcut : ∃ n, parent.strField tagAlias = some n ∧ name = cCut maxAliasSize n := by
      unfold strncpy at hname
      split at hname
      · cases hname
      · rename_i n hn
        cases hname
        exact ⟨n, by rw [Json.strField, hobj, Option.bind_some, hn], rfl⟩
    dsimp only at h
    split at h
    · rename_i hgood
      obtain ⟨ss, hss, h⟩ := bind_eq_ok h
      cases h
      refine Or.inr ⟨_, rfl, ⟨by rw [hsame], by rw [hsame], by rw [hsame]; exact hcut, ?_⟩⟩
      rw [if_pos hgood, ← hss]
      cases hsub : parent.objectGet tagSubsystems with
      | none => simp [Json.entries, hsub, collect]
      | some array => simp [Json.entries, hsub, checkSubsystems]
    · rename_i hbad
      cases h
      refine Or.inr ⟨_, rfl, ⟨by rw [hsame], by rw [hsame], by rw [hsame]; exact hcut, ?_⟩⟩
      rw [if_neg hbad, hsame]

theorem addToTargetList_ok {root parent : Json} {ptr : Nat} {target : Option Target} {good : Bool}
    (hn : (root.keys tagHosts tagAlias).Nodup) (hacl : ∀ s ∈ parent.entries tagSubsystems, (s.strings tagHosts).Nodup)
    (h : addToTargetList ptr parent (root.objectGet tagHosts) = .ok (target, good)) :
    ∀ t, target = some t → ∀ s ∈ t.subsysList, GoodRecords root s := by
  rintro t rfl s hs
  rcases addToTargetList_made h with ⟨-, hnone⟩ | ⟨t', ht', hmade⟩
  · cases hnone
  · obtain rfl := Option.some.inj ht'
    have hsub := hmade.subsystems
    split at hsub
    · obtain ⟨iter, hiter, zs, hzs, hmem⟩ := mem_collect hsub hs
      exact checkSubsystem_ok hn (hacl iter hiter) hzs s hmem
    · rw [hsub] at hs
      cases hs

/-- A port is added, and nothing else of the target changes. -/
theorem addPortToTarget_ok {target target' : Target} {ptr : Nat} {obj : Json} {ret : Int}
    (h : addPortToTarget target ptr obj = .ok (ret, target')) : target' = { target with portidList := target'.portidList } := by
  obtain ⟨⟨good, portid⟩, -, h⟩ := bind_eq_ok h
  dsimp only at h
  split at h
  · cases h
    rfl
  · cases h
    rfl

theorem addPorts_ok {target : Option Target × Bool} {iter : Json} {target' : Option Target}
    (h : addPorts target iter = .ok target') : ∃ ports : Target → List Portid,
      target' = target.1.map (fun t => { t with portidList := ports t }) := by
  unfold addPorts at h
  split at h
  · cases h
    exact ⟨Target.portidList, by simp⟩
  · refine foldlM_invariant (P := fun t => ∃ ports : Target → List Portid,
      t = target.1.map (fun t => { t with portidList := ports t })) h ⟨Target.portidList, by simp⟩ ?_
    rintro t obj t' - ⟨ports, rfl⟩ hadd
    unfold addPort at hadd
    split at hadd
    · rename_i ht₁ _
      obtain ⟨⟨ret, u⟩, hu, rfl⟩ := map_eq_ok hadd
      obtain ⟨t₀, ht₀, rfl⟩ := Option.map_eq_some_iff.mp ht₁
      refine ⟨fun _ => u.portidList, ?_⟩
      rw [ht₀, Option.map_some]
      have hsame := addPortToTarget_ok hu
      exact congrArg some hsame
    · cases hadd

/-- The target of an entry; an entry without an alias makes none. -/
theorem loadTarget_ok {hosts : Option Json} {ptr : Nat} {iter : Json} {ts : List Target}
    (h : loadTarget hosts ptr iter = .ok ts) :
    (iter.objectGet tagAlias = none ∧ ts = []) ∨ ∃ t, ts = [t] ∧ Made hosts iter ptr t := by
  obtain ⟨⟨target, good⟩, hadd, h⟩ := bind_eq_ok h
  obtain ⟨target', hports, h⟩ := bind_eq_ok h
  cases h
  obtain ⟨ports, rfl⟩ := addPorts_ok hports
  rcases addToTargetList_made hadd with ⟨hnone, rfl⟩ | ⟨t, rfl, hmade⟩
  · exact Or.inl ⟨hnone, rfl⟩
  · exact Or.inr ⟨_, rfl, ⟨hmade.ptr, hmade.flag, hmade.name, hmade.subsystems⟩⟩

theorem buildTargetList_ok {root : Json} {targets : List Target} (hc : Copyable root)
    (h : buildTargetList root = .ok targets) : ∀ t ∈ targets, ∀ s ∈ t.subsysList, GoodRecords root s := by
  unfold buildTargetList at h
  split at h
  · cases h
    exact List.forall_mem_nil _
  · rename_i array harray
    intro t ht s hs
    obtain ⟨⟨iter, ptr⟩, hiter, zs, hload, hmem⟩ := mem_collect h ht
    have hentry : iter ∈ root.entries tagTargets := by
      rw [entries_of_objectGet harray]
      exact List.fst_mem_of_mem_zipIdx hiter
    obtain ⟨⟨target, good⟩, hadd, hload⟩ := bind_eq_ok hload
    obtain ⟨target', hports, hload⟩ := bind_eq_ok hload
    cases hload
    obtain rfl := Option.mem_toList.mp hmem
    obtain ⟨ports, hsame⟩ := addPorts_ok hports
    obtain ⟨t₀, rfl, rfl⟩ := Option.map_eq_some_iff.mp hsame.symm
    exact addToTargetList_ok hc.hosts (hc.acls iter hentry) hadd t₀ rfl s hs

/-! ## Links -/

theorem loadGroup_mirrored {root : Json} {buf : Nat → String} {lists lists' : Lists} {iter : Json × Nat} (hc : Copyable root)
    (hiter : iter.1 ∈ root.entries tagGroups) (h : Mirrored ⟨root, lists⟩) (hl : loadGroup root buf lists iter = .ok lists') :
    Mirrored ⟨root, lists'⟩ := by
  obtain ⟨name, -, hl⟩ := bind_eq_ok hl
  obtain ⟨lists₁, htargets, hhosts⟩ := bind_eq_ok hl
  have hfirst : Mirrored ⟨root, lists₁⟩ := by
    refine foldlM_invariant (P := fun l => Mirrored ⟨root, l⟩) htargets (h.of_shrinks rfl ?_) ?_
    · exact ⟨(Shrinks.refl _).records, (Shrinks.refl _).links⟩
    · intro l obj l' _ hm hstep
      unfold loadGroupTarget at hstep
      split at hstep
      · exact hm.of_shrinks rfl (Quiet.addTargetToGroup hstep)
      · split at hstep
        · cases hstep
          exact hm
        · cases hstep
  refine foldlM_invariant (P := fun l => Mirrored ⟨root, l⟩) hhosts hfirst ?_
  intro l obj l' hobj hm hstep
  unfold loadGroupHost at hstep
  split at hstep
  · rename_i m hm'
    exact Mirrored.addHostToGroup hm (hc.groups iter.1 hiter m (List.mem_filterMap.mpr ⟨obj, hobj, hm'⟩)) hstep
  · cases hstep

theorem buildLists_mirrored {root : Json} {buf : Nat → String} {lists : Lists} (hc : Copyable root)
    (h : buildLists root buf = .ok lists) : Mirrored ⟨root, lists⟩ := by
  obtain ⟨targets, htargets, h⟩ := bind_eq_ok h
  have hgood := buildTargetList_ok hc htargets
  have hsub : ∀ s ∈ ({ targetList := targets } : Lists).subsystems, GoodRecords root s := by
    intro s hs
    obtain ⟨t, ht, hs⟩ := List.mem_flatMap.mp hs
    exact hgood t ht s hs
  refine foldlM_invariant (P := fun l => Mirrored ⟨root, l⟩) h ?_ ?_
  · exact ⟨hc.hosts, fun s hs => (hsub s hs).distinct, fun s hs => (hsub s hs).records, List.forall_mem_nil _⟩
  · intro l iter l' hiter hm hstep
    exact loadGroup_mirrored hc (List.fst_mem_of_mem_zipIdx hiter) hm hstep

/-! ## Inventories -/

/-- A target before and after an inventory. -/
def SameTarget (t t' : Target) : Prop := t' = { t with deviceList := t'.deviceList, fabricIfaceList := t'.fabricIfaceList }

theorem initTarget_fold {J : JsonLib} {w : World} {targets acc acc' : List Target} {root root' : Json}
    (h : targets.foldlM (initTarget J w) (root, acc) = .ok (root', acc')) :
    SameRoot root root' ∧ ∃ new, acc' = acc ++ new ∧ List.Forall₂ SameTarget targets new := by
  induction targets generalizing root acc with
  | nil =>
    cases h
    exact ⟨.refl _, [], (List.append_nil _).symm, .nil⟩
  | cons t targets ih =>
    rw [List.foldlM_cons] at h
    obtain ⟨⟨root₁, acc₁⟩, hstep, h⟩ := bind_eq_ok h
    obtain ⟨⟨ret, root₂, t'⟩, hget, hstep⟩ := bind_eq_ok hstep
    cases hstep
    have hsame := Reported.getConfig hget
    obtain ⟨hroot, new, rfl, hnew⟩ := ih h
    exact ⟨hsame.root.trans hroot, t' :: new, List.append_cons .. ▸ rfl, .cons hsame.target hnew⟩

/-- The inventories change what the targets report and nothing else. -/
theorem initTargets_ok {J : JsonLib} {w : World} {d d' : Daemon} (h : initTargets J w d = .ok d') :
    ∃ targets, SameRoot d.root d'.root ∧ List.Forall₂ SameTarget d.lists.targetList targets ∧
      d'.lists = { d.lists with targetList := targets }.withLogs w := by
  obtain ⟨⟨root, targets⟩, hfold, h⟩ := bind_eq_ok h
  cases h
  obtain ⟨hroot, new, hacc, hnew⟩ := initTarget_fold hfold
  rw [List.nil_append] at hacc
  subst hacc
  exact ⟨targets, hroot, hnew, rfl⟩

theorem initTargets_quiet {J : JsonLib} {w : World} {d d' : Daemon} (h : initTargets J w d = .ok d') : Quiet d d' := by
  obtain ⟨targets, hroot, hsame, hlists⟩ := initTargets_ok h
  refine ⟨hroot.hosts, ?_⟩
  rw [hlists]
  have htargets : Shrinks d.lists { d.lists with targetList := targets } := by
    refine .of_targets rfl (fun t ht => ?_)
    obtain ⟨t₀, ht₀, heq⟩ := Keyed.forall₂_mem_right hsame ht
    refine Or.inr ⟨t₀, ht₀, .of_mem (fun s hs => ?_)⟩
    rw [heq] at hs
    exact hs
  exact htargets.trans (.withLogs _ w)

/-- After a load of a configuration whose hosts can be copied, every copy is one of a host of the store. -/
theorem loadDaemon_mirrored {J : JsonLib} {w : World} {buf : Nat → String} {root : Json} {d : Daemon} (hc : Copyable root)
    (h : loadDaemon J w buf root = .ok d) : Mirrored d := by
  obtain ⟨lists, hlists, h⟩ := bind_eq_ok h
  exact (initTargets_quiet h).mirrored (buildLists_mirrored hc hlists)

end NvmeDem
