import NvmeDem.Lemmas.Members

/-!
# Groups

The members of every group are hosts and targets of the store, each listed once, in every store a run reaches. The names of the
groups are distinct only as long as no group is made with an empty name while there is one.
-/

namespace NvmeDem

open Jansson

/-! ## Members -/

/-- The members of the groups are hosts and targets of the store. -/
def GroupsRefer (root : Json) : Prop :=
  ∀ g ∈ root.entries tagGroups,
    Refers g tagHosts (root.keys tagHosts tagAlias) ∧ Refers g tagTargets (root.keys tagTargets tagAlias)

variable {J : JsonLib} {root root' : Json}

theorem GroupsRefer.of_fills (h : GroupsRefer root) (hf : Json.Fills root root') : GroupsRefer root' := by
  intro g' hg'
  obtain ⟨g, hg, hfill⟩ := hf.mem_entries hg'
  rw [hf.keys, hf.keys]
  exact ⟨(h g hg).1.of_fills hfill, (h g hg).2.of_fills hfill⟩

/-- The groups stay as they are and the names they may refer to grow. -/
theorem GroupsRefer.of_grow (h : GroupsRefer root) (hg : root'.entries tagGroups = root.entries tagGroups)
    (hh : ∀ m ∈ root.keys tagHosts tagAlias, m ∈ root'.keys tagHosts tagAlias)
    (ht : ∀ m ∈ root.keys tagTargets tagAlias, m ∈ root'.keys tagTargets tagAlias) : GroupsRefer root' := by
  intro g hmem
  rw [hg] at hmem
  exact ⟨(h g hmem).1.mono (fun m _ => hh m), (h g hmem).2.mono (fun m _ => ht m)⟩

/-- Only groups change, and each of them refers to hosts and targets that are there. -/
theorem GroupsRefer.of_groups (heq : ∀ k, k ≠ tagGroups → root'.entries k = root.entries k)
    (hall : ∀ g ∈ root'.entries tagGroups,
      Refers g tagHosts (root.keys tagHosts tagAlias) ∧ Refers g tagTargets (root.keys tagTargets tagAlias)) :
    GroupsRefer root' := by
  intro g hg
  rw [keys_of_entries tagAlias (heq tagHosts (by decide)), keys_of_entries tagAlias (heq tagTargets (by decide))]
  exact hall g hg

theorem GroupsRefer.putGroup {x : Json} {i : Nat} (h : GroupsRefer root)
    (hx : Refers x tagHosts (root.keys tagHosts tagAlias) ∧ Refers x tagTargets (root.keys tagTargets tagAlias)) :
    GroupsRefer (root.putAt tagGroups i x) := by
  refine .of_groups (fun k hk => Json.entries_putAt_ne hk root i x) ?_
  rw [Json.entries_putAt]
  exact Keyed.forall_mem_set h hx

theorem GroupsRefer.pushGroup {x : Json} (h : GroupsRefer root) (hh : x.entries tagHosts = [])
    (ht : x.entries tagTargets = []) : GroupsRefer (root.pushAt tagGroups x) := by
  refine .of_groups (fun k hk => Json.entries_pushAt_ne hk root x) ?_
  rcases Json.entries_pushAt root tagGroups x with he | he
  · rw [he]
    exact Keyed.forall_mem_concat h ⟨.of_nil hh, .of_nil ht⟩
  · rw [he]
    exact h

/-- A target replaced under its own alias concerns no group. -/
theorem GroupsRefer.putTarget {t t' : Json} {tgt : String} {i : Nat} (h : GroupsRefer root) (ht : TargetAt root tgt i t)
    (hname : t'.strField tagAlias = t.strField tagAlias) : GroupsRefer (root.putAt tagTargets i t') := by
  refine h.of_grow (Json.entries_putAt_ne (by decide) root i t') ?_ ?_
  · rw [keys_of_entries tagAlias (Json.entries_putAt_ne (by decide) root i t')]
    exact fun m hm => hm
  · rw [Json.keys, Json.keys, Json.entries_putAt, Keyed.keys_set_of_eq ht.get hname]
    exact fun m hm => hm

/-- All groups are mapped; what a map does to a list fits what happens to the table the list refers to. -/
theorem GroupsRefer.map {f : Json → Json} (h : GroupsRefer root)
    (hmap : root'.entries tagGroups = (root.entries tagGroups).map f)
    (hh : ∀ g, Refers g tagHosts (root.keys tagHosts tagAlias) → Refers (f g) tagHosts (root'.keys tagHosts tagAlias))
    (ht : ∀ g, Refers g tagTargets (root.keys tagTargets tagAlias) →
      Refers (f g) tagTargets (root'.keys tagTargets tagAlias)) : GroupsRefer root' := by
  intro g' hg'
  rw [hmap] at hg'
  obtain ⟨g, hg, rfl⟩ := List.mem_map.mp hg'
  exact ⟨hh g (h g hg).1, ht g (h g hg).2⟩

theorem GroupsRefer.updateHost {new : Json} {nqn₀ : String} {host : Option String} {out : HostOut} (h : GroupsRefer root)
    (hupd : HostUpdate root new nqn₀ host out root') : GroupsRefer root' := by
  cases hupd with
  | @keep old nqn i x x' hx hold hbody hnqn =>
    refine h.of_grow (Json.entries_putAt_ne (by decide) root i x') ?_ ?_
    · rw [Json.keys, Json.keys, Json.entries_putAt, Keyed.keys_set_of_eq hx (strField_jsonUpdateStringEx_hostnqn hnqn)]
      exact fun m hm => hm
    · rw [keys_of_entries tagAlias (Json.entries_putAt_ne (by decide) root i x')]
      exact fun m hm => hm
  | @rename old newalias nqn i x x' hx hold hbody hne hfresh hnqn =>
    have hname : x'.strField tagAlias = some newalias := strField_host_renamed hold hbody hnqn
    obtain ⟨hin, hrest⟩ := mem_keys_renamed hx hold hname (entries_hosts_renamed root _ x' i old newalias)
    refine h.map (f := groupRenamed tagHosts old newalias) ?_ ?_ ?_
    · rw [Json.entries_putAt_ne (by decide), entries_renameInGroups, entries_renameInAllowedHosts_ne (by decide),
        Json.entries_putAt_ne (by decide)]
    · intro g hg
      exact hg.rename hfresh hin hrest
    · intro g hg
      refine (hg.of_entries (Json.entries_adjust_ne (by decide) g _)).mono (fun m _ hm => ?_)
      obtain ⟨t, ht, hkey⟩ := List.mem_filterMap.mp hm
      refine List.mem_filterMap.mpr ⟨targetRenamed old newalias t, ?_, ?_⟩
      · rw [Json.entries_putAt_ne (by decide), entries_renameInGroups_ne (by decide), entries_renameInAllowedHosts,
          Json.entries_putAt_ne (by decide)]
        exact List.mem_map_of_mem ht
      · rw [targetRenamed, Json.strField_adjust_ne (by decide), hkey]
  | create hbody hfresh hpush hnqn =>
    refine h.of_grow (Json.entries_pushAt_ne (by decide) root _) (fun m hm => mem_keys_pushAt hm) ?_
    rw [keys_of_entries tagAlias (Json.entries_pushAt_ne (by decide) root _)]
    exact fun m hm => hm

theorem GroupsRefer.updateTarget {new : Json} {arg out : TargetArg} {tgt : Option String} (h : GroupsRefer root)
    (hupd : TargetUpdate root new arg tgt out root') : GroupsRefer root' := by
  cases hupd with
  | keep ht hfields => exact h.putTarget ht (strField_updateTargetFields hfields)
  | @rename old buf i t t' out ht hbody hne hfresh hfields =>
    have hname : t'.strField tagAlias = some buf := strField_target_renamed ht.key hbody hfields
    obtain ⟨hin, hrest⟩ := mem_keys_renamed ht.get ht.key hname (entries_targets_renamed root _ t' i old buf)
    refine h.map (f := groupRenamed tagTargets old buf) ?_ ?_ ?_
    · rw [Json.entries_putAt_ne (by decide), entries_renameInGroups, Json.entries_putAt_ne (by decide)]
    · intro g hg
      refine (hg.of_entries (Json.entries_adjust_ne (by decide) g _)).mono (fun m _ hm => ?_)
      rw [Json.keys, Json.entries_putAt_ne (by decide), entries_renameInGroups_ne (by decide),
        Json.entries_putAt_ne (by decide)]
      exact hm
    · intro g hg
      exact hg.rename hfresh hin hrest
  | create hbody hfresh hpush hfields =>
    refine h.of_grow (Json.entries_pushAt_ne (by decide) root _) ?_ (fun m hm => mem_keys_pushAt hm)
    rw [keys_of_entries tagAlias (Json.entries_pushAt_ne (by decide) root _)]
    exact fun m hm => hm

theorem GroupsRefer.effect {op : StoreOp} (h : GroupsRefer root) (he : Effect J root op root') : GroupsRefer root' := by
  cases he with
  | @addGroup group => cases group <;> exact h.pushGroup rfl rfl
  | updateGroup _ _ hupd =>
    cases hupd with
    | rename hx =>
      have hg := h _ (List.mem_of_getElem? hx)
      refine h.putGroup ⟨hg.1.of_entries ?_, hg.2.of_entries ?_⟩
      · simp only [Json.entries, objectGet_jsonUpdateString_ne (k := tagHosts) (y := tagName) (by decide)]
      · simp only [Json.entries, objectGet_jsonUpdateString_ne (k := tagTargets) (y := tagName) (by decide)]
    | create => exact h.pushGroup rfl rfl
  | @joinGroup _ _ member _ _ kind i x hx hkey hmember hknown hfresh =>
    have hg := h x (List.mem_of_getElem? hx)
    cases kind with
    | host =>
      exact h.putGroup ⟨hg.1.pushAt hfresh hknown, hg.2.of_entries (Json.entries_pushAt_ne (by decide) x _)⟩
    | target =>
      exact h.putGroup ⟨hg.1.of_entries (Json.entries_pushAt_ne (by decide) x _), hg.2.pushAt hfresh hknown⟩
  | rejoinGroup hfill => exact h.of_fills hfill
  | @leaveGroup _ _ kind i j x hx =>
    have hg := h x (List.mem_of_getElem? hx)
    cases kind with
    | host => exact h.putGroup ⟨hg.1.removeAt j, hg.2.of_entries (Json.entries_removeAt_ne (by decide) x _)⟩
    | target => exact h.putGroup ⟨hg.1.of_entries (Json.entries_removeAt_ne (by decide) x _), hg.2.removeAt j⟩
  | delGroup =>
    refine .of_groups (fun k hk => Json.entries_removeAt_ne hk root _) ?_
    rw [Json.entries_removeAt]
    exact Keyed.forall_mem_eraseIdx h
  | addHost =>
    refine h.of_grow (Json.entries_pushAt_ne (by decide) root _) (fun m hm => mem_keys_pushAt hm) ?_
    rw [keys_of_entries tagAlias (Json.entries_pushAt_ne (by decide) root _)]
    exact fun m hm => hm
  | updateHost _ hupd => exact h.updateHost hupd
  | @delHost name nqn i x hx hkey =>
    refine h.map (f := groupWithout tagHosts name) ?_ ?_ ?_
    · rw [entries_delFromGroups, entries_delFromAllowedHosts_ne (by decide), Json.entries_removeAt_ne (by decide)]
    · intro g hg
      refine hg.without (mem_keys_removed hx hkey ?_)
      rw [entries_delFromGroups_ne (by decide), entries_delFromAllowedHosts_ne (by decide), Json.entries_removeAt]
    · intro g hg
      refine (hg.of_entries (Json.entries_adjust_ne (by decide) g _)).mono (fun m _ hm => ?_)
      rw [Json.keys, entries_delFromGroups_ne (by decide), entries_delFromAllowedHosts,
        Json.entries_removeAt_ne (by decide), Keyed.keys_mapIdx_of_eq (fun j t _ => strField_targetWithout name j t)]
      exact hm
  | keepSubsys hfill => exact h.of_fills hfill
  | setSubsys ht _ hupd =>
    refine h.putTarget ht ?_
    cases hupd with
    | change => exact Json.strField_putAt_ne (by decide) _ _ _
    | create => exact Json.strField_pushAt_ne (by decide) _ _
  | delSubsys ht => exact h.putTarget ht (Json.strField_removeAt_ne (by decide) _ _)
  | setPortid ht _ hupd =>
    refine h.putTarget ht ?_
    cases hupd with
    | change => exact Json.strField_putAt_ne (by decide) _ _ _
    | create => exact Json.strField_pushAt_ne (by decide) _ _
  | delPortid ht => exact h.putTarget ht (Json.strField_removeAt_ne (by decide) _ _)
  | setNs ht => exact h.putTarget ht (Json.strField_putAt_ne (by decide) _ _ _)
  | delNs ht => exact h.putTarget ht (Json.strField_putAt_ne (by decide) _ _ _)
  | addTarget =>
    refine h.of_grow (Json.entries_pushAt_ne (by decide) root _) ?_ (fun m hm => mem_keys_pushAt hm)
    rw [keys_of_entries tagAlias (Json.entries_pushAt_ne (by decide) root _)]
    exact fun m hm => hm
  | updateTarget _ hupd => exact h.updateTarget hupd
  | @delTarget name i t ht =>
    refine h.map (f := groupWithout tagTargets name) ?_ ?_ ?_
    · rw [entries_delFromGroups, Json.entries_removeAt_ne (by decide)]
    · intro g hg
      refine (hg.of_entries (Json.entries_adjust_ne (by decide) g _)).mono (fun m _ hm => ?_)
      rw [Json.keys, entries_delFromGroups_ne (by decide), Json.entries_removeAt_ne (by decide)]
      exact hm
    · intro g hg
      refine hg.without (mem_keys_removed ht.get ht.key ?_)
      rw [entries_delFromGroups_ne (by decide), Json.entries_removeAt]
  | setAcl hadd =>
    obtain ⟨i, t, j, s, ht, hs, -, rfl⟩ := hadd.added
    exact h.putTarget ht (Json.strField_putAt_ne (by decide) _ _ _)
  | delAcl ht => exact h.putTarget ht (Json.strField_putAt_ne (by decide) _ _ _)

theorem GroupsRefer.run {allowed : Json → StoreOp → Prop} (h : StoreRun J allowed root) : GroupsRefer root := by
  refine Run.invariant h (by intro g hg; cases hg) ?_
  rintro s op s' hi - ⟨ret, hrun⟩
  rcases run_cases hrun with ⟨-, hfill⟩ | ⟨-, he⟩
  · exact hi.of_fills hfill
  · exact hi.effect he

/-- The members of a group are hosts and targets of the store, and none is listed twice. -/
theorem group_members_known (J : JsonLib) (root : Json) (h : StoreRun J anyOp root) :
    ∀ g ∈ root.entries tagGroups,
      (∀ m ∈ g.strings tagHosts, m ∈ root.keys tagHosts tagAlias) ∧
      (∀ m ∈ g.strings tagTargets, m ∈ root.keys tagTargets tagAlias) ∧
      (g.strings tagHosts).Nodup ∧ (g.strings tagTargets).Nodup := by
  intro g hg
  have hr := GroupsRefer.run h g hg
  exact ⟨hr.1.known, hr.2.known, hr.1.nodup, hr.2.nodup⟩

/-- A host joins a group and is then renamed. -/
theorem group_members_known_renamed :
    "b" ∈ (Json.object [(tagHosts, .array [.object [(tagAlias, .string "b")]]),
      (tagGroups, .array [.object [(tagName, .string "g"), (tagTargets, .array []),
        (tagHosts, .array [.string "b"])]])]).keys tagHosts tagAlias :=
  (group_members_known ⟨fun _ => some (.object [(tagAlias, .string "b")])⟩ _
    (Run.call (.updateHost (some "a") "x" ⟨"", ""⟩)
      (Run.call (.setGroupMember "g" none "a" .host "")
        (Run.call (.addGroup (some "g")) (Run.call (.addHost (some "a")) .start trivial rfl) trivial rfl) trivial rfl)
      trivial rfl)
    _ (List.mem_singleton.mpr rfl)).1 "b" (List.mem_singleton.mpr rfl)

/-! ## Names -/

/-- The functions that make, rename and delete groups. -/
def isGroupOp : StoreOp → Bool
  | .addGroup _ | .updateGroup _ _ _ | .delGroup _ => true
  | _ => false

def groupOps : Json → StoreOp → Prop := fun _ op => isGroupOp op = true

/-- A request that makes a group with an empty name, while there is one. -/
def makesSecondUnnamed (J : JsonLib) (root : Json) : StoreOp → Prop
  | .updateGroup none data _ => (J.loads data).bind (Json.strField tagName) = some "" ∧ "" ∈ root.keys tagGroups tagName
  | _ => False

theorem group_names_effect {op : StoreOp} (h : (root.keys tagGroups tagName).Nodup) (hop : isGroupOp op = true)
    (hok : ¬makesSecondUnnamed J root op) (he : Effect J root op root') : (root'.keys tagGroups tagName).Nodup := by
  have ht : Table root tagGroups (Json.strField tagName) (fun _ => True) := ⟨h, fun _ _ => trivial⟩
  cases he with
  | @addGroup group hfresh hpush =>
    refine (ht.pushAt ?_ trivial).nodup
    intro b hb
    exact hfresh b (by cases group <;> exact hb)
  | @updateGroup group data name newname new _ hnew hname hupd =>
    cases hupd with
    | @rename g i x hx hg hfresh =>
      have hself : (jsonUpdateString x new tagName).strField tagName = some newname :=
        strField_jsonUpdateString_self (by rw [hg]; rfl) hname
      rcases hfresh with rfl | hfresh
      · exact (ht.putAt_same hx (hself.trans hg.symm) trivial).nodup
      · exact (ht.putAt_fresh hx hself hfresh trivial).nodup
    | create hfresh hpush =>
      refine (ht.pushAt ?_ trivial).nodup
      intro b hb
      obtain rfl : newname = b := Option.some.inj hb
      rcases hfresh with rfl | hfresh
      · exact fun hmem => hok ⟨by rw [hnew]; exact hname, hmem⟩
      · exact hfresh
  | delGroup => exact (ht.removeAt _).nodup
  | _ => cases hop

/-- The names of the groups are distinct in every run that makes no second group with an empty name. -/
theorem group_names_distinct (J : JsonLib) (root₀ root : Json) (h₀ : (root₀.keys tagGroups tagName).Nodup)
    (h : Run (storeStep J) (fun root op => isGroupOp op = true ∧ ¬makesSecondUnnamed J root op) root₀ root) :
    (root.keys tagGroups tagName).Nodup := by
  refine Run.invariant (I := fun root => (root.keys tagGroups tagName).Nodup) h h₀ ?_
  rintro s op s' hi ⟨hop, hok⟩ ⟨ret, hrun⟩
  rcases run_cases hrun with ⟨-, hfill⟩ | ⟨-, he⟩
  · rw [hfill.keys]
    exact hi
  · exact group_names_effect hi hop hok he

/-- One group with an empty name and one with another. -/
theorem group_names_distinct_two :
    ((Json.object [(tagGroups, .array [newGroupFrom "", newGroup (some "g")])]).keys tagGroups tagName).Nodup :=
  group_names_distinct ⟨fun _ => some (.object [(tagName, .string "")])⟩ emptyRoot _ List.nodup_nil
    (Run.call (.addGroup (some "g"))
      (Run.call (.updateGroup none "x" "") .start ⟨rfl, fun h => by cases h.2⟩ rfl) ⟨rfl, fun h => h⟩ rfl)

/-- The same body, with an empty name, makes a group each time it is sent. -/
theorem group_names_repeat :
    ¬∀ root, StoreRun ⟨fun _ => some (.object [(tagName, .string "")])⟩ groupOps root →
      (root.keys tagGroups tagName).Nodup := by
  intro h
  have hrun := h (.object [(tagGroups, .array [newGroupFrom "", newGroupFrom ""])])
    (Run.call (.updateGroup none "x" "") (Run.call (.updateGroup none "x" "") .start rfl rfl) rfl rfl)
  exact absurd hrun (by decide)

end NvmeDem
