import NvmeDem.Lemmas.Effects
import NvmeDem.Lib.Table

/-!
# Names are distinct

In every store a run reaches, hosts, targets, the subsystems of a target and the namespaces of a subsystem are named apart. The
store is two tables, of hosts and of targets, the second with a table of subsystems in every entry and a table of namespaces in
every entry of that.
-/

namespace NvmeDem

open Jansson

/-! ## The tables -/

def HostTable (root : Json) : Prop := Table root tagHosts (Json.strField tagAlias) (fun _ => True)

def NsTable (s : Json) : Prop := Table s tagNsids (Json.intField tagNsid) (fun _ => True)

def SubsysTable (t : Json) : Prop := Table t tagSubsystems (Json.strField tagSubnqn) NsTable

def TargetTable (root : Json) : Prop := Table root tagTargets (Json.strField tagAlias) SubsysTable

/-- The names of the store are distinct, at every level. -/
structure NamesDistinct (root : Json) : Prop where
  hosts : HostTable root
  targets : TargetTable root

/-! ## Absent arrays made -/

theorem NsTable.of_fills {s s' : Json} (hf : Json.Fills s s') (h : NsTable s) : NsTable s' :=
  Table.of_fills h (fun hx => hx.intField _) (fun _ _ => trivial) hf

theorem SubsysTable.of_fills {t t' : Json} (hf : Json.Fills t t') (h : SubsysTable t) : SubsysTable t' :=
  Table.of_fills h (fun hx => hx.strField _) NsTable.of_fills hf

theorem NamesDistinct.of_fills {root root' : Json} (h : NamesDistinct root) (hf : Json.Fills root root') :
    NamesDistinct root' :=
  ⟨Table.of_fills h.hosts (fun hx => hx.strField _) (fun _ _ => trivial) hf,
    Table.of_fills h.targets (fun hx => hx.strField _) SubsysTable.of_fills hf⟩

/-! ## Edits of the parts of a target -/

theorem NsTable.of_objectGet {s s' : Json} (h : NsTable s) (heq : s'.objectGet tagNsids = s.objectGet tagNsids) :
    NsTable s' := Table.of_entries h (by simp only [Json.entries, heq])

theorem NsTable.access {s : Json} (h : NsTable s) (new : Json) (arg : SubsysArg) :
    NsTable (updateSubsysAccess s new arg).1 :=
  h.of_objectGet (objectGet_updateSubsysAccess (by decide) (by decide) s new arg)

/-- A subsystem that keeps its NQN or takes a new one. -/
theorem SubsysTable.update {t new t' : Json} {arg out : SubsysArg} {subnqn : Option String} (h : SubsysTable t)
    (hupd : SubsysUpdate t new arg subnqn out t') : SubsysTable t' := by
  cases hupd with
  | @change old nqn j s s' hs hnqn hfresh =>
    have hns : NsTable (updateSubsysAccess s' new { arg with nqn := nqn }).1 := by
      have hs' : NsTable s' := (h.all s (List.mem_of_getElem? hs.get)).of_objectGet
        (objectGet_jsonUpdateStringEx_ne (by decide) hnqn)
      exact hs'.access new _
    have hobj : s.isObject = true := by
      obtain ⟨v, hv, -⟩ := Option.bind_eq_some_iff.mp hs.key
      exact Json.isObject_of_objectGet hv
    -- the entry keeps the name it was found by, or takes the one that was looked for and not found
    have hname : s'.strField tagSubnqn = some nqn := by
      rcases jsonUpdateStringEx_ok hnqn with ⟨n, -, -, rfl, rfl⟩ | ⟨rfl, rfl⟩
      · exact strField_jsonSetString_self hobj (Or.inl (by rw [hs.key]; rfl))
      · exact hs.key
    rcases hfresh with rfl | hfresh
    · exact Table.putAt_same h hs.get (by rw [strField_updateSubsysAccess, hname, hs.key]) hns
    · exact Table.putAt_fresh h hs.get (by rw [strField_updateSubsysAccess, hname]) hfresh hns
  | @create nqn hbody hfresh =>
    refine Table.pushAt h ?_ ?_
    · intro b hb
      rw [strField_updateSubsysAccess, strField_jsonSetString_self rfl (Or.inr rfl)] at hb
      cases hb
      exact hfresh
    · refine NsTable.access ?_ new _
      exact Table.of_nil rfl

theorem intField_updateNsFields (n new : Json) (arg : NsArg) :
    (updateNsFields n new arg).1.intField tagNsid = n.intField tagNsid := by
  unfold updateNsFields
  dsimp only
  simp only [Json.intField]
  rw [objectGet_jsonUpdateIntEx_ne (by decide), objectGet_jsonUpdateIntEx_ne (by decide)]

theorem NsTable.update {s new s' : Json} {arg out : NsArg} {val : Int} (h : NsTable s)
    (hupd : NsUpdate s new arg val out s') : NsTable s' := by
  cases hupd with
  | change _ hn => exact Table.putAt_same h hn (intField_updateNsFields _ new _) trivial
  | create hfresh =>
    refine Table.pushAt h ?_ trivial
    intro b hb
    rw [intField_updateNsFields, newNs, intField_jsonSetInt_self rfl (Or.inr rfl)] at hb
    cases hb
    exact hfresh

/-- A subsystem replaced under its own NQN. -/
theorem SubsysTable.put {t s s' : Json} {subnqn : String} {j : Nat} (h : SubsysTable t) (hs : SubsysAt t subnqn j s)
    (hname : s'.strField tagSubnqn = s.strField tagSubnqn) (hns : NsTable s') :
    SubsysTable (t.putAt tagSubsystems j s') :=
  Table.putAt_same h hs.get hname hns

theorem SubsysTable.at {t s : Json} {subnqn : String} {j : Nat} (h : SubsysTable t) (hs : SubsysAt t subnqn j s) :
    NsTable s := h.all s (List.mem_of_getElem? hs.get)

/-! ## Edits of the store -/

/-- A target replaced under its own alias. -/
theorem NamesDistinct.putTarget {root t t' : Json} {tgt : String} {i : Nat} (h : NamesDistinct root)
    (ht : TargetAt root tgt i t) (hname : t'.strField tagAlias = t.strField tagAlias) (hsub : SubsysTable t') :
    NamesDistinct (root.putAt tagTargets i t') :=
  ⟨Table.of_entries h.hosts (Json.entries_putAt_ne (by decide) root _ _), Table.putAt_same h.targets ht.get hname hsub⟩

theorem NamesDistinct.at {root t : Json} {tgt : String} {i : Nat} (h : NamesDistinct root) (ht : TargetAt root tgt i t) :
    SubsysTable t := h.targets.all t (List.mem_of_getElem? ht.get)

/-- Neither hosts nor targets change when only groups do. -/
theorem NamesDistinct.of_groups {root root' : Json} (h : NamesDistinct root)
    (heq : ∀ k, k ≠ tagGroups → root'.entries k = root.entries k) : NamesDistinct root' :=
  ⟨Table.of_entries h.hosts (heq tagHosts (by decide)), Table.of_entries h.targets (heq tagTargets (by decide))⟩

theorem SubsysTable.of_sameParts {t t' : Json} (h : SubsysTable t) (hsame : SameParts t t') : SubsysTable t' :=
  Table.of_entries h hsame.subsystems

theorem SubsysTable.newTarget (tgt : Option String) : SubsysTable (newTarget tgt) := by
  cases tgt <;> exact Table.of_nil rfl

theorem strField_newHost (host : Option String) :
    (jsonSetStringPtr (.object []) tagAlias host).strField tagAlias = host := by
  cases host <;> rfl

theorem SubsysTable.renamed {t : Json} (h : SubsysTable t) (old new : String) : SubsysTable (targetRenamed old new t) := by
  refine Table.map h (Json.entries_adjust_arrayMap t tagSubsystems _) ?_ ?_
  · intro s _
    exact Json.strField_adjust_ne (by decide) s _
  · intro s _ hs
    exact Table.of_entries hs (Json.entries_adjust_ne (by decide) s _)

/-- One turn of the loop of `delFromAllowedHosts` at most removes an entry. -/
theorem delAllowedStep_sublist (i : Nat) (name : String) (array : Json) :
    (delAllowedStep i name array).elems.Sublist array.elems := by
  unfold delAllowedStep
  split
  · exact List.Sublist.refl _
  · split
    · rw [Json.elems_arrayRemove]
      exact List.eraseIdx_sublist _ _
    · exact List.Sublist.refl _

theorem foldl_delAllowedStep_sublist (i : Nat) (name : String) (n : List Nat) (array : Json) :
    (n.foldl (fun array _ => delAllowedStep i name array) array).elems.Sublist array.elems := by
  induction n generalizing array with
  | nil => exact List.Sublist.refl _
  | cons _ n ih => exact (ih (delAllowedStep i name array)).trans (delAllowedStep_sublist i name array)

/-- What `delFromAllowedHosts` leaves of the subsystems of a target. -/
theorem entries_targetWithout_sublist (name : String) (i : Nat) (t : Json) :
    ((targetWithout name i t).entries tagSubsystems).Sublist (t.entries tagSubsystems) := by
  unfold targetWithout Json.adjust
  split
  · exact List.Sublist.refl _
  · rename_i array harr
    rw [Json.entries_objectSet_self, if_pos (Json.isObject_of_objectGet harr), entries_of_objectGet harr]
    exact foldl_delAllowedStep_sublist i name _ array

theorem strField_targetWithout (name : String) (i : Nat) (t : Json) :
    (targetWithout name i t).strField tagAlias = t.strField tagAlias := Json.strField_adjust_ne (by decide) t _

theorem NamesDistinct.updateHost {root new root' : Json} {nqn₀ : String} {host : Option String} {out : HostOut}
    (h : NamesDistinct root) (hupd : HostUpdate root new nqn₀ host out root') : NamesDistinct root' := by
  cases hupd with
  | keep hx hold hbody hnqn =>
    exact ⟨Table.putAt_same h.hosts hx (strField_jsonUpdateStringEx_hostnqn hnqn) trivial,
      Table.of_entries h.targets (Json.entries_putAt_ne (by decide) root _ _)⟩
  | @rename old newalias nqn i x x' hx hold hbody hne hfresh hnqn =>
    have hname : x'.strField tagAlias = some newalias := strField_host_renamed hold hbody hnqn
    refine ⟨⟨?_, fun _ _ => trivial⟩, ?_⟩
    · rw [entries_hosts_renamed]
      exact Keyed.nodup_keys_set_of_fresh hx hname hfresh h.hosts.nodup
    · refine Table.map h.targets (g := targetRenamed old newalias) ?_ ?_ (fun t _ ht => ht.renamed old newalias)
      · rw [Json.entries_putAt_ne (by decide), entries_renameInGroups_ne (by decide), entries_renameInAllowedHosts,
          Json.entries_putAt_ne (by decide)]
      · intro t _
        exact Json.strField_adjust_ne (by decide) t _
  | create hbody hfresh hpush hnqn =>
    refine ⟨Table.pushAt h.hosts ?_ trivial, Table.of_entries h.targets (Json.entries_pushAt_ne (by decide) root _)⟩
    intro b hb
    rw [strField_jsonUpdateStringEx_hostnqn hnqn, strField_jsonSetString_self rfl (Or.inr rfl)] at hb
    cases hb
    exact hfresh

theorem NamesDistinct.updateTarget {root new root' : Json} {arg out : TargetArg} {tgt : Option String}
    (h : NamesDistinct root) (hupd : TargetUpdate root new arg tgt out root') : NamesDistinct root' := by
  cases hupd with
  | keep ht hfields =>
    exact h.putTarget ht (strField_updateTargetFields hfields) ((h.at ht).of_sameParts (.of_update hfields))
  | @rename old buf i t t' out ht hbody hne hfresh hfields =>
    have hname : t'.strField tagAlias = some buf := strField_target_renamed ht.key hbody hfields
    have hsub : SubsysTable t' := (h.at ht).of_sameParts ((SameParts.of_rename t new).trans (.of_update hfields))
    refine ⟨Table.of_entries h.hosts ?_, ?_⟩
    · rw [Json.entries_putAt_ne (by decide), entries_renameInGroups_ne (by decide), Json.entries_putAt_ne (by decide)]
    · refine Table.of_entries (Table.putAt_fresh h.targets ht.get hname hfresh hsub) ?_
      rw [entries_targets_renamed, Json.entries_putAt]
  | create hbody hfresh hpush hfields =>
    refine ⟨Table.of_entries h.hosts (Json.entries_pushAt_ne (by decide) root _), Table.pushAt h.targets ?_ ?_⟩
    · intro b hb
      rw [strField_updateTargetFields hfields, strField_newTarget] at hb
      cases hb
      exact hfresh
    · exact (SubsysTable.newTarget _).of_sameParts (.of_update hfields)

/-! ## Steps and runs -/

theorem NamesDistinct.effect {J : JsonLib} {root root' : Json} {op : StoreOp} (h : NamesDistinct root)
    (he : Effect J root op root') : NamesDistinct root' := by
  cases he with
  | addGroup => exact h.of_groups (fun k hk => Json.entries_pushAt_ne hk root _)
  | updateGroup _ _ hupd =>
    cases hupd with
    | rename => exact h.of_groups (fun k hk => Json.entries_putAt_ne hk root _ _)
    | create => exact h.of_groups (fun k hk => Json.entries_pushAt_ne hk root _)
  | joinGroup => exact h.of_groups (fun k hk => Json.entries_putAt_ne hk root _ _)
  | rejoinGroup hfill => exact h.of_fills hfill
  | leaveGroup => exact h.of_groups (fun k hk => Json.entries_putAt_ne hk root _ _)
  | delGroup => exact h.of_groups (fun k hk => Json.entries_removeAt_ne hk root _)
  | addHost hfresh =>
    refine ⟨Table.pushAt h.hosts ?_ trivial, Table.of_entries h.targets (Json.entries_pushAt_ne (by decide) root _)⟩
    intro b hb
    rw [strField_newHost] at hb
    exact hfresh b hb
  | updateHost _ hupd => exact h.updateHost hupd
  | @delHost name _ i x =>
    refine ⟨Table.of_entries (Table.removeAt h.hosts i) ?_, ?_⟩
    · rw [entries_delFromGroups_ne (by decide), entries_delFromAllowedHosts_ne (by decide)]
    · refine Table.mapIdx h.targets (g := targetWithout name) ?_ ?_ ?_
      · rw [entries_delFromGroups_ne (by decide), entries_delFromAllowedHosts, Json.entries_removeAt_ne (by decide)]
      · intro j t _
        exact strField_targetWithout name j t
      · intro j t _ ht
        exact Table.of_sublist ht (entries_targetWithout_sublist name j t)
  | keepSubsys hfill => exact h.of_fills hfill
  | setSubsys ht _ hupd =>
    refine h.putTarget ht ?_ ((h.at ht).update hupd)
    cases hupd with
    | change => exact Json.strField_putAt_ne (by decide) _ _ _
    | create => exact Json.strField_pushAt_ne (by decide) _ _
  | delSubsys ht hs =>
    exact h.putTarget ht (Json.strField_removeAt_ne (by decide) _ _) (Table.removeAt (h.at ht) _)
  | setPortid ht _ hupd =>
    cases hupd with
    | change =>
      exact h.putTarget ht (Json.strField_putAt_ne (by decide) _ _ _)
        (Table.of_entries (h.at ht) (Json.entries_putAt_ne (by decide) _ _ _))
    | create =>
      exact h.putTarget ht (Json.strField_pushAt_ne (by decide) _ _)
        (Table.of_entries (h.at ht) (Json.entries_pushAt_ne (by decide) _ _))
  | delPortid ht =>
    exact h.putTarget ht (Json.strField_removeAt_ne (by decide) _ _)
      (Table.of_entries (h.at ht) (Json.entries_removeAt_ne (by decide) _ _))
  | setNs ht hs _ _ hupd =>
    exact h.putTarget ht (Json.strField_putAt_ne (by decide) _ _ _)
      ((h.at ht).put hs (strField_nsUpdate hupd) (((h.at ht).at hs).update hupd))
  | delNs ht hs =>
    exact h.putTarget ht (Json.strField_putAt_ne (by decide) _ _ _)
      ((h.at ht).put hs (Json.strField_removeAt_ne (by decide) _ _) (Table.removeAt ((h.at ht).at hs) _))
  | addTarget hfresh =>
    refine ⟨Table.of_entries h.hosts (Json.entries_pushAt_ne (by decide) root _),
      Table.pushAt h.targets ?_ (SubsysTable.newTarget _)⟩
    intro b hb
    rw [strField_newTarget] at hb
    exact hfresh b hb
  | updateTarget _ hupd => exact h.updateTarget hupd
  | @delTarget name i t ht =>
    refine ⟨Table.of_entries h.hosts ?_, Table.of_entries (Table.removeAt h.targets i) ?_⟩
    · rw [entries_delFromGroups_ne (by decide), Json.entries_removeAt_ne (by decide)]
    · rw [entries_delFromGroups_ne (by decide)]
  | setAcl hadd =>
    obtain ⟨i, t, j, s, ht, hs, -, rfl⟩ := hadd.added
    exact h.putTarget ht (Json.strField_putAt_ne (by decide) _ _ _)
      ((h.at ht).put hs (Json.strField_pushAt_ne (by decide) _ _)
        (Table.of_entries ((h.at ht).at hs) (Json.entries_pushAt_ne (by decide) _ _)))
  | delAcl ht hs =>
    exact h.putTarget ht (Json.strField_putAt_ne (by decide) _ _ _)
      ((h.at ht).put hs (Json.strField_removeAt_ne (by decide) _ _)
        (Table.of_entries ((h.at ht).at hs) (Json.entries_removeAt_ne (by decide) _ _)))

theorem NamesDistinct.step {J : JsonLib} {root root' : Json} {op : StoreOp} (h : NamesDistinct root)
    (hs : storeStep J op root root') : NamesDistinct root' := by
  obtain ⟨ret, hrun⟩ := hs
  rcases run_cases hrun with ⟨-, hfill⟩ | ⟨-, he⟩
  · exact h.of_fills hfill
  · exact h.effect he

theorem NamesDistinct.run {J : JsonLib} {allowed : Json → StoreOp → Prop} {root : Json} (h : StoreRun J allowed root) :
    NamesDistinct root :=
  Run.invariant h ⟨Table.of_nil rfl, Table.of_nil rfl⟩ (fun _ _ _ hi _ hs => hi.step hs)

/-- Hosts, targets, subsystems of a target and namespaces of a subsystem are named apart in every store that is reached. -/
theorem names_distinct (J : JsonLib) (root : Json) (h : StoreRun J anyOp root) :
    (root.keys tagHosts tagAlias).Nodup ∧ (root.keys tagTargets tagAlias).Nodup ∧
      (∀ t ∈ root.entries tagTargets, (t.keys tagSubsystems tagSubnqn).Nodup) ∧
      (∀ t ∈ root.entries tagTargets, ∀ s ∈ t.entries tagSubsystems, (s.intKeys tagNsids tagNsid).Nodup) := by
  have hn := NamesDistinct.run h
  exact ⟨hn.hosts.nodup, hn.targets.nodup, fun t ht => (hn.targets.all t ht).nodup,
    fun t ht s hs => ((hn.targets.all t ht).all s hs).nodup⟩

/-- A host, then a target, then a subsystem and a namespace of it. -/
theorem names_distinct_one_of_each :
    ((Json.object [(tagHosts, .array [.object [(tagAlias, .string "h")]]),
      (tagTargets, .array [.object [(tagAlias, .string "t"), (tagPortids, .array []),
        (tagSubsystems, .array [.object [(tagSubnqn, .string "n"),
          (tagNsids, .array [.object [(tagNsid, .integer 7)]])]])]])]).keys tagTargets tagAlias).Nodup :=
  (names_distinct ⟨fun _ => some (.object [(tagSubnqn, .string "n"), (tagNsid, .integer 7)])⟩ _
    (Run.call (.setNs "t" "n" "x" ⟨0, 0, 0⟩)
      (Run.call (.setSubsys "t" none "x" ⟨"", undefinedAccess⟩)
        (Run.call (.addTarget (some "t")) (Run.call (.addHost (some "h")) .start trivial rfl) trivial rfl) trivial rfl)
      trivial rfl)).2.1

end NvmeDem
