import NvmeDem.Lemmas.Members

/-!
# Access lists

The hosts that a subsystem allows are hosts of the store, each listed once, in every store a run reaches, as long as no host is
deleted while a subsystem lists it. `delFromAllowedHosts`, which should take a deleted host off the lists, looks at the wrong
subsystem of a target and removes from the wrong array.
-/

namespace NvmeDem

open Jansson

/-- The lists of allowed hosts of a target refer to `names`. -/
def TargetRefers (names : List String) (t : Json) : Prop := ∀ s ∈ t.entries tagSubsystems, Refers s tagHosts names

/-- The lists of allowed hosts refer to the hosts of the store. -/
def AclRefers (root : Json) : Prop := ∀ t ∈ root.entries tagTargets, TargetRefers (root.keys tagHosts tagAlias) t

variable {J : JsonLib} {root root' t t' : Json} {names names' : List String}

/-! ## The subsystems of a target -/

theorem TargetRefers.of_fills (h : TargetRefers names t) (hf : Json.Fills t t') : TargetRefers names t' := by
  intro s' hs'
  obtain ⟨s, hs, hfill⟩ := hf.mem_entries hs'
  exact (h s hs).of_fills hfill

theorem TargetRefers.mono (h : TargetRefers names t) (hmono : ∀ m ∈ names, m ∈ names') : TargetRefers names' t :=
  fun s hs => (h s hs).mono (fun m _ hm => hmono m hm)

theorem TargetRefers.put {s : Json} {j : Nat} (h : TargetRefers names t) (hs : Refers s tagHosts names) :
    TargetRefers names (t.putAt tagSubsystems j s) := by
  unfold TargetRefers
  rw [Json.entries_putAt]
  exact Keyed.forall_mem_set h hs

theorem TargetRefers.at {s : Json} {subnqn : String} {j : Nat} (h : TargetRefers names t) (hs : SubsysAt t subnqn j s) :
    Refers s tagHosts names := h s (List.mem_of_getElem? hs.get)

theorem TargetRefers.of_entries (h : TargetRefers names t) (heq : t'.entries tagSubsystems = t.entries tagSubsystems) :
    TargetRefers names t' := by
  unfold TargetRefers
  rw [heq]
  exact h

/-- The access of a subsystem leaves its list, or deletes it. -/
theorem Refers.access {iter : Json} (h : Refers iter tagHosts names) (new : Json) (arg : SubsysArg) :
    Refers (updateSubsysAccess iter new arg).1 tagHosts names := by
  unfold updateSubsysAccess
  dsimp only
  split
  · refine h.of_entries ?_
    simp only [Json.entries, objectGet_jsonUpdateIntEx_ne (k := tagHosts) (y := tagAllowAny) (by decide)]
  · exact .of_nil (Json.entries_objectDel_self _ _)

theorem TargetRefers.update {new : Json} {arg out : SubsysArg} {subnqn : Option String} (h : TargetRefers names t)
    (hupd : SubsysUpdate t new arg subnqn out t') : TargetRefers names t' := by
  cases hupd with
  | change hs hnqn hfresh =>
    refine h.put (Refers.access ?_ new _)
    refine (h.at hs).of_entries ?_
    simp only [Json.entries, objectGet_jsonUpdateStringEx_ne (k := tagHosts) (by decide) hnqn]
  | @create nqn hbody hfresh =>
    unfold TargetRefers
    have hnew : Refers (updateSubsysAccess (jsonSetString (.object []) tagSubnqn nqn) new { arg with nqn := nqn }).1
        tagHosts names := Refers.access (.of_nil rfl) new _
    rcases Json.entries_pushAt t tagSubsystems _ with he | he
    · rw [he]
      exact Keyed.forall_mem_concat h hnew
    · rw [he]
      exact h

theorem TargetRefers.nsUpdate {s new s' : Json} {arg out : NsArg} {val : Int} {subnqn : String} {j : Nat}
    (h : TargetRefers names t) (hs : SubsysAt t subnqn j s) (hupd : NsUpdate s new arg val out s') :
    TargetRefers names (t.putAt tagSubsystems j s') := by
  refine h.put ((h.at hs).of_entries ?_)
  cases hupd with
  | change => exact Json.entries_putAt_ne (by decide) s _ _
  | create => exact Json.entries_pushAt_ne (by decide) s _

theorem TargetRefers.renamed {old new : String} (h : TargetRefers names t) (hnew : new ∉ names) (hn : new ∈ names')
    (hmono : ∀ m ∈ names, m ≠ old → m ∈ names') : TargetRefers names' (targetRenamed old new t) := by
  intro s' hs'
  rw [targetRenamed, Json.entries_adjust_arrayMap] at hs'
  obtain ⟨s, hs, rfl⟩ := List.mem_map.mp hs'
  exact (h s hs).rename hnew hn hmono

/-! ## The targets of the store -/

theorem AclRefers.of_fills (h : AclRefers root) (hf : Json.Fills root root') : AclRefers root' := by
  intro t' ht'
  obtain ⟨t, ht, hfill⟩ := hf.mem_entries ht'
  rw [hf.keys]
  exact (h t ht).of_fills hfill

theorem AclRefers.of_grow (h : AclRefers root) (ht : root'.entries tagTargets = root.entries tagTargets)
    (hh : ∀ m ∈ root.keys tagHosts tagAlias, m ∈ root'.keys tagHosts tagAlias) : AclRefers root' := by
  intro t hmem
  rw [ht] at hmem
  exact (h t hmem).mono hh

theorem AclRefers.of_entries (h : AclRefers root) (ht : root'.entries tagTargets = root.entries tagTargets)
    (hh : root'.entries tagHosts = root.entries tagHosts) : AclRefers root' :=
  h.of_grow ht (fun m hm => by rw [keys_of_entries tagAlias hh]; exact hm)

theorem AclRefers.putTarget {i : Nat} (h : AclRefers root) (ht' : TargetRefers (root.keys tagHosts tagAlias) t') :
    AclRefers (root.putAt tagTargets i t') := by
  unfold AclRefers
  rw [keys_of_entries tagAlias (Json.entries_putAt_ne (by decide) root i t'), Json.entries_putAt]
  exact Keyed.forall_mem_set h ht'

theorem AclRefers.pushTarget (h : AclRefers root) (ht' : t'.entries tagSubsystems = []) :
    AclRefers (root.pushAt tagTargets t') := by
  unfold AclRefers
  rw [keys_of_entries tagAlias (Json.entries_pushAt_ne (by decide) root t')]
  rcases Json.entries_pushAt root tagTargets t' with he | he
  · rw [he]
    exact Keyed.forall_mem_concat h (by intro s hs; rw [ht'] at hs; cases hs)
  · rw [he]
    exact h

theorem AclRefers.at {tgt : String} {i : Nat} (h : AclRefers root) (ht : TargetAt root tgt i t) :
    TargetRefers (root.keys tagHosts tagAlias) t := h t (List.mem_of_getElem? ht.get)

theorem AclRefers.updateHost {new : Json} {nqn₀ : String} {host : Option String} {out : HostOut} (h : AclRefers root)
    (hupd : HostUpdate root new nqn₀ host out root') : AclRefers root' := by
  cases hupd with
  | @keep old nqn i x x' hx hold hbody hnqn =>
    refine h.of_grow (Json.entries_putAt_ne (by decide) root i x') ?_
    rw [Json.keys, Json.keys, Json.entries_putAt, Keyed.keys_set_of_eq hx (strField_jsonUpdateStringEx_hostnqn hnqn)]
    exact fun m hm => hm
  | @rename old newalias nqn i x x' hx hold hbody hne hfresh hnqn =>
    have hname : x'.strField tagAlias = some newalias := strField_host_renamed hold hbody hnqn
    obtain ⟨hin, hrest⟩ := mem_keys_renamed hx hold hname (entries_hosts_renamed root _ x' i old newalias)
    intro t' ht'
    rw [Json.entries_putAt_ne (by decide), entries_renameInGroups_ne (by decide), entries_renameInAllowedHosts,
      Json.entries_putAt_ne (by decide)] at ht'
    obtain ⟨t, ht, rfl⟩ := List.mem_map.mp ht'
    exact (h t ht).renamed hfresh hin hrest
  | create hbody hfresh hpush hnqn =>
    exact h.of_grow (Json.entries_pushAt_ne (by decide) root _) (fun m hm => mem_keys_pushAt hm)

theorem AclRefers.updateTarget {new : Json} {arg out : TargetArg} {tgt : Option String} (h : AclRefers root)
    (hupd : TargetUpdate root new arg tgt out root') : AclRefers root' := by
  cases hupd with
  | keep ht hfields => exact h.putTarget ((h.at ht).of_entries (SameParts.of_update hfields).subsystems)
  | @rename old buf i t t' out ht hbody hne hfresh hfields =>
    have hsame := (SameParts.of_rename t new).trans (.of_update hfields)
    refine (h.putTarget (i := i) ((h.at ht).of_entries hsame.subsystems)).of_entries ?_ ?_
    · rw [entries_targets_renamed, Json.entries_putAt]
    · rw [Json.entries_putAt_ne (by decide), entries_renameInGroups_ne (by decide), Json.entries_putAt_ne (by decide),
        Json.entries_putAt_ne (by decide)]
  | create hbody hfresh hpush hfields =>
    refine h.pushTarget ?_
    rw [(SameParts.of_update hfields).subsystems]
    rfl

/-! ## Steps and runs -/

/-- A host is deleted that a subsystem lists. -/
def deletesListedHost (root : Json) : StoreOp → Prop
  | .delHost (some name) _ => ∃ t ∈ root.entries tagTargets, ∃ s ∈ t.entries tagSubsystems, name ∈ s.strings tagHosts
  | _ => False

theorem AclRefers.effect {op : StoreOp} (h : AclRefers root) (hok : ¬deletesListedHost root op)
    (he : Effect J root op root') : AclRefers root' := by
  cases he with
  | addGroup =>
    exact h.of_entries (Json.entries_pushAt_ne (by decide) root _) (Json.entries_pushAt_ne (by decide) root _)
  | updateGroup _ _ hupd =>
    cases hupd with
    | rename => exact h.of_entries (Json.entries_putAt_ne (by decide) root _ _) (Json.entries_putAt_ne (by decide) root _ _)
    | create => exact h.of_entries (Json.entries_pushAt_ne (by decide) root _) (Json.entries_pushAt_ne (by decide) root _)
  | joinGroup =>
    exact h.of_entries (Json.entries_putAt_ne (by decide) root _ _) (Json.entries_putAt_ne (by decide) root _ _)
  | rejoinGroup hfill => exact h.of_fills hfill
  | leaveGroup =>
    exact h.of_entries (Json.entries_putAt_ne (by decide) root _ _) (Json.entries_putAt_ne (by decide) root _ _)
  | delGroup =>
    exact h.of_entries (Json.entries_removeAt_ne (by decide) root _) (Json.entries_removeAt_ne (by decide) root _)
  | addHost => exact h.of_grow (Json.entries_pushAt_ne (by decide) root _) (fun m hm => mem_keys_pushAt hm)
  | updateHost _ hupd => exact h.updateHost hupd
  | @delHost name nqn i x hx hkey =>
    -- the host is on no list, so every list that is left refers to the hosts that are left
    intro t' ht' s hsleft
    rw [entries_delFromGroups_ne (by decide), entries_delFromAllowedHosts, Json.entries_removeAt_ne (by decide)] at ht'
    obtain ⟨j, hj, rfl⟩ := List.mem_mapIdx.mp ht'
    have ht := List.getElem_mem hj
    have hs := (entries_targetWithout_sublist name j _).subset hsleft
    refine (h _ ht s hs).mono (fun m hm hknown => ?_)
    refine mem_keys_removed hx hkey ?_ m hknown (by rintro rfl; exact hok ⟨_, ht, s, hs, hm⟩)
    rw [entries_delFromGroups_ne (by decide), entries_delFromAllowedHosts_ne (by decide), Json.entries_removeAt]
  | keepSubsys hfill => exact h.of_fills hfill
  | setSubsys ht _ hupd => exact h.putTarget ((h.at ht).update hupd)
  | delSubsys ht hs =>
    refine h.putTarget ?_
    unfold TargetRefers
    rw [Json.entries_removeAt]
    exact Keyed.forall_mem_eraseIdx (h.at ht)
  | setPortid ht _ hupd =>
    cases hupd with
    | change => exact h.putTarget ((h.at ht).of_entries (Json.entries_putAt_ne (by decide) _ _ _))
    | create => exact h.putTarget ((h.at ht).of_entries (Json.entries_pushAt_ne (by decide) _ _))
  | delPortid ht => exact h.putTarget ((h.at ht).of_entries (Json.entries_removeAt_ne (by decide) _ _))
  | setNs ht hs _ _ hupd => exact h.putTarget ((h.at ht).nsUpdate hs hupd)
  | delNs ht hs =>
    exact h.putTarget ((h.at ht).put (((h.at ht).at hs).of_entries (Json.entries_removeAt_ne (by decide) _ _)))
  | @addTarget tgt => exact h.pushTarget (by cases tgt <;> rfl)
  | updateTarget _ hupd => exact h.updateTarget hupd
  | delTarget ht =>
    intro t' ht'
    rw [entries_delFromGroups_ne (by decide), Json.entries_removeAt] at ht'
    rw [Json.keys, entries_delFromGroups_ne (by decide), Json.entries_removeAt_ne (by decide)]
    exact h t' (List.mem_of_mem_eraseIdx ht')
  | setAcl hadd =>
    obtain ⟨i, t, j, s, ht, hs, hfresh, rfl⟩ := hadd.added
    obtain ⟨k, x, hx, hkey, -⟩ := hadd.known
    exact h.putTarget ((h.at ht).put
      (((h.at ht).at hs).pushAt hfresh (List.mem_filterMap.mpr ⟨x, List.mem_of_getElem? hx, hkey⟩)))
  | delAcl ht hs => exact h.putTarget ((h.at ht).put (((h.at ht).at hs).removeAt _))

/-- The allowed hosts are hosts of the store and none is listed twice, in every run that deletes no host while it is listed. -/
theorem allowed_hosts_known (J : JsonLib) (root : Json)
    (h : StoreRun J (fun root op => ¬deletesListedHost root op) root) :
    ∀ t ∈ root.entries tagTargets, ∀ s ∈ t.entries tagSubsystems,
      (∀ m ∈ s.strings tagHosts, m ∈ root.keys tagHosts tagAlias) ∧ (s.strings tagHosts).Nodup := by
  have hinv : AclRefers root := by
    refine Run.invariant h (by intro t ht; cases ht) ?_
    rintro s op s' hi hok ⟨ret, hrun⟩
    rcases run_cases hrun with ⟨-, hfill⟩ | ⟨-, he⟩
    · exact hi.of_fills hfill
    · exact hi.effect hok he
  exact fun t ht s hs => ⟨(hinv t ht s hs).known, (hinv t ht s hs).nodup⟩

/-- The functions on hosts, targets, subsystems and access lists. -/
def isAccessOp : StoreOp → Bool
  | .addHost _ | .updateHost _ _ _ | .delHost _ _ | .addTarget _ | .updateTarget _ _ _ | .delTarget _ => true
  | .setSubsys _ _ _ _ | .delSubsys _ _ | .setAcl _ _ _ _ _ | .delAcl _ _ _ => true
  | _ => false

def accessOps : Json → StoreOp → Prop := fun _ op => isAccessOp op = true

/-- The text of a body that gives a host. -/
def hostText : String := "\x7b\"Alias\":\"h\",\"HOSTNQN\":\"q\"\x7d"

/-- The text of a body that gives a restricted subsystem. -/
def subsysText (nqn : String) : String := "\x7b\"SUBNQN\":\"" ++ nqn ++ "\",\"AllowAnyHost\":0\x7d"

def subsysBodies : JsonLib :=
  .ofTexts [(hostText, .object [(tagAlias, .string "h"), (tagHostnqn, .string "q")]),
    (subsysText "a", .object [(tagSubnqn, .string "a"), (tagAllowAny, .integer 0)]),
    (subsysText "b", .object [(tagSubnqn, .string "b"), (tagAllowAny, .integer 0)])]

/-- A store with the hosts `hosts` and a target with two subsystems, of which the second lists the host `h`. -/
def listedStore (hosts : List Json) : Json :=
  .object [(tagHosts, .array hosts), (tagTargets, .array [.object [(tagAlias, .string "t"), (tagPortids, .array []),
    (tagSubsystems, .array [
      .object [(tagSubnqn, .string "a"), (tagAllowAny, .integer 0)],
      .object [(tagSubnqn, .string "b"), (tagAllowAny, .integer 0), (tagHosts, .array [.string "h"])]])]])]

theorem listedStore_run {allowed : Json → StoreOp → Prop} (h₁ : allowed emptyRoot (.updateHost none hostText ⟨"", ""⟩))
    (h₂ : ∀ root, allowed root (.addTarget (some "t")))
    (h₃ : ∀ root data, allowed root (.setSubsys "t" none data ⟨"", undefinedAccess⟩))
    (h₄ : ∀ root, allowed root (.setAcl "t" "b" (some "h") "" ⟨"", ""⟩)) :
    StoreRun subsysBodies allowed (listedStore [.object [(tagAlias, .string "h"), (tagHostnqn, .string "q")]]) :=
  Run.call (.setAcl "t" "b" (some "h") "" ⟨"", ""⟩)
    (Run.call (.setSubsys "t" none (subsysText "b") ⟨"", undefinedAccess⟩)
      (Run.call (.setSubsys "t" none (subsysText "a") ⟨"", undefinedAccess⟩)
        (Run.call (.addTarget (some "t")) (Run.call (.updateHost none hostText ⟨"", ""⟩) .start h₁ rfl) (h₂ _) rfl)
        (h₃ _ _) rfl) (h₃ _ _) rfl) (h₄ _) rfl

theorem allowed_hosts_known_listed :
    "h" ∈ (listedStore [.object [(tagAlias, .string "h"), (tagHostnqn, .string "q")]]).keys tagHosts tagAlias :=
  (allowed_hosts_known subsysBodies _
    (listedStore_run (fun h => h) (fun _ h => h) (fun _ _ h => h) (fun _ h => h))
    _ (List.mem_singleton.mpr rfl) _ (List.mem_cons_of_mem _ (List.mem_singleton.mpr rfl))).1 "h"
    (List.mem_singleton.mpr rfl)

/-- The host is deleted and the second subsystem of the first target still lists it. -/
theorem allowed_hosts_left_behind :
    ¬∀ root, StoreRun subsysBodies accessOps root → ∀ t ∈ root.entries tagTargets, ∀ s ∈ t.entries tagSubsystems,
      (∀ m ∈ s.strings tagHosts, m ∈ root.keys tagHosts tagAlias) ∧ (s.strings tagHosts).Nodup := by
  intro h
  have hrun := h (listedStore []) (Run.call (.delHost (some "h") "")
    (listedStore_run rfl (fun _ => rfl) (fun _ _ => rfl) (fun _ => rfl)) rfl rfl)
    _ (List.mem_singleton.mpr rfl) _ (List.mem_cons_of_mem _ (List.mem_singleton.mpr rfl))
  exact absurd (hrun.1 "h" (List.mem_singleton.mpr rfl)) (by decide)

end NvmeDem
