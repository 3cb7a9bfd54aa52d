import NvmeDem.Lemmas.Loaded
import NvmeDem.Lemmas.Paired

/-!
# The access of a subsystem after a restart

A subsystem is open to every host or restricted. Its record in the lists says which for as long as the daemon runs, its entry
in the store says which after a restart. A request that creates a subsystem without an access leaves the record with the mark
of an access that is not given, which is not zero and opens the subsystem, and the entry without a field, which restricts it.
An update that gives the value of the mark as the access changes the entry alone, and so does one that gives an empty NQN.
-/

namespace NvmeDem

open Jansson

/-- A record has the access that a load gives it. -/
def SameAccess (s : Json) (subsys : Subsystem) : Prop := subsys.access = loadedAccess s

theorem sameAccess_stable : Stable SameAccess where
  fills := by
    intro s s' subsys hfill h
    unfold SameAccess loadedAccess at *
    rw [h, hfill.intField]
  pages := fun _ _ _ h => h

/-- A load of an entry whose record is paired with it gives each subsystem the access it has. -/
theorem checkSubsystems_access {t : Json} {target : Target} (h : SubsysPaired SameAccess t target) {hosts : Option Json}
    {ss : List Subsystem} (hload : checkSubsystems (t.arrayOr tagSubsystems) hosts = .ok ss) :
    ss.map (fun s => (s.nqn, s.access)) = target.subsysList.map (fun s => (s.nqn, s.access)) := by
  unfold checkSubsystems at hload
  rw [Json.elems_arrayOr] at hload
  unfold SubsysPaired Keyed.Pairs at h
  generalize t.entries tagSubsystems = xs at h hload
  generalize target.subsysList = ys at h
  induction h generalizing ss with
  | nil =>
    cases hload
    rfl
  | cons hxy _ ih =>
    obtain ⟨zs, rest, hzs, hrest, rfl⟩ := collect_cons_ok hload
    obtain ⟨s, rfl, hnqn, haccess⟩ := checkSubsystem_access hxy.1 hzs
    simp only [List.singleton_append, List.map_cons, ih hrest, hnqn, haccess, ← hxy.2.symm]

/-! ## What a request gives as the access -/

/-- The access that an update of an entry gives is not the mark, unless the entry has the mark already; where the entry has
something that is not a number, the access is zero or the mark. -/
def AccessStays (s body : Json) : Prop :=
  ∀ v, body.objectGet tagAllowAny = some v →
    (NumberOrAbsent s tagAllowAny ∧ (cInt v.integerValue ≠ undefinedAccess ∨ loadedAccess s = undefinedAccess)) ∨
      (¬NumberOrAbsent s tagAllowAny ∧ (cInt v.integerValue = 0 ∨ cInt v.integerValue = undefinedAccess))

/-- The access of an entry that an update was made to: the one it gives, if it gives one. -/
theorem updateSubsysAccess_eq {s : Json} (body : Json) (hs : s.isObject = true) (nqn : String) :
    (body.objectGet tagAllowAny = none ∧ (updateSubsysAccess s body ⟨nqn, undefinedAccess⟩).2.access = undefinedAccess ∧
      loadedAccess (updateSubsysAccess s body ⟨nqn, undefinedAccess⟩).1 = loadedAccess s) ∨
    ∃ v, body.objectGet tagAllowAny = some v ∧
      (updateSubsysAccess s body ⟨nqn, undefinedAccess⟩).2.access = cInt v.integerValue ∧
      (NumberOrAbsent s tagAllowAny →
        loadedAccess (updateSubsysAccess s body ⟨nqn, undefinedAccess⟩).1 = cInt v.integerValue) ∧
      (¬NumberOrAbsent s tagAllowAny → loadedAccess (updateSubsysAccess s body ⟨nqn, undefinedAccess⟩).1 = 0) := by
  have hload : ∀ (c : Prop) [Decidable c] (e : Json), loadedAccess (if c then e else e.objectDel tagHosts) = loadedAccess e := by
    intro c _ e
    unfold loadedAccess Json.intField
    split
    · rfl
    · rw [Json.objectGet_objectDel_ne (by decide)]
  unfold updateSubsysAccess
  simp only [hload]
  cases hv : body.objectGet tagAllowAny with
  | none => exact Or.inl ⟨rfl, by simp [jsonUpdateIntEx, hv], by simp [jsonUpdateIntEx, hv]⟩
  | some v =>
    refine Or.inr ⟨v, rfl, by simp [jsonUpdateIntEx, hv, hs], fun hnum => ?_, fun hnot => ?_⟩
    · simp only [jsonUpdateIntEx, hv, hs, if_true, loadedAccess, intField_jsonSetInt_self hs hnum]
      rfl
    · -- A field that is not a number stays as it is, and loads as a restricted access.
      obtain ⟨hkeep, hnone⟩ := jsonSetInt_of_not hnot v.integerValue
      simp [jsonUpdateIntEx, hv, hs, hkeep, loadedAccess, hnone]

theorem access_configSubsys (subsys : Subsystem) : (configSubsys subsys).access = subsys.access := by
  unfold configSubsys
  split <;> rfl

/-- An update keeps a record and its entry in agreement. -/
theorem SameAccess.update {s s' body : Json} {subsys : Subsystem} {nqn : String} (h : SameAccess s subsys)
    (hs : s'.isObject = true) (hget : s'.objectGet tagAllowAny = s.objectGet tagAllowAny) (hstays : AccessStays s body) :
    SameAccess (updateSubsysAccess s' body ⟨nqn, undefinedAccess⟩).1
      (configSubsys (subsys.updateTo (updateSubsysAccess s' body ⟨nqn, undefinedAccess⟩).2)) := by
  have hload : loadedAccess s' = loadedAccess s := by simp only [loadedAccess, Json.intField, hget]
  have hnum : NumberOrAbsent s' tagAllowAny ↔ NumberOrAbsent s tagAllowAny := by
    simp only [NumberOrAbsent, Json.intField, hget]
  unfold SameAccess at *
  rw [access_configSubsys]
  show (if _ = undefinedAccess then subsys.access else _) = _
  rcases updateSubsysAccess_eq body hs nqn with ⟨-, hout, hnew⟩ | ⟨v, hv, hout, hgood, hbad⟩
  · rw [hout, if_pos rfl, hnew, hload, h]
  · rw [hout]
    rcases hstays v hv with ⟨htyped, hmark⟩ | ⟨htyped, hmark⟩
    · rw [hgood (hnum.mpr htyped)]
      split
      · rename_i heq
        rw [h, hmark.resolve_left (fun hne => hne heq), heq]
      · rfl
    · rw [hbad (fun h' => htyped (hnum.mp h'))]
      have hzero : loadedAccess s = 0 := by
        have hnone : s.intField tagAllowAny = none := by
          simpa using (not_or.mp htyped).1
        rw [loadedAccess, hnone]
        rfl
      split
      · rw [h, hzero]
      · rename_i hne
        exact hmark.resolve_right hne

/-! ## Runs -/

/-- The requests that set and delete subsystems. -/
def Request.editsSubsystems : Request → Bool
  | .setSubsys _ _ _ | .delSubsys _ _ => true
  | _ => false

/-- A request that creates a subsystem gives its access. A request that updates one gives no access that only the store takes,
and does not give it an empty NQN. -/
def Request.KeepsAccess (J : JsonLib) (d : Daemon) : Request → Prop
  | .setSubsys tgt none data =>
    ∀ body t i, J.loads data = some body → TargetAt d.root tgt i t → (body.strField tagSubnqn).isSome = true →
      FreeNqn t body none → t.canPush tagSubsystems = true → body.objectGet tagAllowAny ≠ none
  | .setSubsys tgt (some old) data =>
    ∀ body t i j s, J.loads data = some body → TargetAt d.root tgt i t → SubsysAt t old j s → FreeNqn t body (some old) →
      (body.strField tagSubnqn = some "" → old = "") ∧ AccessStays s body
  | _ => True

theorem keepsSubsys_sameAccess {J : JsonLib} {d : Daemon} {tgt data : String} {nqn : Option String}
    (h : Request.KeepsAccess J d (.setSubsys tgt nqn data)) : KeepsSubsys J SameAccess d tgt nqn data where
  same := by
    intro s subsys hs
    unfold SameAccess at *
    rw [access_configSubsys, hs]
  change := by
    intro old body t i j s s' newnqn target subsys hnqn hbody ht hs hupd _ _ hfresh hrel
    subst hnqn
    have hobj := Json.isObject_of_strField hs.key
    obtain ⟨hempty, hstays⟩ := h body t i j s hbody ht hs (freeNqn_of_update hobj hupd hfresh)
    refine ⟨newnqn_empty hobj hupd hempty, hrel.update ?_ (objectGet_jsonUpdateStringEx_ne (by decide) hupd) hstays⟩
    rw [isObject_jsonUpdateStringEx hupd, hobj]
  create := by
    intro body t i newnqn hnqn hbody ht hstr hfresh hpush
    subst hnqn
    have hgiven := h body t i hbody ht (by rw [hstr]; rfl) (fun n hn => Or.inr (by rw [hstr] at hn; cases hn; exact hfresh)) hpush
    rcases updateSubsysAccess_eq (s := jsonSetString (.object []) tagSubnqn newnqn) body rfl newnqn with
      ⟨hnone, -, -⟩ | ⟨v, -, hout, hload, -⟩
    · exact absurd hnone hgiven
    · exact hout.trans (hload (Or.inr rfl)).symm

theorem SameAccess.step {J : JsonLib} {op : World × Request} {d d' : Daemon} (h : Paired (SubsysPaired SameAccess) d)
    (hop : op.2.editsSubsystems = true) (hkeeps : op.2.KeepsAccess J d) (hs : demStep J op d d') :
    Paired (SubsysPaired SameAccess) d' := by
  obtain ⟨w, req⟩ := op
  obtain ⟨-, a, hr, rfl⟩ := hs
  cases req with
  | setSubsys tgt nqn data => exact h.setSubsys sameAccess_stable (keepsSubsys_sameAccess hkeeps) hr
  | delSubsys tgt nqn => exact h.delSubsys sameAccess_stable hr
  | _ => cases hop

/-- In every run of requests that give an access where it is needed, each subsystem has the access that a load gives it: the
records and the entries are paired, and what a load makes of the subsystems of an entry has their access. -/
theorem access_survives_restart {J : JsonLib} {d₀ d : Daemon} (h₀ : Paired (SubsysPaired SameAccess) d₀)
    (hrun : Run (demStep J) (fun d op => op.2.editsSubsystems = true ∧ op.2.KeepsAccess J d) d₀ d) :
    Paired (fun t target => SubsysPaired SameAccess t target ∧
      ∀ hosts ss, checkSubsystems (t.arrayOr tagSubsystems) hosts = .ok ss →
        ss.map (fun s => (s.nqn, s.access)) = target.subsysList.map (fun s => (s.nqn, s.access))) d := by
  have h : Paired (SubsysPaired SameAccess) d := hrun.invariant h₀ (fun _ _ _ hi ha hs => SameAccess.step hi ha.1 ha.2 hs)
  exact Keyed.Pairs.imp h (fun t target hrel => ⟨hrel, fun _ _ hload => checkSubsystems_access hrel hload⟩)

theorem bareDaemon_paired (R : Json → Subsystem → Prop) : Paired (SubsysPaired R) bareDaemon := .cons ⟨rfl, .nil⟩ .nil

/-- The texts of two bodies: both give an NQN and one gives an access. -/
def openText : String := "\x7b\"SUBNQN\":\"s\",\"AllowAnyHost\":1\x7d"
def nqnText : String := "\x7b\"SUBNQN\":\"s\"\x7d"

def accessBodies : JsonLib :=
  .ofTexts [(openText, .object [(tagSubnqn, .string "s"), (tagAllowAny, .integer 1)]),
    (nqnText, .object [(tagSubnqn, .string "s")])]

/-- A subsystem is created, open to every host, and then updated without an access. -/
theorem access_survives_restart_open :
    ∃ d : Daemon, d.lists.targetList.map (fun t => t.subsysList.map Subsystem.access) = [[1]] ∧
      Paired (fun t target => SubsysPaired SameAccess t target ∧
        ∀ hosts ss, checkSubsystems (t.arrayOr tagSubsystems) hosts = .ok ss →
          ss.map (fun s => (s.nqn, s.access)) = target.subsysList.map (fun s => (s.nqn, s.access))) d := by
  have hcreate := Run.request { addr := 1 } (.setSubsys "t" none openText)
    (.start : Run (demStep accessBodies) (fun d op => op.2.editsSubsystems = true ∧ op.2.KeepsAccess accessBodies d) bareDaemon _)
    ⟨rfl, fun body t i hbody _ _ _ _ => by cases hbody; exact Option.some_ne_none _⟩ (by decide) rfl
  have hupdate := Run.request { addr := 1 } (.setSubsys "t" (some "s") nqnText) hcreate
    ⟨rfl, fun body t i j s hbody _ _ _ => by
      cases hbody
      exact ⟨fun h => absurd h (by decide), fun v hv => by cases hv⟩⟩ (by decide) rfl
  exact ⟨_, rfl, access_survives_restart (bareDaemon_paired _) hupdate⟩

/-- A subsystem is created without an access: its record is open to every host, and a load makes it restricted. -/
theorem access_lost_at_restart :
    ¬∀ (J : JsonLib) (d₀ d : Daemon), Paired (SubsysPaired SameAccess) d₀ →
      Run (demStep J) (fun _ op => op.2.editsSubsystems = true) d₀ d → Paired (SubsysPaired SameAccess) d := by
  intro h
  have hcreate := Run.request { addr := 1 } (.setSubsys "t" none nqnText)
    (.start : Run (demStep accessBodies) (fun _ op => op.2.editsSubsystems = true) bareDaemon _) rfl (by decide) rfl
  have hpaired := h accessBodies bareDaemon _ (bareDaemon_paired _) hcreate
  obtain ⟨⟨-, hsub⟩, -⟩ := List.forall₂_cons.mp hpaired
  obtain ⟨⟨-, haccess⟩, -⟩ := List.forall₂_cons.mp hsub
  have hmark : undefinedAccess = 0 := haccess
  exact absurd hmark (by decide)

end NvmeDem
