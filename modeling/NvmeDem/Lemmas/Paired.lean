import NvmeDem.Lib.Pairs
import NvmeDem.Dem.Groups
import NvmeDem.Dem.Hosts
import NvmeDem.Dem.Subsystems
import NvmeDem.Lemmas.Subsystems

/-!
# The store and the lists, target by target

A request edits an entry of the store and the record of the same name in the lists. `Paired R` says that the entries and the
records stand for one another, in one order, and that `R` relates each entry to its record; `SubsysPaired R` says the same of
the subsystems of a target. What a request does to both sides keeps the pairs if it keeps `R`.
-/

namespace NvmeDem

open Jansson Keyed

/-! ## Targets -/

/-- The targets of the store and of the lists, pair by pair. -/
def Paired (R : Json → Target → Prop) (d : Daemon) : Prop :=
  Pairs (Json.strField tagAlias) Target.name R (d.root.entries tagTargets) d.lists.targetList

theorem TargetAt.findIdx {root t : Json} {tgt : String} {i : Nat} (ht : TargetAt root tgt i t) :
    (root.entries tagTargets).findIdx? (fun iter => decide (iter.strField tagAlias = some tgt)) = some i := by
  have h := ht.first
  rwa [findArray, Json.elems_arrayOr] at h

namespace Paired

variable {R : Json → Target → Prop} {d : Daemon} {root : Json} {lists : Lists} {tgt : String} {i : Nat} {t t' : Json}

theorem find (h : Paired R d) (ht : TargetAt d.root tgt i t) :
    ∃ target, findTarget d.lists tgt = some target ∧ target.name = tgt ∧ R t target := by
  obtain ⟨x, target, hx, hfind, hname, hR⟩ := Pairs.find h ht.findIdx
  obtain rfl := Option.some.inj (ht.get.symm.trans hx)
  exact ⟨target, hfind, hname, hR⟩

/-- An entry and its record changed. -/
theorem onTarget (h : Paired R ⟨root, lists⟩) (ht : TargetAt root tgt i t) {g : Target → Target}
    (hg : ∀ target, findTarget lists tgt = some target → target.name = tgt → R t target →
      t'.strField tagAlias = some (g target).name ∧ R t' (g target)) :
    Paired R ⟨root.putAt tagTargets i t', lists.onTarget tgt g⟩ := by
  unfold Paired
  rw [Json.entries_putAt]
  refine Pairs.modify h ht.findIdx (fun x target hx hfind hname hR => ?_)
  obtain rfl := Option.some.inj (ht.get.symm.trans hx)
  exact hg target hfind hname hR

/-- An entry changed that its record has nothing to do with. -/
theorem putAt (h : Paired R ⟨root, lists⟩) (ht : TargetAt root tgt i t) (hkey : t'.strField tagAlias = t.strField tagAlias)
    (hR : ∀ target, R t target → R t' target) : Paired R ⟨root.putAt tagTargets i t', lists⟩ := by
  have hid : lists.onTarget tgt id = lists := by simp only [Lists.onTarget, modifyFirst_id]
  rw [← hid]
  refine h.onTarget ht (fun target _ hname hrel => ⟨?_, hR target hrel⟩)
  rw [hkey, ht.key, id, hname]

theorem of_fills (h : Paired R ⟨root, lists⟩) {root' : Json} (hfill : Json.Fills root root')
    (hR : ∀ {t t' : Json} {target : Target}, Json.Fills t t' → R t target → R t' target) : Paired R ⟨root', lists⟩ :=
  Pairs.of_left (hfill.entries tagTargets) h (fun hx => hx.strField tagAlias) hR

theorem of_entries (h : Paired R ⟨root, lists⟩) {root' : Json} (hroot : root'.entries tagTargets = root.entries tagTargets) :
    Paired R ⟨root', lists⟩ := by
  unfold Paired
  rw [hroot]
  exact h

theorem notify (h : Paired R ⟨root, lists⟩) (list : List EventNotification) : Paired R ⟨root, lists.notify list⟩ := h

end Paired

/-- The logs that come in change the subsystems of a target alone. -/
theorem logEvent_eq (target : Target) (e : LogEvent) :
    target.logEvent e = { target with subsysList := (target.logEvent e).subsysList } := by
  cases e with
  | invalidate => rfl
  | fetch portid log =>
    show List.foldl _ target log = { target with subsysList := (List.foldl _ target log).subsysList }
    induction log generalizing target with
    | nil => rfl
    | cons e log ih => exact ih (target.onSubsys e.subnqn (Subsystem.saveLogPage portid e))

theorem Paired.withLogs {R : Json → Target → Prop} {root : Json} {lists : Lists} (h : Paired R ⟨root, lists⟩) (w : World)
    (hR : ∀ t target e, R t target → R t (target.logEvent e)) : Paired R ⟨root, lists.withLogs w⟩ := by
  refine Pairs.map_right h (fun target => ?_) (fun t target hrel => ?_)
  · induction w.logs target.ptr generalizing target with
    | nil => rfl
    | cons e es ih => rw [List.foldl_cons, ih, logEvent_eq]
  · induction w.logs target.ptr generalizing target with
    | nil => exact hrel
    | cons e es ih => exact ih _ (hR t target e hrel)

theorem name_setPortid (w : World) (id : Int) (out : PortArg) (target : Target) :
    (target.setPortid w id out).name = target.name := by
  unfold Target.setPortid
  split <;> rfl

/-! ## Subsystems -/

/-- The subsystems of an entry and of its record, pair by pair. -/
def SubsysPaired (R : Json → Subsystem → Prop) (t : Json) (target : Target) : Prop :=
  Pairs (Json.strField tagSubnqn) Subsystem.nqn R (t.entries tagSubsystems) target.subsysList

namespace SubsysPaired

variable {R : Json → Subsystem → Prop} {t t' s s' : Json} {target : Target} {nqn : String} {j : Nat}

theorem find (h : SubsysPaired R t target) (hs : SubsysAt t nqn j s) :
    ∃ subsys, findSubsys target nqn = some subsys ∧ subsys.nqn = nqn ∧ R s subsys := by
  obtain ⟨x, subsys, hx, hfind, hname, hR⟩ := Pairs.find h hs.first
  obtain rfl := Option.some.inj (hs.get.symm.trans hx)
  exact ⟨subsys, hfind, hname, hR⟩

theorem onSubsys (h : SubsysPaired R t target) (hs : SubsysAt t nqn j s) {g : Subsystem → Subsystem}
    (hg : ∀ subsys, findSubsys target nqn = some subsys → subsys.nqn = nqn → R s subsys →
      s'.strField tagSubnqn = some (g subsys).nqn ∧ R s' (g subsys)) :
    SubsysPaired R (t.putAt tagSubsystems j s') (target.onSubsys nqn g) := by
  unfold SubsysPaired
  rw [Json.entries_putAt]
  refine Pairs.modify h hs.first (fun x subsys hx hfind hname hR => ?_)
  obtain rfl := Option.some.inj (hs.get.symm.trans hx)
  exact hg subsys hfind hname hR

theorem of_fills (h : SubsysPaired R t target) (hfill : Json.Fills t t')
    (hR : ∀ {s s' : Json} {subsys : Subsystem}, Json.Fills s s' → R s subsys → R s' subsys) : SubsysPaired R t' target :=
  Pairs.of_left (hfill.entries tagSubsystems) h (fun hx => hx.strField tagSubnqn) hR

/-- The logs that come in change the log pages alone. -/
theorem logEvent (h : SubsysPaired R t target) (e : LogEvent)
    (hR : ∀ s (subsys : Subsystem) (pages : List Logpage), R s subsys → R s { subsys with logpageList := pages }) :
    SubsysPaired R t (target.logEvent e) := by
  cases e with
  | invalidate => exact Pairs.map_right h (fun _ => rfl) (fun s subsys hrel => hR s subsys _ hrel)
  | fetch portid log =>
    unfold Target.logEvent
    induction log generalizing target with
    | nil => exact h
    | cons e log ih => exact ih (Pairs.modify_right h (fun _ => rfl) (fun s subsys hrel => hR s subsys _ hrel))

end SubsysPaired

/-! ## Requests on subsystems -/

/-- A relation of a subsystem's entry and its record that has nothing to do with absent arrays and log pages. -/
structure Stable (R : Json → Subsystem → Prop) : Prop where
  fills : ∀ {s s' : Json} {subsys : Subsystem}, Json.Fills s s' → R s subsys → R s' subsys
  pages : ∀ (s : Json) (subsys : Subsystem) (pages : List Logpage), R s subsys → R s { subsys with logpageList := pages }

section

variable {R : Json → Subsystem → Prop} {J : JsonLib} {w : World} {d : Daemon} {root : Json} {lists : Lists} {a : Answer}
  {tgt : String}

theorem Stable.of_fills (hR : Stable R) (h : Paired (SubsysPaired R) ⟨root, lists⟩) {root' : Json}
    (hfill : Json.Fills root root') : Paired (SubsysPaired R) ⟨root', lists⟩ :=
  h.of_fills hfill (fun ht hrel => SubsysPaired.of_fills hrel ht hR.fills)

theorem Stable.withLogs (hR : Stable R) (h : Paired (SubsysPaired R) ⟨root, lists⟩) (w : World) :
    Paired (SubsysPaired R) ⟨root, lists.withLogs w⟩ :=
  h.withLogs w (fun _ _ e hrel => SubsysPaired.logEvent hrel e hR.pages)

/-- An entry of a subsystem and its record changed. -/
theorem Paired.onSubsys (h : Paired (SubsysPaired R) ⟨root, lists⟩) {nqn : String} {i j : Nat} {t s s' : Json}
    (ht : TargetAt root tgt i t) (hs : SubsysAt t nqn j s) {g : Subsystem → Subsystem}
    (hg : ∀ target subsys, findTarget lists tgt = some target → findSubsys target nqn = some subsys → subsys.nqn = nqn →
      R s subsys → s'.strField tagSubnqn = some (g subsys).nqn ∧ R s' (g subsys)) :
    Paired (SubsysPaired R)
      ⟨root.putAt tagTargets i (t.putAt tagSubsystems j s'), lists.onTarget tgt (fun t => t.onSubsys nqn g)⟩ := by
  refine h.onTarget ht (fun target hfind hname hrel =>
    ⟨?_, SubsysPaired.onSubsys hrel hs (fun subsys => hg target subsys hfind)⟩)
  rw [Json.strField_putAt_ne (by decide), ht.key, ← hname]
  rfl

/-- An entry of a subsystem changed, and its record left as it is. -/
theorem Paired.putSubsys (h : Paired (SubsysPaired R) ⟨root, lists⟩) {nqn : String} {i j : Nat} {t s s' : Json}
    (ht : TargetAt root tgt i t) (hs : SubsysAt t nqn j s) (hkey : s'.strField tagSubnqn = s.strField tagSubnqn)
    (hR : ∀ target subsys, findTarget lists tgt = some target → findSubsys target nqn = some subsys → R s subsys →
      R s' subsys) :
    Paired (SubsysPaired R) ⟨root.putAt tagTargets i (t.putAt tagSubsystems j s'), lists⟩ := by
  have hid : lists.onTarget tgt (fun t => t.onSubsys nqn id) = lists := by
    have hsame : (fun t : Target => t.onSubsys nqn id) = id := by
      funext t
      simp only [Target.onSubsys, modifyFirst_id]
      rfl
    simp only [hsame, Lists.onTarget, modifyFirst_id]
  rw [← hid]
  refine h.onSubsys ht hs (fun target subsys hfind hfound hname hrel => ⟨?_, hR target subsys hfind hfound hrel⟩)
  rw [hkey, hs.key, id, hname]

theorem Paired.delSubsys (h : Paired (SubsysPaired R) d) (hR : Stable R) {nqn : String}
    (hr : delSubsys w d tgt nqn = .ok a) : Paired (SubsysPaired R) a.dem := by
  obtain ⟨r, hstore, hr⟩ := afterStore_ok hr
  rcases ret_cases (delJsonSubsys_ok hstore) hr with ⟨hroot, rfl⟩ | ⟨⟨i, t, j, s, n, ht, hs, hn, hroot⟩, hr⟩
  · rw [hroot]
    exact h
  · obtain rfl := Option.some.inj hn
    obtain ⟨target, hfind, -, hrel⟩ := h.find ht
    obtain ⟨subsys, hfound, -, -⟩ := hrel.find hs
    simp only [hfind, hfound] at hr
    cases hr
    refine hR.withLogs (Paired.notify ?_ _) w
    rw [hroot]
    refine Paired.onTarget h ht (fun target _ hname hrel => ⟨?_, ?_⟩)
    · rw [Json.strField_removeAt_ne (by decide), ht.key, ← hname]
    · unfold SubsysPaired
      rw [Json.entries_removeAt]
      exact Pairs.erase hrel hs.first

/-- Every subsystem changed, in the store and in the lists: `S` is what becomes of an entry of a target. -/
theorem Paired.mapSubsystems (h : Paired (SubsysPaired R) ⟨root, lists⟩) {root' : Json} {T : Json → Json → Prop}
    {S : Json → Json → Json → Prop} {f : Subsystem → Subsystem}
    (hroot : List.Forall₂ T (root.entries tagTargets) (root'.entries tagTargets))
    (hT : ∀ t t', T t t' → t'.strField tagAlias = t.strField tagAlias ∧
      List.Forall₂ (S t) (t.entries tagSubsystems) (t'.entries tagSubsystems))
    (hS : ∀ t s s', S t s s' → s'.strField tagSubnqn = s.strField tagSubnqn) (hf : ∀ subsys, (f subsys).nqn = subsys.nqn)
    (hR : ∀ t s s' target subsys, target ∈ lists.targetList → subsys ∈ target.subsysList →
      t.strField tagAlias = some target.name → s.strField tagSubnqn = some subsys.nqn → S t s s' → R s subsys →
      R s' (f subsys)) :
    Paired (SubsysPaired R)
      ⟨root', { lists with targetList := lists.targetList.map (fun t => { t with subsysList := t.subsysList.map f }) }⟩ := by
  refine Pairs.map_both hroot h (fun t t' target htarget ht halias hrel => ?_)
  obtain ⟨hname, hsub⟩ := hT t t' ht
  refine ⟨hname.trans halias, Pairs.map_both hsub hrel (fun s s' subsys hsubsys hs hnqn hs' => ⟨?_, ?_⟩)⟩
  · rw [hS t s s' hs, hnqn, hf]
  · exact hR t s s' target subsys htarget hsubsys halias hnqn hs hs'

/-- What a call that sets a subsystem has to keep: an update without a body, an update with a body and the entry that is
added. -/
structure KeepsSubsys (J : JsonLib) (R : Json → Subsystem → Prop) (d : Daemon) (tgt : String) (nqn : Option String)
    (data : String) : Prop where
  same : ∀ s subsys, R s subsys → R s (configSubsys subsys)
  change : ∀ old body t i j s s' newnqn target subsys, nqn = some old → J.loads data = some body → TargetAt d.root tgt i t →
    SubsysAt t old j s → jsonUpdateStringEx s body tagSubnqn maxNqnSize old = .ok (s', newnqn) →
    findTarget d.lists tgt = some target → findSubsys target old = some subsys →
    (newnqn = old ∨ newnqn ∉ t.keys tagSubsystems tagSubnqn) → R s subsys →
    (newnqn = "" → old = "") ∧ R (updateSubsysAccess s' body ⟨newnqn, undefinedAccess⟩).1
      (configSubsys (subsys.updateTo (updateSubsysAccess s' body ⟨newnqn, undefinedAccess⟩).2))
  create : ∀ body t i newnqn, nqn = none → J.loads data = some body → TargetAt d.root tgt i t →
    body.strField tagSubnqn = some newnqn → newnqn ∉ t.keys tagSubsystems tagSubnqn → t.canPush tagSubsystems = true →
    R (updateSubsysAccess (jsonSetString (.object []) tagSubnqn newnqn) body ⟨newnqn, undefinedAccess⟩).1
      { nqn := newnqn
        access := (updateSubsysAccess (jsonSetString (.object []) tagSubnqn newnqn) body ⟨newnqn, undefinedAccess⟩).2.access }

/-- The NQN of a body is given to no other subsystem of the target. -/
def FreeNqn (t body : Json) (old : Option String) : Prop :=
  ∀ nqn, body.strField tagSubnqn = some nqn → old = some nqn ∨ nqn ∉ t.keys tagSubsystems tagSubnqn

theorem freeNqn_of_update {t s s' body : Json} {old newnqn : String} (hobj : s.isObject = true)
    (hupd : jsonUpdateStringEx s body tagSubnqn maxNqnSize old = .ok (s', newnqn))
    (hfresh : newnqn = old ∨ newnqn ∉ t.keys tagSubsystems tagSubnqn) : FreeNqn t body (some old) := by
  intro n hn
  obtain ⟨-, rfl⟩ := jsonUpdateStringEx_some hn hobj hupd
  exact hfresh.imp_left (fun heq => by rw [heq])

/-- An update that gives no empty NQN leaves none. -/
theorem newnqn_empty {s s' body : Json} {old newnqn : String} (hobj : s.isObject = true)
    (hupd : jsonUpdateStringEx s body tagSubnqn maxNqnSize old = .ok (s', newnqn))
    (hempty : body.strField tagSubnqn = some "" → old = "") : newnqn = "" → old = "" := by
  intro hnew
  cases hn : body.strField tagSubnqn with
  | none => rw [← (jsonUpdateStringEx_none hn hupd).2, hnew]
  | some n =>
    obtain ⟨-, rfl⟩ := jsonUpdateStringEx_some hn hobj hupd
    exact hempty (hnew ▸ hn)

/-- The record of a subsystem whose entry was given an NQN. -/
theorem nqn_updateTo {subsys : Subsystem} {old newnqn : String} {access : Int} (hold : subsys.nqn = old)
    (hempty : newnqn = "" → old = "") : (configSubsys (subsys.updateTo ⟨newnqn, access⟩)).nqn = newnqn := by
  have hnqn : (subsys.updateTo ⟨newnqn, access⟩).nqn = newnqn := by
    unfold Subsystem.updateTo
    dsimp only
    split
    · rename_i h
      rw [hold, hempty h, h]
    · rfl
  unfold configSubsys
  split
  · exact hnqn
  · exact hnqn

theorem strField_subnqn_update {s s' body : Json} {old newnqn : String} (hs : s.strField tagSubnqn = some old)
    (h : jsonUpdateStringEx s body tagSubnqn maxNqnSize old = .ok (s', newnqn)) : s'.strField tagSubnqn = some newnqn := by
  rcases jsonUpdateStringEx_ok h with ⟨n, -, hobj, rfl, rfl⟩ | ⟨rfl, rfl⟩
  · exact strField_jsonSetString_self hobj (Or.inl (by rw [hs]; rfl))
  · exact hs

theorem Paired.setSubsys (h : Paired (SubsysPaired R) d) (hR : Stable R) {nqn : Option String} {data : String}
    (hk : KeepsSubsys J R d tgt nqn data) (hr : setSubsys J w d tgt nqn data = .ok a) : Paired (SubsysPaired R) a.dem := by
  obtain ⟨r, hstore, hr⟩ := afterStore_ok hr
  rcases setJsonSubsys_ok hstore with
    ⟨hne, hfill⟩ | ⟨hz, -, hsome, ⟨i, t, ht⟩, hfill, hout⟩ | ⟨hz, i, t, t', body, ht, hbody, hupd, hroot⟩
  · rcases hr with ⟨-, rfl⟩ | ⟨hz, -⟩
    · exact hR.of_fills h hfill
    · exact absurd hz hne
  · rcases hr with ⟨hne, -⟩ | ⟨-, hr⟩
    · exact absurd hz hne
    · -- Nothing is asked for: the record takes nothing, and loses its hosts if it is open to every host.
      obtain ⟨old, rfl⟩ := Option.isSome_iff_exists.mp hsome
      have hroot : Paired (SubsysPaired R) ⟨r.root, d.lists⟩ := hR.of_fills h hfill
      split at hr
      · cases hr
        exact hroot
      · split at hr
        · rename_i hnone
          cases hnone
        · rename_i hold
          obtain rfl := Option.some.inj hold
          split at hr
          · cases hr
            exact hroot
          · cases hr
            refine hR.withLogs (Paired.notify ?_ _) w
            rw [hout]
            refine Pairs.modify_right hroot (fun _ => rfl) (fun t target hrel => ?_)
            refine Pairs.modify_right hrel (fun subsys => ?_) (fun s subsys hs => hk.same s subsys hs)
            unfold configSubsys
            split <;> rfl
  · rcases hr with ⟨hne, -⟩ | ⟨-, hr⟩
    · exact absurd hz hne
    · obtain ⟨target, hfind, hname, hrel⟩ := h.find ht
      simp only [hfind] at hr
      generalize r.out = out at hupd hr
      cases hupd with
      | @change old newnqn j s s' hs hnqn hfresh =>
        obtain ⟨subsys, hfound, -, -⟩ := hrel.find hs
        simp only [hfound] at hr
        cases hr
        refine hR.withLogs (Paired.notify ?_ _) w
        rw [hroot]
        refine Paired.onSubsys h ht hs (fun target subsys hfind hfound hsubsys hs' => ?_)
        obtain ⟨hempty, hnew⟩ :=
          hk.change old body t i j s s' newnqn target subsys rfl hbody ht hs hnqn hfind hfound hfresh hs'
        refine ⟨?_, hnew⟩
        rw [strField_updateSubsysAccess, strField_subnqn_update hs.key hnqn]
        exact congrArg some (nqn_updateTo hsubsys hempty).symm
      | @create newnqn hstr hfresh hpush =>
        cases hr
        refine hR.withLogs (Paired.notify ?_ _) w
        rw [hroot]
        refine Paired.onTarget h ht (fun target _ hname hrel => ⟨?_, ?_⟩)
        · rw [Json.strField_pushAt_ne (by decide), ht.key, ← hname]
        · unfold SubsysPaired
          rw [Json.entries_pushAt_of_canPush hpush]
          refine Pairs.concat hrel ?_ (hk.create body t i newnqn rfl hbody ht hstr hfresh hpush)
          rw [strField_updateSubsysAccess, strField_jsonSetString_self rfl (Or.inr rfl)]
          rfl

end

end NvmeDem
