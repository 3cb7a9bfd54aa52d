import NvmeDem.Dem.Errands
import NvmeDem.Lemmas.Paired

/-!
# What requests and errands do to a target

A request that returns does to the record of a target what its errand does, up to the log pages that came in meanwhile
(`now_of_run`). One lemma for each request says so.
-/

namespace NvmeDem

open Jansson Keyed

/-! ## Log pages -/

def Subsystem.withoutLogs (subsys : Subsystem) : Subsystem := { subsys with logpageList := [] }

/-- A target without its log pages. -/
def Target.withoutLogs (target : Target) : Target :=
  { target with subsysList := target.subsysList.map Subsystem.withoutLogs }

theorem withoutLogs_onSubsys (target : Target) (nqn : String) {f : Subsystem → Subsystem}
    (hf : ∀ subsys, (f subsys).withoutLogs = subsys.withoutLogs) : (target.onSubsys nqn f).withoutLogs = target.withoutLogs := by
  simp only [Target.withoutLogs, Target.onSubsys, map_modifyFirst_same hf]

theorem withoutLogs_logEvent (target : Target) (e : LogEvent) : (target.logEvent e).withoutLogs = target.withoutLogs := by
  cases e with
  | invalidate =>
    simp only [Target.withoutLogs, Target.logEvent, List.map_map]
    rfl
  | fetch portid log =>
    unfold Target.logEvent
    induction log generalizing target with
    | nil => rfl
    | cons e log ih => exact (ih _).trans (withoutLogs_onSubsys target e.subnqn (fun _ => rfl))

theorem withoutLogs_logs (target : Target) (es : List LogEvent) :
    (es.foldl Target.logEvent target).withoutLogs = target.withoutLogs := by
  induction es generalizing target with
  | nil => rfl
  | cons e es ih => exact (ih _).trans (withoutLogs_logEvent target e)

theorem name_of_withoutLogs {t t' : Target} (h : t.withoutLogs = t'.withoutLogs) : t.name = t'.name := by
  have hname := congrArg Target.name h
  exact hname

theorem findTarget_withLogs (lists : Lists) (w : World) (name : String) :
    findTarget (lists.withLogs w) name = (findTarget lists name).map (fun t => (w.logs t.ptr).foldl Target.logEvent t) := by
  have hname : ∀ t : Target, ((w.logs t.ptr).foldl Target.logEvent t).name = t.name :=
    fun t => name_of_withoutLogs (withoutLogs_logs t _)
  simp only [findTarget, Lists.withLogs, List.find?_map, Function.comp_def, hname]

/-! ## Subsystems that are set -/

section

variable {subsys : Subsystem}

theorem nqn_configSubsys : (configSubsys subsys).nqn = subsys.nqn := by
  unfold configSubsys
  split <;> rfl

theorem nsList_configSubsys : (configSubsys subsys).nsList = subsys.nsList := by
  unfold configSubsys
  split <;> rfl

theorem isRestricted_configSubsys : (configSubsys subsys).isRestricted = subsys.isRestricted := by
  unfold configSubsys
  split <;> rfl

theorem isHidden_configSubsys : Push.isHidden (configSubsys subsys) = Push.isHidden subsys := by
  unfold configSubsys
  split
  · rfl
  · rename_i h
    simp only [Push.isHidden, Subsystem.isRestricted] at h ⊢
    simp [h]

theorem findSubsys_nqn {target : Target} {nqn : String} (h : findSubsys target nqn = some subsys) : subsys.nqn = nqn :=
  beq_iff_eq.mp (List.find?_some (p := fun s : Subsystem => s.nqn == nqn) h)

end

/-! ## Requests -/

section

variable {lists : Lists} {tgt name : String} {f : Target → Target} {target : Target}

/-- The record of a target is `g target` now, up to log pages. -/
def Now (lists : Lists) (name : String) (target : Target) : Prop :=
  ∃ target', findTarget lists name = some target' ∧ target'.withoutLogs = target.withoutLogs

theorem Now.refl (h : findTarget lists name = some target) : Now lists name target := ⟨target, h, rfl⟩

theorem Now.congr {t t' : Target} (h : Now lists name t) (heq : t.withoutLogs = t'.withoutLogs) : Now lists name t' := by
  obtain ⟨x, hx, hxt⟩ := h
  exact ⟨x, hx, hxt.trans heq⟩

theorem Now.withLogs (h : Now lists name target) (w : World) : Now (lists.withLogs w) name target := by
  obtain ⟨x, hx, hxt⟩ := h
  exact ⟨_, by rw [findTarget_withLogs, hx]; rfl, (withoutLogs_logs x _).trans hxt⟩

theorem findTarget_name (h : findTarget lists name = some target) : target.name = name :=
  beq_iff_eq.mp (List.find?_some (p := fun t : Target => t.name == name) h)

theorem Now.onTarget (hfind : findTarget lists name = some target) (hf : ∀ t, t.name = name → (f t).name = name) :
    Now (lists.onTarget name f) name (f target) := by
  refine ⟨f target, ?_, rfl⟩
  have hkeeps : ∀ t ∈ lists.targetList, (t.name == name) = true → ((f t).name == name) = true :=
    fun t _ h => beq_iff_eq.mpr (hf t (beq_iff_eq.mp h))
  exact (find?_modifyFirst hkeeps).trans (congrArg (Option.map f) hfind)

/-- Another target changed. -/
theorem Now.onOther (hfind : findTarget lists name = some target) (hne : tgt ≠ name) (hf : ∀ t, t.name = tgt → (f t).name = tgt) :
    Now (lists.onTarget tgt f) name target := by
  refine ⟨target, (find?_modifyFirst_of_not (fun t _ ht => ?_)).trans hfind, rfl⟩
  have ht : t.name = tgt := beq_iff_eq.mp ht
  exact ⟨by simp [ht, hne], by simp [hf t ht, hne]⟩

/-- The hosts are notified then. -/
theorem Now.toldOn (hfind : findTarget lists name = some target) (list : List EventNotification)
    (hf : ∀ t, t.name = name → (f t).name = name) : Now ((lists.onTarget name f).notify list) name (f target) :=
  Now.onTarget hfind hf

theorem Now.toldOnOther (hfind : findTarget lists name = some target) (hne : tgt ≠ name) (list : List EventNotification)
    (hf : ∀ t, t.name = tgt → (f t).name = tgt) : Now ((lists.onTarget tgt f).notify list) name target :=
  Now.onOther hfind hne hf

/-- And logs come in. -/
theorem Now.endOn (hfind : findTarget lists name = some target) (list : List EventNotification) (w : World)
    (hf : ∀ t, t.name = name → (f t).name = name) : Now (((lists.onTarget name f).notify list).withLogs w) name (f target) :=
  (Now.toldOn hfind list hf).withLogs w

theorem Now.endOnOther (hfind : findTarget lists name = some target) (hne : tgt ≠ name) (list : List EventNotification) (w : World)
    (hf : ∀ t, t.name = tgt → (f t).name = tgt) : Now (((lists.onTarget tgt f).notify list).withLogs w) name target :=
  (Now.toldOnOther hfind hne list hf).withLogs w

/-- All targets changed. -/
theorem Now.map (hfind : findTarget lists name = some target) (w : World) (hf : ∀ t : Target, (f t).name = t.name) :
    Now (Lists.withLogs { lists with targetList := lists.targetList.map f } w) name (f target) := by
  refine Now.withLogs ⟨f target, ?_, rfl⟩ w
  simp only [findTarget, List.find?_map, Function.comp_def, hf]
  exact congrArg (Option.map f) hfind

end

/-- The requests that have errands. -/
def Request.tells : Request → Bool
  | .setSubsys _ _ _ | .delSubsys _ _ | .setPortid _ _ _ | .delPortid _ _ | .linkHost _ _ _ _ | .unlinkHost _ _ _
  | .updateHost _ _ | .delHost _ | .delTarget _ => true
  | _ => false

/-- What an errand makes of the record of a target; without an errand it stays as it is. -/
def Errand.after (target : Target) (e : Option Errand) : Target := e.elim target (Errand.apply target)

section

variable {J : JsonLib} {w : World} {d : Daemon} {a : Answer} {name tgt nqn : String} {target : Target}

/-- A request on all targets. -/
theorem now_of_store {α : Type} {x : Except Fault (Reply α)} {k : Reply α → Except Fault Answer} {k' : Reply α → Errand}
    (hfind : findTarget d.lists name = some target) (h : afterStore d x k = .ok a)
    (hk : ∀ r, k r = .ok a → Now a.dem.lists name ((k' r).apply target)) :
    Now a.dem.lists name (Errand.after target (afterReply x k')) := by
  obtain ⟨r, rfl, ⟨hne, rfl⟩ | ⟨hz, hr⟩⟩ := afterStore_ok h
  · have hnone : afterReply (.ok r) k' = none := if_neg hne
    rw [hnone]
    exact Now.refl hfind
  · have hsome : afterReply (.ok r) k' = some (k' r) := if_pos hz
    rw [hsome]
    exact hk r hr

/-- A request on the target with an alias. -/
theorem now_of_store_on {α : Type} {x : Except Fault (Reply α)} {k : Reply α → Except Fault Answer} {k' : Reply α → Errand}
    (hfind : findTarget d.lists name = some target) (h : afterStore d x k = .ok a)
    (hself : tgt = name → ∀ r, k r = .ok a → Now a.dem.lists name ((k' r).apply target))
    (hother : tgt ≠ name → ∀ r, k r = .ok a → Now a.dem.lists name target) :
    Now a.dem.lists name (Errand.after target (if tgt = name then afterReply x k' else none)) := by
  by_cases htgt : tgt = name
  · rw [if_pos htgt]
    exact now_of_store hfind h (hself htgt)
  · rw [if_neg htgt]
    obtain ⟨r, -, ⟨-, rfl⟩ | ⟨-, hr⟩⟩ := afterStore_ok h
    · exact Now.refl hfind
    · exact hother htgt r hr

theorem onSubsys_of_not_found {f : Subsystem → Subsystem} (h : findSubsys target nqn = none) :
    target.onSubsys nqn f = target := by
  have hno : ∀ s ∈ target.subsysList, (s.nqn == nqn) = false := by
    simpa [findSubsys] using h
  rw [Target.onSubsys, modifyFirst_of_forall_not hno]

/-- An errand for a subsystem that the record does not have leaves the record. -/
theorem Now.of_not_found {lists : Lists} {f : Subsystem → Subsystem} (hfind : findTarget lists name = some target)
    (hs : findSubsys target nqn = none) : Now lists name (target.onSubsys nqn f) := by
  rw [onSubsys_of_not_found hs]
  exact Now.refl hfind

theorem now_setSubsys {sub : Option String} {data : String} (hfind : findTarget d.lists name = some target)
    (hr : setSubsys J w d tgt sub data = .ok a) :
    Now a.dem.lists name (Errand.after target ((Request.setSubsys tgt sub data).errand J w d.root name)) := by
  refine now_of_store_on hfind hr ?_ ?_
  · rintro rfl r hr
    simp only [hfind] at hr
    cases sub with
    | none =>
      cases hr
      exact Now.endOn hfind _ w (fun _ h => h)
    | some nqn =>
      cases hs : findSubsys target nqn with
      | none =>
        simp only [hs] at hr
        cases hr
        exact Now.of_not_found hfind hs
      | some subsys =>
        simp only [hs] at hr
        cases hr
        exact Now.endOn hfind _ w (fun _ h => h)
  · intro htgt r hr
    split at hr
    · cases hr
      exact Now.refl hfind
    · split at hr
      · cases hr
        exact Now.endOnOther hfind htgt _ w (fun _ h => h)
      · split at hr
        · cases hr
          exact Now.refl hfind
        · cases hr
          exact Now.endOnOther hfind htgt _ w (fun _ h => h)

theorem eraseP_of_not_found (h : findSubsys target nqn = none) :
    target.subsysList.eraseP (fun s => s.nqn == nqn) = target.subsysList := by
  have hno : ∀ s ∈ target.subsysList, ¬(s.nqn == nqn) = true := by
    simpa [findSubsys] using h
  exact List.eraseP_of_forall_not hno

theorem now_delSubsys (hfind : findTarget d.lists name = some target) (hr : delSubsys w d tgt nqn = .ok a) :
    Now a.dem.lists name (Errand.after target ((Request.delSubsys tgt nqn).errand J w d.root name)) := by
  refine now_of_store_on hfind hr ?_ ?_
  · rintro rfl r hr
    simp only [hfind] at hr
    cases hs : findSubsys target nqn with
    | none =>
      simp only [hs] at hr
      cases hr
      refine (Now.refl hfind).congr ?_
      simp only [Errand.apply, eraseP_of_not_found hs]
    | some subsys =>
      simp only [hs] at hr
      cases hr
      exact Now.endOn hfind _ w (fun _ h => h)
  · intro htgt r hr
    split at hr
    · cases hr
      exact Now.refl hfind
    · split at hr
      · cases hr
        exact Now.refl hfind
      · cases hr
        exact Now.endOnOther hfind htgt _ w (fun _ h => h)

theorem now_setPortid {id : Int} {data : String} (hfind : findTarget d.lists name = some target)
    (hr : setPortid J w d tgt id data = .ok a) :
    Now a.dem.lists name (Errand.after target ((Request.setPortid tgt id data).errand J w d.root name)) := by
  refine now_of_store_on hfind hr ?_ ?_
  · rintro rfl r hr
    simp only [hfind] at hr
    cases hr
    exact Now.endOn hfind _ w (fun t h => (name_setPortid _ _ _ t).trans h)
  · intro htgt r hr
    cases hother : findTarget d.lists tgt with
    | none =>
      simp only [hother] at hr
      cases hr
      exact Now.refl hfind
    | some other =>
      simp only [hother] at hr
      cases hr
      exact Now.endOnOther hfind htgt _ w (fun t h => (name_setPortid _ _ _ t).trans h)

/-- The log pages of a port that goes are taken off. -/
theorem now_delPortid {id : Int} (hfind : findTarget d.lists name = some target) (hr : delPortid w d tgt id = .ok a) :
    Now a.dem.lists name (Errand.after target ((Request.delPortid tgt id).errand J w d.root name)) := by
  refine now_of_store_on hfind hr ?_ ?_
  · rintro rfl r hr
    simp only [hfind] at hr
    cases hp : findPortid target id with
    | none =>
      simp only [hp] at hr
      cases hr
      have hno : ∀ p ∈ target.portidList, ¬(p.portid == id) = true := by
        simpa [findPortid] using hp
      refine (Now.refl hfind).congr ?_
      simp only [Errand.apply, List.eraseP_of_forall_not hno]
    | some portid =>
      simp only [hp] at hr
      cases hr
      have hname : target.name = tgt := findTarget_name hfind
      refine Now.congr (Now.toldOn hfind _ (fun _ _ => hname)) ?_
      simp only [Target.withoutLogs, Errand.apply, List.map_map]
      rfl
  · intro htgt r hr
    split at hr
    · cases hr
      exact Now.refl hfind
    · rename_i other hother
      split at hr
      · cases hr
        exact Now.refl hfind
      · cases hr
        have hname : other.name = tgt := findTarget_name hother
        exact Now.toldOnOther hfind htgt _ (fun _ _ => hname)

theorem now_linkHost {subnqn data : String} {host : Option String} (hfind : findTarget d.lists name = some target)
    (hr : linkHost J w d tgt subnqn host data = .ok a) :
    Now a.dem.lists name (Errand.after target ((Request.linkHost tgt subnqn host data).errand J w d.root name)) := by
  refine now_of_store_on hfind hr ?_ ?_
  · rintro rfl r hr
    simp only [hfind] at hr
    cases hs : findSubsys target subnqn with
    | none =>
      simp only [hs] at hr
      cases hr
      exact Now.of_not_found hfind hs
    | some subsys =>
      simp only [hs] at hr
      split at hr
      · cases hr
      · cases hr
        exact Now.endOn hfind _ w (fun _ h => h)
  · intro htgt r hr
    split at hr
    · cases hr
      exact Now.refl hfind
    · split at hr
      · cases hr
        exact Now.refl hfind
      · dsimp only at hr
        split at hr
        · cases hr
        · cases hr
          exact Now.endOnOther hfind htgt _ w (fun _ h => h)

theorem now_unlinkHost {subnqn host : String} (hfind : findTarget d.lists name = some target)
    (hr : unlinkHost w d tgt subnqn host = .ok a) :
    Now a.dem.lists name (Errand.after target ((Request.unlinkHost tgt subnqn host).errand J w d.root name)) := by
  refine now_of_store_on hfind hr ?_ ?_
  · rintro rfl r hr
    simp only [hfind] at hr
    cases hs : findSubsys target subnqn with
    | none =>
      simp only [hs] at hr
      cases hr
      exact Now.of_not_found hfind hs
    | some subsys =>
      simp only [hs] at hr
      cases hh : subsys.hostList.find? (fun h => h.name == host) with
      | none =>
        simp only [hh] at hr
        cases hr
        have hno : ∀ h ∈ subsys.hostList, ¬(h.name == host) = true := by simpa using hh
        refine (Now.refl hfind).congr ?_
        have hsame : ∀ s, findSubsys target subnqn = some s →
            ({ s with hostList := s.hostList.eraseP (fun h => h.name == host) } : Subsystem) = s := by
          intro s hs'
          obtain rfl := Option.some.inj (hs.symm.trans hs')
          rw [List.eraseP_of_forall_not hno]
        simp only [Errand.apply, Target.onSubsys, modifyFirst_of_find_same hsame]
      | some found =>
        simp only [hh] at hr
        cases hr
        have hname : target.name = tgt := findTarget_name hfind
        exact Now.endOn hfind _ w (fun _ _ => hname)
  · intro htgt r hr
    split at hr
    · cases hr
      exact Now.refl hfind
    · rename_i other hother
      have hname : other.name = tgt := findTarget_name hother
      split at hr
      · cases hr
        exact Now.refl hfind
      · split at hr
        · cases hr
          exact Now.refl hfind
        · cases hr
          exact Now.endOnOther hfind htgt _ w (fun _ _ => hname)

theorem now_updateHost {host : Option String} {data : String} (hfind : findTarget d.lists name = some target)
    (hr : updateHost J w d host data = .ok a) :
    Now a.dem.lists name (Errand.after target ((Request.updateHost host data).errand J w d.root name)) := by
  refine now_of_store hfind hr (fun r hr => ?_)
  cases hr
  exact Now.map hfind w (fun _ => rfl)

theorem now_delHost {host : Option String} (hfind : findTarget d.lists name = some target) (hr : delHost w d host = .ok a) :
    Now a.dem.lists name (Errand.after target ((Request.delHost host).errand J w d.root name)) := by
  refine now_of_store hfind hr (fun r hr => ?_)
  cases hr
  exact Now.map hfind w (fun _ => rfl)

/-- The target may be deleted only by its own errand. -/
theorem now_delTarget {host : Option String} (hfind : findTarget d.lists name = some target) (hr : delTarget d host = .ok a)
    (hstay : (Request.delTarget host).errand J w d.root name = none) : Now a.dem.lists name target := by
  obtain ⟨r, hx, ⟨-, rfl⟩ | ⟨hz, hr⟩⟩ := afterStore_ok hr
  · exact Now.refl hfind
  · have hne : cStr host ≠ name := by
      intro hname
      simp [Request.errand, hname, hx, afterReply, hz] at hstay
    split at hr
    · cases hr
      exact Now.refl hfind
    · cases hr
      have hother : ∀ t ∈ d.lists.targetList, (t.name == cStr host) = true → (t.name == name) = false := by
        intro t _ ht
        simp [beq_iff_eq.mp ht, hne]
      exact ⟨target, (find?_eraseP_of_not hother).trans hfind, rfl⟩

theorem afterReply_const {α : Type} (x : Except Fault (Reply α)) (e : Errand) :
    afterReply x (fun _ => e) = none ∨ afterReply x (fun _ => e) = some e := by
  unfold afterReply
  split
  · exact Or.inl rfl
  · split
    · exact Or.inr rfl
    · exact Or.inl rfl

/-- A request that returns does to the record of a target that stays what its errand does. -/
theorem now_of_run {req : Request} (hfind : findTarget d.lists name = some target) (hr : req.run J w d = .ok a)
    (htells : req.tells = true) (hstay : req.errand J w d.root name ≠ some .delTarget) :
    Now a.dem.lists name (Errand.after target (req.errand J w d.root name)) := by
  cases req with
  | setSubsys tgt sub data => exact now_setSubsys hfind hr
  | delSubsys tgt nqn => exact now_delSubsys hfind hr
  | setPortid tgt id data => exact now_setPortid hfind hr
  | delPortid tgt id => exact now_delPortid hfind hr
  | linkHost tgt subnqn host data => exact now_linkHost hfind hr
  | unlinkHost tgt subnqn host => exact now_unlinkHost hfind hr
  | updateHost host data => exact now_updateHost hfind hr
  | delHost host => exact now_delHost hfind hr
  | delTarget host =>
    have herrand : (Request.delTarget host).errand J w d.root name =
        if cStr host = name then afterReply (delJsonTarget d.root host) (fun _ => .delTarget) else none := rfl
    have hnone : (Request.delTarget host).errand J w d.root name = none := by
      rw [herrand] at hstay ⊢
      by_cases htgt : cStr host = name
      · rw [if_pos htgt] at hstay ⊢
        exact (afterReply_const _ _).resolve_right hstay
      · exact if_neg htgt
    rw [hnone]
    exact now_delTarget hfind hr hnone
  | _ => cases htells

theorem tells_of_errand {root : Json} {req : Request} {e : Errand} (h : req.errand J w root name = some e) : req.tells = true := by
  cases req <;> first | rfl | cases h

end

end NvmeDem
