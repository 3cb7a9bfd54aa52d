import NvmeDem.Lemmas.Configfs

/-!
# The directories show the configuration

An operation of the back end is meant to change the directories as its call changes the configuration. It does where its paths fit into
their buffers and it finds what it needs (`call_shows_iff`): it says that all is well, too, when the kernel did not take an attribute of a
new port or of a subsystem, could not open a device, or keeps a host that is still allowed somewhere. After any calls at all the
directories are in order (`wf_cfgfsRun`).
-/

namespace NvmeDem

open Nvmet Configfs Upsert

section

variable {k : Kernel} {t t' : Tree} {config : Finset Item} {call : OpsCall} {ret : Int}

/-! ## What a call leaves is in order -/

theorem wf_ite {c : Prop} [Decidable c] (h : Wf t) (h' : Wf t') : Wf (if c then t else t') := by
  split
  · exact h
  · exact h'

theorem wf_createPortid (h : Wf t) {portid : Int} {fam typ : String} {req : Int} {addr : String} {svcid : Int}
    (hr : Configfs.createPortid k t portid fam typ req addr svcid = .ok (ret, t')) : Wf t' := by
  have hmk : Wf (mkdir k t (.port (numName portid) k.fresh)).2 := h.mkdir rfl (fun _ he => by cases he)
  unfold Configfs.createPortid at hr
  split at hr
  · dsimp only at hr
    split at hr
    · cases hr
      exact hmk
    · cases hr
      exact wf_writeAttrs hmk _ _
  · cases hr
    exact h

theorem wf_createSubsys (h : Wf t) {subsys : String} {allowany : Int}
    (hr : Configfs.createSubsys k t subsys allowany = .ok (ret, t')) : Wf t' := by
  have hmk : Wf (mkdir k t (.subsys subsys false)).2 := h.mkdir rfl (fun _ he => by cases he)
  unfold Configfs.createSubsys at hr
  split at hr
  · cases hr
    exact wf_ite (hmk.writeAllowAny _ _) hmk
  · cases hr
    exact h

theorem wf_of_sprintf {path : String} {out : Except Fault (Int × Tree)} (hr : (sprintf path >>= fun _ => out) = .ok (ret, t'))
    (hout : out = .ok (ret, t') → Wf t') : Wf t' := by
  rw [sprintf_eq] at hr
  split at hr
  · exact hout hr
  · cases hr

theorem wf_createNs (h : Wf t) {subsys : String} {nsid devid devnsid : Int}
    (hr : Configfs.createNs k t subsys nsid devid devnsid = .ok (ret, t')) : Wf t' := by
  have hmk : Wf (mkdir k t (.ns subsys (toString nsid) "" false)).2 := h.mkdir rfl (fun _ he => by cases he)
  unfold Configfs.createNs at hr
  split at hr
  · refine wf_of_sprintf hr (fun hout => ?_)
    cases hout
    exact wf_ite ((hmk.writePath _ _ _).writeEnable _ _ _) hmk
  · cases hr
    exact h

theorem wf_deleteHostIn (h : Wf t) (host : String) : Wf (deleteHostIn t host) := h.rmdir _

theorem wf_foldlM {α : Type} {f : Tree → α → Except Fault Tree} {as : List α} (h : Wf t)
    (hf : ∀ t a t', Wf t → f t a = .ok t' → Wf t') (hr : as.foldlM f t = .ok t') : Wf t' := by
  induction as generalizing t with
  | nil =>
    cases hr
    exact h
  | cons a as ih =>
    rw [List.foldlM_cons] at hr
    cases ha : f t a with
    | error e =>
      rw [ha] at hr
      cases hr
    | ok t₁ =>
      rw [ha] at hr
      exact ih (hf t a t₁ h ha) hr

theorem wf_deleteSubsys (h : Wf t) {subsys : String} (hr : Configfs.deleteSubsys k t subsys = .ok (ret, t')) : Wf t' := by
  refine wf_of_sprintf hr (fun hout => ?_)
  cases hout
  split
  · exact wf_deleteSubsysIn h _
  · exact h

theorem wf_deletePortid (h : Wf t) {portid : Int} (hr : Configfs.deletePortid k t portid = .ok (ret, t')) : Wf t' := by
  cases hr
  split
  · exact wf_deletePortidIn h _
  · exact h

theorem wf_deleteHost (h : Wf t) {host : String} (hr : Configfs.deleteHost k t host = .ok (ret, t')) : Wf t' := by
  cases hr
  split
  · exact wf_deleteHostIn h _
  · exact h

theorem of_map_snd {x : Except Fault (Int × Tree)} (h : x.map Prod.snd = .ok t') : ∃ ret, x = .ok (ret, t') := by
  cases x with
  | error e => cases h
  | ok out =>
    cases h
    exact ⟨out.1, rfl⟩

theorem wf_resetConfig (h : Wf t) (hr : Configfs.resetConfig k t = .ok (ret, t')) : Wf t' := by
  unfold Configfs.resetConfig at hr
  by_cases hk : k.loaded = true
  · simp only [hk, Bool.not_true, Bool.false_eq_true, if_false] at hr
    cases h₁ : (t.filterMap Node.subsysName).foldlM (fun t nqn => (Configfs.deleteSubsys k t nqn).map Prod.snd) t with
    | error e =>
      rw [h₁] at hr
      cases hr
    | ok t₁ =>
      replace hr := (ok_bind h₁).symm.trans hr
      have hwf₁ : Wf t₁ := wf_foldlM h (fun t nqn t' ht hd => (of_map_snd hd).elim fun _ hd => wf_deleteSubsys ht hd) h₁
      cases h₂ : (t₁.filterMap Node.portName).foldlM
          (fun t (name : String) => (Configfs.deletePortid k t (atoi name.toList)).map Prod.snd) t₁ with
      | error e =>
        rw [h₂] at hr
        cases hr
      | ok t₂ =>
        replace hr := (ok_bind h₂).symm.trans hr
        have hwf₂ : Wf t₂ := wf_foldlM hwf₁ (fun t name t' ht hd => (of_map_snd hd).elim fun _ hd => wf_deletePortid ht hd) h₂
        cases h₃ : (t₂.filterMap Node.hostName).foldlM (fun t host => (Configfs.deleteHost k t host).map Prod.snd) t₂ with
        | error e =>
          rw [h₃] at hr
          cases hr
        | ok t₃ =>
          replace hr := (ok_bind h₃).symm.trans hr
          cases hr
          exact wf_foldlM hwf₂ (fun t host t' ht hd => (of_map_snd hd).elim fun _ hd => wf_deleteHost ht hd) h₃
  · simp only [hk] at hr
    cases hr
    exact h

/-- Whatever a call does, the directories stay in order. -/
theorem wf_cfgfsRun (h : Wf t) (hr : call.cfgfsRun k t = .ok (ret, t')) : Wf t' := by
  cases call with
  | resetConfig => exact wf_resetConfig h hr
  | createPortid portid fam typ req addr svcid => exact wf_createPortid h hr
  | deletePortid portid => exact wf_deletePortid h hr
  | createSubsys subsys allowany => exact wf_createSubsys h hr
  | deleteSubsys subsys => exact wf_deleteSubsys h hr
  | createNs subsys nsid devid devnsid => exact wf_createNs h hr
  | deleteNs subsys nsid =>
    have hr : Configfs.deleteNs k t subsys nsid = .ok (ret, t') := hr
    unfold Configfs.deleteNs at hr
    split at hr
    · refine wf_of_sprintf hr (fun hout => ?_)
      cases hout
      split
      · exact (h.writeEnable _ _ _).rmdir _
      · exact h
    · cases hr
      exact h
  | createHost host =>
    have hmk : Wf (mkdir k t (.host host)).2 := h.mkdir rfl (fun _ he => by cases he)
    have hr : Configfs.createHost k t host = .ok (ret, t') := hr
    unfold Configfs.createHost at hr
    split at hr
    · cases hr
      exact hmk
    · cases hr
      exact h
  | deleteHost host => exact wf_deleteHost h hr
  | linkHostToSubsys subsys host =>
    have hln : Wf (symlink k t (.allowed subsys host)).2 := h.symlink (by simp [Node.place, Place.target])
    have hr : Configfs.linkHostToSubsys k t subsys host = .ok (ret, t') := hr
    unfold Configfs.linkHostToSubsys at hr
    split at hr
    · refine wf_of_sprintf hr (fun hr => wf_of_sprintf hr (fun hout => ?_))
      cases hout
      exact hln
    · cases hr
      exact h
  | unlinkHostFromSubsys subsys host =>
    have hun : Wf (unlink t (.allowed subsys host)).2 := h.unlink (by simp [Place.target])
    have hr : Configfs.unlinkHostFromSubsys k t subsys host = .ok (ret, t') := hr
    unfold Configfs.unlinkHostFromSubsys at hr
    split at hr
    · refine wf_of_sprintf hr (fun hout => ?_)
      cases hout
      exact hun
    · cases hr
      exact h
  | linkPortToSubsys subsys portid =>
    have hln : Wf (symlink k t (.portLink (toString portid) subsys)).2 := h.symlink (by simp [Node.place, Place.target])
    have hr : Configfs.linkPortToSubsys k t subsys portid = .ok (ret, t') := hr
    unfold Configfs.linkPortToSubsys at hr
    split at hr
    · refine wf_of_sprintf hr (fun hr => wf_of_sprintf hr (fun hout => ?_))
      cases hout
      exact hln
    · cases hr
      exact h
  | unlinkPortFromSubsys subsys portid =>
    have hun : Wf (unlink t (.portLink (toString portid) subsys)).2 := h.unlink (by simp [Place.target])
    have hr : Configfs.unlinkPortFromSubsys k t subsys portid = .ok (ret, t') := hr
    unfold Configfs.unlinkPortFromSubsys at hr
    split at hr
    · refine wf_of_sprintf hr (fun hout => ?_)
      cases hout
      exact hun
    · cases hr
      exact h

/-! ## What a call does to what is shown -/

/-- Nothing that is taken away is held. -/
theorem made_delete_remove {d : Deleted} {p : Place} (hd : ∀ q, d.clears q = true ↔ q = p) : (Change.delete d).Made t (remove t p) := by
  intro x
  rw [mem_remove]
  refine and_congr_right fun _ => ?_
  rw [← Bool.not_eq_true, hd]

theorem made_delete_self {d : Deleted} {p : Place} (hd : ∀ q, d.clears q = true ↔ q = p) (hno : has t p = false) :
    (Change.delete d).Made t t := by
  have h := made_delete_remove (t := t) hd
  rwa [remove_of_not_has hno] at h

theorem goneOr_unlink (t : Tree) (p : Place) : goneOr (unlink t p) = (0, remove t p) := by
  unfold goneOr
  rw [unlink_snd]
  unfold unlink
  by_cases hhas : has t p = true
  · rw [if_pos hhas]
    rfl
  · rw [if_neg hhas]
    rfl

section

variable (h : Wf t) (hk : k.loaded = true)

include hk

theorem comes_deleteNs (subsys : String) (nsid : Int) :
    Comes (Configfs.deleteNs k t subsys nsid) t (.delete (.ns subsys nsid)) ↔ (OpsCall.deleteNs subsys nsid).PathsFit t := by
  have hd : ∀ q, (Deleted.ns subsys nsid).clears q = true ↔ q = .ns subsys (toString nsid) := by
    intro q
    cases q <;> simp [Deleted.clears]
  unfold Configfs.deleteNs OpsCall.PathsFit
  rw [if_pos hk, comes_sprintf, comes_ok, and_iff_right rfl]
  refine and_iff_left ?_
  by_cases hhas : has t (.ns subsys (toString nsid)) = true
  · rw [if_pos hhas, rmdir_writeEnable]
    exact made_delete_remove hd
  · rw [if_neg hhas]
    exact made_delete_self hd (Bool.eq_false_iff.mpr hhas)

include h

theorem comes_deleteHost (host : String) :
    Comes (Configfs.deleteHost k t host) t (.delete (.host host)) ↔ (OpsCall.deleteHost host).TakesEffect k t := by
  have hd : ∀ q, (Deleted.host host).clears q = true ↔ q = .host host := by
    intro q
    cases q <;> simp [Deleted.clears]
  unfold Configfs.deleteHost OpsCall.TakesEffect
  rw [if_pos hk, comes_ok, and_iff_right rfl]
  by_cases hlink : ∃ nqn, Node.allowed nqn host ∈ t
  · obtain ⟨nqn, hl⟩ := hlink
    rw [deleteHostIn_of_linked hl]
    refine iff_of_false (fun hm => ?_) (fun hno => hno nqn hl)
    have hgone := ((hm _).mp (has_host_iff.mp (h.target _ hl _ rfl))).2
    simp [Node.place, Deleted.clears] at hgone
  · have hno : ∀ nqn, Node.allowed nqn host ∉ t := fun nqn hl => hlink ⟨nqn, hl⟩
    rw [deleteHostIn_of_free hno]
    exact iff_of_true (made_delete_remove hd) hno

/-- A reset that goes through leaves nothing but the ports that it does not find. -/
theorem comes_resetConfig :
    Comes (Configfs.resetConfig k t) t .reset ↔ OpsCall.resetConfig.PathsFit t ∧ OpsCall.resetConfig.TakesEffect k t := by
  by_cases hp : OpsCall.resetConfig.PathsFit t
  · obtain ⟨t', hrun, hmem⟩ := resetConfig_mem h hk hp
    rw [hrun, comes_ok, and_iff_right rfl, and_iff_right hp]
    show t' = [] ↔ ∀ node ∈ t, node.stray = false
    rw [List.eq_nil_iff_forall_not_mem]
    refine forall_congr' fun x => ?_
    rw [hmem, not_and, Bool.not_eq_true]
  · refine iff_of_false ?_ (fun hr => hp hr.1)
    rintro ⟨t', hrun, -⟩
    have hbad : ∃ nqn ∈ t.filterMap Node.subsysName, ¬PathFits (cfsPath ++ cfsSubsys ++ nqn) := by
      simp only [OpsCall.PathsFit, not_forall, exists_prop] at hp
      exact hp
    have hfault : (t.filterMap Node.subsysName).foldlM (fun t nqn => (Configfs.deleteSubsys k t nqn).map Prod.snd) t =
        .error .outOfBounds := by
      refine foldlM_error t (fun t nqn _ => ?_) ?_
      · by_cases hfit : PathFits (cfsPath ++ cfsSubsys ++ nqn)
        · refine Or.inr ⟨deleteSubsysIn k t nqn, ?_⟩
          simp only [Configfs.deleteSubsys, sprintf_eq, if_pos hfit, hk, if_true]
          rfl
        · refine Or.inl ?_
          simp only [Configfs.deleteSubsys, sprintf_eq, if_neg hfit]
          rfl
      · obtain ⟨nqn, hin, hlong⟩ := hbad
        refine ⟨nqn, hin, fun t => ?_⟩
        simp only [Configfs.deleteSubsys, sprintf_eq, if_neg hlong]
        rfl
    unfold Configfs.resetConfig at hrun
    simp only [hk, Bool.not_true, Bool.false_eq_true, if_false] at hrun
    rw [hfault] at hrun
    cases hrun

/-- A call ends well and makes its change if its paths fit and it finds what it needs. -/
theorem comes_iff (hname : call.Named) : Comes (call.cfgfsRun k t) t call.change ↔ call.PathsFit t ∧ call.TakesEffect k t := by
  cases call with
  | resetConfig => exact comes_resetConfig h hk
  | createPortid portid fam typ req addr svcid =>
    exact (comes_createPortid h hk fam typ req addr svcid hname).trans (and_iff_right trivial).symm
  | deletePortid portid =>
    refine iff_of_true ⟨_, rfl, ?_⟩ ⟨trivial, trivial⟩
    rw [if_pos hk]
    exact fun x => mem_deletePortidIn h portid
  | createSubsys subsys allowany => exact (comes_createSubsys h hk subsys allowany).trans (and_iff_right trivial).symm
  | deleteSubsys subsys =>
    refine Iff.trans comes_sprintf (and_congr_right fun _ => ?_)
    refine comes_ok.trans (iff_of_true ⟨rfl, ?_⟩ trivial)
    rw [if_pos hk]
    exact fun x => mem_deleteSubsysIn h
  | createNs subsys nsid devid devnsid => exact comes_createNs h hk subsys nsid devid devnsid
  | deleteNs subsys nsid => exact (comes_deleteNs hk subsys nsid).trans (and_iff_left trivial).symm
  | createHost host => exact (comes_createHost h hk host).trans (and_iff_right trivial).symm
  | deleteHost host => exact (comes_deleteHost h hk host).trans (and_iff_right trivial).symm
  | linkHostToSubsys subsys host => exact comes_linkHostToSubsys h hk subsys host
  | unlinkHostFromSubsys subsys host =>
    show Comes (Configfs.unlinkHostFromSubsys k t subsys host) _ _ ↔ _
    unfold Configfs.unlinkHostFromSubsys
    rw [if_pos hk, comes_sprintf, goneOr_unlink, comes_ok]
    refine and_congr_right fun _ => iff_of_true ⟨rfl, made_delete_remove (fun q => ?_)⟩ trivial
    cases q <;> simp [Deleted.clears]
  | linkPortToSubsys subsys portid => exact comes_linkPortToSubsys h hk subsys portid
  | unlinkPortFromSubsys subsys portid =>
    show Comes (Configfs.unlinkPortFromSubsys k t subsys portid) _ _ ↔ _
    unfold Configfs.unlinkPortFromSubsys
    rw [if_pos hk, comes_sprintf, goneOr_unlink, comes_ok]
    refine and_congr_right fun _ => iff_of_true ⟨rfl, made_delete_remove (fun q => ?_)⟩ trivial
    cases q <;> simp [Deleted.clears, and_comm]

end

end

end NvmeDem
