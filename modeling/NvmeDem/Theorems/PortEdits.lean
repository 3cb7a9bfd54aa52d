import NvmeDem.Lemmas.BackEnds
import NvmeDem.Lemmas.SpdkPorts

/-!
# Editing a port of an SPDK-backed manager

The daemon tells an edit of a port as unlinking it everywhere, deleting it if it gets another number, creating it and linking it
again. The SPDK back end refuses to create a port that is there, so that an edit under the same number unlinks the port and leaves
it as it was (`edit_without_effect`). An edit that gives the port a number of its own takes effect, if the values fit and no other
port has the address (`edit_takes_effect_iff`).
-/

namespace NvmeDem.Spdk

open Link Push

variable {w : Wire} {net : Nat → Int} {target : Target} {id : Int} {new old : NvmeDem.Portid} {p : Portid} {s₀ s : State}

/-! ## A manager in step -/

/-- The address of a port of the daemon. -/
def addressOf (portid : NvmeDem.Portid) : Listener where
  trtype := portid.type
  adrfam := portid.family
  traddr := portid.address
  trsvcid := toString portid.portNum

/-- A port of the back end is one of the daemon. -/
structure Portid.Is (p : Portid) (q : NvmeDem.Portid) : Prop where
  portid : p.portid = q.portid
  listener : p.listener = addressOf q

/-- The manager has the ports and the subsystems of the record of the target, and the links that the daemon allows. -/
structure InStep (target : Target) (s : State) : Prop where
  sound : Sound s
  ids : (target.portidList.map NvmeDem.Portid.portid).Nodup
  ports : ∀ portid ∈ target.portidList, ∃ p ∈ s.portidList, p.Is portid
  known : ∀ p ∈ s.portidList, ∃ portid ∈ target.portidList, p.Is portid
  subsystems : ∀ nqn, s.findSubsys nqn ≠ none ↔ ∃ subsys ∈ target.subsysList, subsys.nqn = nqn
  links : ∀ subsys ∈ target.subsysList, ∀ sub, s.findSubsys subsys.nqn = some sub → ∀ p ∈ s.portidList,
    p.ptr ∈ sub.portidList ↔ isHidden subsys = false

/-- The manager has the port, linked to every subsystem that the daemon links to a port. -/
def TakesEffect (target : Target) (portid : NvmeDem.Portid) (s : State) : Prop :=
  ∃ p, s.findPortid portid.portid = some p ∧ p.Is portid ∧ ∀ subsys ∈ target.subsysList, isHidden subsys = false →
    (∃ sub, s.findSubsys subsys.nqn = some sub ∧ p.ptr ∈ sub.portidList) ∧ s.Listens subsys.nqn p

/-- The values of a port fit the fields of the back end. -/
structure Fits (portid : NvmeDem.Portid) : Prop where
  family : portid.family.length ≤ configFamilySize
  type : portid.type.length ≤ configTypeSize
  address : portid.address.length ≤ configAddressSize
  port : (toString portid.portNum).length ≤ configPortSize

/-- The port `id` gets a number that no port has, and an address that none of the others has, unless nothing is linked. -/
structure Renumbered (target : Target) (id : Int) (portid : NvmeDem.Portid) : Prop where
  free : ∀ q ∈ target.portidList, q.portid ≠ portid.portid
  fits : Fits portid
  own : ∀ subsys ∈ target.subsysList, isHidden subsys = false → ∀ q ∈ target.portidList, q.portid ≠ id →
    addressOf q ≠ addressOf portid

/-- Another port has the number and the address already. -/
def IsThere (target : Target) (portid : NvmeDem.Portid) : Prop :=
  ∃ q ∈ target.portidList, q.portid = portid.portid ∧ addressOf q = addressOf portid

/-- A port of a target in step is edited: the records of the daemon before and after, and the port of the manager. -/
structure Edit (w : Wire) (net : Nat → Int) (target : Target) (id : Int) (new old : NvmeDem.Portid) (p : Portid) (s₀ : State) :
    Prop where
  wire : ∀ n, w.net n = 0
  net : ∀ n, net n = 0
  arrive : ∀ msg ∈ (setPortidScript target id new).messages, msg.Arrives w target
  inStep : InStep target s₀
  find : NvmeDem.findPortid target id = some old
  port : p ∈ s₀.portidList
  is : p.Is old

namespace Edit

variable (h : Edit w net target id new old p s₀)

include h

theorem old_mem : old ∈ target.portidList := List.mem_of_find?_eq_some h.find

theorem old_portid : old.portid = id := by
  have hid := List.find?_some h.find
  exact beq_iff_eq.mp hid

/-- The ports of the target have distinct numbers. -/
theorem eq_of_portid {q q' : NvmeDem.Portid} (hq : q ∈ target.portidList) (hq' : q' ∈ target.portidList)
    (heq : q.portid = q'.portid) : q = q' := List.inj_on_of_nodup_map h.inStep.ids hq hq' heq

theorem findPortid : s₀.findPortid id = some p := by
  rw [← h.old_portid, ← h.is.portid]
  exact h.inStep.sound.tables.findPortid h.port

theorem alone : Alone s₀ p := by
  intro nqn sub hs ptr hptr q hq heq
  obtain ⟨subsys, hsubsys, rfl⟩ := (h.inStep.subsystems nqn).mp (by rw [hs]; exact Option.some_ne_none sub)
  obtain ⟨provided, -, ha⟩ := h.inStep.sound.mirrors.agrees hs
  have hqmem := portAt_mem hq
  have hvisible := (h.inStep.links subsys hsubsys sub hs q hqmem).mp (by rw [portAt_ptr hq]; exact hptr)
  have hlinked := (h.inStep.links subsys hsubsys sub hs p h.port).mpr hvisible
  exact ha.distinct ptr hptr p.ptr hlinked q p hq (h.inStep.sound.tables.portAt h.port) heq

theorem findSubsys_ne_none {subsys : Subsystem} (hs : subsys ∈ target.subsysList) : s₀.findSubsys subsys.nqn ≠ none :=
  (h.inStep.subsystems subsys.nqn).mpr ⟨subsys, hs, rfl⟩

end Edit

/-! ## The port is taken away -/

/-- What is left of a manager when a port was taken away. -/
structure Gone (p : Portid) (s₀ s : State) : Prop where
  sound : Sound s
  portidList : s.portidList = s₀.portidList.eraseP (fun q => q.ptr == p.ptr)
  find : ∀ x, s.findSubsys x = (s₀.findSubsys x).map (Subsys.unlink p.ptr)

/-- How the daemon sends to a manager with SPDK. -/
abbrev sendTo (w : Wire) (net : Nat → Int) (target : Target) (msg : Message) : Prog Fault State :=
  sendMessageTo (OpsCall.spdkRun net) w target msg

theorem unlinkPort_call (mode : MgmtMode) (subsys : Subsystem) (q : NvmeDem.Portid) :
    (Message.unlinkPort subsys q).call mode = .unlinkPortFromSubsys subsys.nqn q.portid := by cases mode <;> rfl

theorem delPort_call (mode : MgmtMode) (q : NvmeDem.Portid) : (Message.delPort q).call mode = .deletePortid q.portid := by
  cases mode <;> rfl

theorem linkPort_call (mode : MgmtMode) (subsys : Subsystem) (q : NvmeDem.Portid) :
    (Message.linkPort subsys q).call mode = .linkPortToSubsys subsys.nqn q.portid := by cases mode <;> rfl

theorem setPort_call (mode : MgmtMode) (q : NvmeDem.Portid) :
    ∃ req : Int, (Message.setPort q).call mode = .createPortid q.portid q.family q.type req q.address q.portNum := by
  cases mode with
  | outOfBandMgmt => exact ⟨0, rfl⟩
  | inBandMgmt => exact ⟨_, rfl⟩
  | localMgmt => exact ⟨_, rfl⟩

theorem sendLinkPortid_hidden {subsys : Subsystem} (h : isHidden subsys = true) : sendLinkPortid subsys new = .done := by
  unfold sendLinkPortid
  rw [if_pos h]

theorem sendLinkPortid_visible {subsys : Subsystem} (h : isHidden subsys = false) :
    sendLinkPortid subsys new = .send (.linkPort subsys new) := by
  unfold sendLinkPortid
  rw [if_neg (by rw [h]; exact Bool.false_ne_true)]

theorem mem_setPort : Message.setPort new ∈ (setPortidScript target id new).messages := by
  simp only [setPortidScript, Script.messages_regardless, Script.messages_andThen, Script.messages_send]
  exact List.mem_append_right _ (List.mem_append_right _ (List.mem_append_left _ (List.mem_singleton_self _)))

theorem mem_linkPort {subsys : Subsystem} (hs : subsys ∈ target.subsysList) (hvisible : isHidden subsys = false) :
    Message.linkPort subsys new ∈ (setPortidScript target id new).messages := by
  simp only [setPortidScript, Script.messages_regardless, Script.messages_andThen, Script.messages_eachRegardless]
  refine List.mem_append_right _ (List.mem_append_right _ (List.mem_append_right _ (List.mem_flatMap.mpr ⟨subsys, hs, ?_⟩)))
  rw [sendLinkPortid_visible hvisible]
  exact List.mem_singleton_self _

namespace Edit

variable (h : Edit w net target id new old p s₀)

include h

theorem total_unlink :
    Total ((Script.eachRegardless (fun subsys => .send (.unlinkPort subsys { new with portid := id })) target.subsysList).run
      (sendTo w net target)) (fun far => far = s₀) (fun _ => Unlinked p (target.subsysList.map Subsystem.nqn) s₀) := by
  rw [Script.run_eachRegardless]
  refine (Total.eachRegardless (I := fun subs => Unlinked p (subs.map Subsystem.nqn) s₀) target.subsysList ?_).conseq
    ?_ (fun _ _ hu => hu)
  · intro subs subsys rest heq
    have hmem : subsys ∈ target.subsysList := by rw [heq]; exact List.mem_append_right _ List.mem_cons_self
    obtain ⟨sub, hsub⟩ := Option.ne_none_iff_exists'.mp (h.findSubsys_ne_none hmem)
    refine total_sendMessageTo h.wire (h.arrive _ ?_) (fun far hfar => ?_)
    · simp only [setPortidScript, Script.messages_regardless, Script.messages_eachRegardless, Script.messages_send]
      exact List.mem_append_left _ (List.mem_flatMap.mpr ⟨subsys, hmem, List.mem_singleton_self _⟩)
    · obtain ⟨hnext, hrefused⟩ := Unlinked.step h.net h.inStep.sound hfar h.findPortid hsub h.alone
      rw [unlinkPort_call, List.map_append, List.map_singleton]
      exact ⟨_, _, rfl, fun _ => hnext, fun hne => ⟨hrefused hne, fun _ _ => hnext⟩⟩
  · rintro far rfl
    exact Unlinked.refl p h.inStep.sound

theorem total_del (hne : new.portid ≠ id) :
    Total (sendTo w net target (.delPort { new with portid := id })) (Unlinked p (target.subsysList.map Subsystem.nqn) s₀)
      (fun _ => Gone p s₀) := by
  refine total_sendMessageTo h.wire (h.arrive _ ?_) (fun far hfar => ?_)
  · simp only [setPortidScript, if_pos hne, Script.messages_regardless, Script.messages_send]
    exact List.mem_append_right _ (List.mem_append_left _ (List.mem_singleton_self _))
  · have hall : ∀ x, s₀.findSubsys x ≠ none → x ∈ target.subsysList.map Subsystem.nqn := by
      intro x hx
      exact List.mem_map.mpr ((h.inStep.subsystems x).mp hx)
    obtain ⟨hsound, hports, hfind⟩ := hfar.delete h.net h.inStep.sound h.findPortid h.alone hall
    have hzero : (spdkDeletePortid net id far).1 = 0 := by
      unfold spdkDeletePortid
      cases far.findPortid id <;> rfl
    rw [delPort_call]
    exact ⟨_, _, rfl, fun _ => ⟨hsound, hports, hfind⟩, fun hret => absurd hzero hret⟩

end Edit

/-! ## The port is created -/

/-- A number that is taken is refused. -/
theorem createPortid_taken {fam typ addr : String} {req svcid : Int} (h : (s.findPortid id).isSome) :
    OpsCall.spdkRun net s (.createPortid id fam typ req addr svcid) = .ok (-eexist, s) := if_pos h

variable (net) in
theorem createPortid_free (req : Int) (hfree : s.findPortid new.portid = none) (hfits : Fits new) :
    ∃ q : Portid, q.ptr = s.next ∧ q.Is new ∧
      OpsCall.spdkRun net s (.createPortid new.portid new.family new.type req new.address new.portNum) =
        .ok (0, { s with portidList := q :: s.portidList, next := s.next + 1 }) := by
  refine ⟨{ ptr := s.next, portid := new.portid, type := new.type, family := new.family, address := new.address
            port := toString new.portNum }, rfl, ⟨rfl, rfl⟩, ?_⟩
  show spdkCreatePortid new.portid new.family new.type req new.address new.portNum s = _
  unfold spdkCreatePortid
  rw [hfree, strcpy_of_le hfits.family, strcpy_of_le hfits.type, strcpy_of_le hfits.address, strcpy_of_le hfits.port]
  rfl

/-- A value that does not fit is written behind its field. -/
theorem createPortid_unfit {req : Int} (hfree : s.findPortid new.portid = none) (hfits : ¬Fits new) :
    ∃ f, OpsCall.spdkRun net s (.createPortid new.portid new.family new.type req new.address new.portNum) = .error f := by
  show ∃ f, spdkCreatePortid new.portid new.family new.type req new.address new.portNum s = .error f
  unfold spdkCreatePortid
  rw [hfree]
  by_cases hfam : new.family.length ≤ configFamilySize
  · by_cases htyp : new.type.length ≤ configTypeSize
    · by_cases haddr : new.address.length ≤ configAddressSize
      · have hport : ¬(toString new.portNum).length ≤ configPortSize := fun hport => hfits ⟨hfam, htyp, haddr, hport⟩
        refine ⟨.outOfBounds, ?_⟩
        rw [strcpy_of_le hfam, strcpy_of_le htyp, strcpy_of_le haddr, strcpy, if_neg hport]
        rfl
      · refine ⟨.outOfBounds, ?_⟩
        rw [strcpy_of_le hfam, strcpy_of_le htyp, strcpy, if_neg haddr]
        rfl
    · refine ⟨.outOfBounds, ?_⟩
      rw [strcpy_of_le hfam, strcpy, if_neg htyp]
      rfl
  · refine ⟨.outOfBounds, ?_⟩
    rw [strcpy, if_neg hfam]
    rfl

/-- A manager after a port was taken away (`s₂`) and another created. -/
structure Created (new : NvmeDem.Portid) (p : Portid) (s₀ : State) (q : Portid) (s₂ s : State) : Prop where
  gone : Gone p s₀ s₂
  ptr : q.ptr = s₂.next
  is : q.Is new
  free : s₂.findPortid new.portid = none
  eq : s = { s₂ with portidList := q :: s₂.portidList, next := s₂.next + 1 }

namespace Created

variable {q : Portid} {s₂ : State} (h : Created new p s₀ q s₂ s)

include h

theorem sound : Sound s := by
  rw [h.eq]
  exact ⟨h.gone.sound.tables.createPortid (h.is.portid ▸ h.free) h.ptr, mirrors_createPortid h.gone.sound.tables h.gone.sound.mirrors h.ptr⟩

theorem find (x : String) : s.findSubsys x = (s₀.findSubsys x).map (Subsys.unlink p.ptr) := by
  rw [h.eq]
  exact h.gone.find x

theorem findPortid : s.findPortid new.portid = some q := by
  rw [h.eq]
  exact List.find?_cons_of_pos (beq_iff_eq.mpr h.is.portid)

theorem fresh {x : String} {sub : Subsys} (hs : s.findSubsys x = some sub) : q.ptr ∉ sub.portidList := by
  intro hq
  rw [h.eq] at hs
  have hlt := (h.gone.sound.tables.listed sub (findSubsys_mem hs)).bound q.ptr hq
  rw [h.ptr] at hlt
  exact Nat.lt_irrefl _ hlt

/-- A subsystem that is linked to a port with its address is not linked to it. -/
theorem not_takesEffect {q' : Portid} {s' : State} {subsys : Subsystem} (hs : subsys ∈ target.subsysList)
    (hvisible : isHidden subsys = false) (hb : Blocked q q' subsys.nqn s s') : ¬TakesEffect target new s' := by
  rintro ⟨q₁, hq₁, -, hlinks⟩
  rw [findPortid_of_eq hb.portidList, h.findPortid] at hq₁
  cases hq₁
  obtain ⟨⟨sub, hsub, hlinked⟩, -⟩ := hlinks subsys hs hvisible
  obtain ⟨sub', hsub', -, hnot⟩ := hb.linked
  rw [hsub] at hsub'
  cases hsub'
  exact hnot hlinked

end Created

namespace Edit

variable (h : Edit w net target id new old p s₀)

include h

/-- The ports that are left are those of the other ports of the target. -/
theorem mem_gone_iff (hg : Gone p s₀ s) {q : Portid} : q ∈ s.portidList ↔ q ∈ s₀.portidList ∧ q.ptr ≠ p.ptr := by
  rw [hg.portidList]
  constructor
  · exact Keyed.mem_eraseP_of_nodup h.inStep.sound.tables.ptrs
  · rintro ⟨hq, hne⟩
    exact (List.mem_eraseP_of_neg (by simpa using hne)).mpr hq

/-- The port of the manager for another port of the target. -/
theorem other {r : NvmeDem.Portid} (hr : r ∈ target.portidList) (hne : r.portid ≠ id) (hg : Gone p s₀ s) :
    ∃ q ∈ s.portidList, q.Is r := by
  obtain ⟨q, hq, his⟩ := h.inStep.ports r hr
  refine ⟨q, (h.mem_gone_iff hg).mpr ⟨hq, fun hptr => hne ?_⟩, his⟩
  have heq : q = p := List.inj_on_of_nodup_map h.inStep.sound.tables.ptrs hq h.port hptr
  rw [← his.portid, heq, h.is.portid, h.old_portid]

/-- Another port of the manager is for another port of the target. -/
theorem other_of_mem (hg : Gone p s₀ s) {q : Portid} (hq : q ∈ s.portidList) :
    ∃ r ∈ target.portidList, q.Is r ∧ r.portid ≠ id := by
  obtain ⟨hq₀, hne⟩ := (h.mem_gone_iff hg).mp hq
  obtain ⟨r, hr, his⟩ := h.inStep.known q hq₀
  refine ⟨r, hr, his, fun hid => hne ?_⟩
  have hids : q.portid = p.portid := by rw [his.portid, hid, h.is.portid, h.old_portid]
  rw [List.inj_on_of_nodup_map h.inStep.sound.tables.ids hq₀ h.port hids]

theorem findPortid_gone (hg : Gone p s₀ s) (hfree : ∀ q ∈ target.portidList, q.portid ≠ new.portid) :
    s.findPortid new.portid = none := by
  refine List.find?_eq_none.mpr (fun q hq heq => ?_)
  obtain ⟨r, hr, his, -⟩ := h.other_of_mem hg hq
  exact hfree r hr (by rw [← his.portid]; exact beq_iff_eq.mp heq)

/-- After a creation that is refused nothing more is told. -/
theorem total_taken (links : Script Message) {A : State → Prop} (hA : ∀ far, A far → (far.findPortid new.portid).isSome) :
    Total ((Script.andThen (.send (.setPort new)) links).run (sendTo w net target)) A (fun _ => A) := by
  obtain ⟨req, hcall⟩ := setPort_call target.mgmtMode new
  refine Total.andThen (R := fun ret far => ret ≠ 0 ∧ A far) ?_ (fun s hs => absurd rfl hs.1) (fun ret far _ hR => hR.2)
  refine total_sendMessageTo h.wire (h.arrive _ mem_setPort) (fun far hfar => ?_)
  rw [hcall]
  have hne : -eexist ≠ 0 := by decide
  exact ⟨_, _, createPortid_taken (hA far hfar), fun h0 => absurd h0 hne, fun _ => ⟨hfar, fun r hr => ⟨hr, hfar⟩⟩⟩

theorem faults_unfit (links : Script Message) (hfree : ∀ q ∈ target.portidList, q.portid ≠ new.portid) (hfits : ¬Fits new) :
    Faults ((Script.andThen (.send (.setPort new)) links).run (sendTo w net target)) (Gone p s₀) := by
  obtain ⟨req, hcall⟩ := setPort_call target.mgmtMode new
  refine Faults.andThen (faults_sendMessageTo h.wire (h.arrive _ mem_setPort) (fun far hfar => ?_))
  rw [hcall]
  exact createPortid_unfit (h.findPortid_gone hfar hfree) hfits

theorem total_created (links : Script Message) {Q : Int → State → Prop}
    (hfree : ∀ q ∈ target.portidList, q.portid ≠ new.portid) (hfits : Fits new)
    (hlinks : ∀ q s₂ s₃, Created new p s₀ q s₂ s₃ → Total (links.run (sendTo w net target)) (fun far => far = s₃) Q) :
    Total ((Script.andThen (.send (.setPort new)) links).run (sendTo w net target)) (Gone p s₀) Q := by
  obtain ⟨req, hcall⟩ := setPort_call target.mgmtMode new
  refine Total.andThen (R := fun ret far => ret = 0 ∧ ∃ (q : Portid) (s₂ : State), Created new p s₀ q s₂ far) ?_ ?_
    (fun ret far hne hR => absurd hR.1 hne)
  · refine total_sendMessageTo h.wire (h.arrive _ mem_setPort) (fun far hfar => ?_)
    have hnone := h.findPortid_gone hfar hfree
    obtain ⟨q, hptr, his, hrun⟩ := createPortid_free net req hnone hfits
    rw [hcall]
    exact ⟨_, _, hrun, fun _ => ⟨rfl, q, far, hfar, hptr, his, hnone, rfl⟩, fun hne => absurd rfl hne⟩
  · rintro s ⟨-, q, s₂, hcreated⟩
    exact hlinks q s₂ s.far hcreated s rfl

/-! ### Linking again -/

section

variable {q : Portid} {s₂ s₃ : State} (hc : Created new p s₀ q s₂ s₃)

include hc

/-- The subsystems of the target are still there. -/
theorem exists_sub {subsys : Subsystem} (hs : subsys ∈ target.subsysList) :
    ∃ sub₀, s₀.findSubsys subsys.nqn = some sub₀ ∧ s₃.findSubsys subsys.nqn = some (sub₀.unlink p.ptr) := by
  obtain ⟨sub₀, hsub⟩ := Option.ne_none_iff_exists'.mp (h.findSubsys_ne_none hs)
  exact ⟨sub₀, hsub, by rw [hc.find, hsub]; rfl⟩

/-- Where the address is the port's own it is linked to every subsystem that is not hidden. -/
theorem total_links (hown : ∀ subsys ∈ target.subsysList, isHidden subsys = false → ∀ r ∈ target.portidList, r.portid ≠ id →
      addressOf r ≠ addressOf new) :
    Total ((Script.eachRegardless (fun subsys => sendLinkPortid subsys new) target.subsysList).run (sendTo w net target))
      (fun far => far = s₃)
      (fun _ => Linked q ((target.subsysList.filter (fun subsys => !isHidden subsys)).map Subsystem.nqn) s₃) := by
  rw [Script.run_eachRegardless]
  refine (Total.eachRegardless
    (I := fun subs => Linked q ((subs.filter (fun subsys => !isHidden subsys)).map Subsystem.nqn) s₃)
    target.subsysList ?_).conseq ?_ (fun _ _ hu => hu)
  · intro subs subsys rest heq
    have hmem : subsys ∈ target.subsysList := by rw [heq]; exact List.mem_append_right _ List.mem_cons_self
    rw [List.filter_append, List.map_append]
    cases hidden : isHidden subsys with
    | true =>
      have hnone : [subsys].filter (fun subsys => !isHidden subsys) = [] := by simp [hidden]
      rw [sendLinkPortid_hidden hidden, hnone, List.map_nil, List.append_nil]
      exact Total.done
    | false =>
      have hone : [subsys].filter (fun subsys => !isHidden subsys) = [subsys] := by simp [hidden]
      rw [sendLinkPortid_visible hidden, hone, List.map_singleton]
      refine total_sendMessageTo h.wire (h.arrive _ (mem_linkPort hmem hidden)) (fun far hfar => ?_)
      obtain ⟨sub₀, -, hsub⟩ := h.exists_sub hc hmem
      have halone : ∀ q' ∈ s₃.portidList, q'.listener = q.listener → q' = q := by
        intro q' hq' heq'
        rw [hc.eq] at hq'
        obtain hq' | hq' := List.mem_cons.mp hq'
        · exact hq'
        · obtain ⟨r, hr, his, hne⟩ := h.other_of_mem hc.gone hq'
          exact absurd (by rw [← his.listener, heq', hc.is.listener]) (hown subsys hmem hidden r hr hne)
      obtain ⟨hzero, hnext⟩ := hfar.step h.net hc.findPortid hsub (hc.fresh hsub) halone
      rw [linkPort_call]
      exact ⟨_, _, rfl, fun _ => hnext, fun hne => absurd hzero hne⟩
  · rintro far rfl
    exact Linked.refl q hc.sound

/-- A subsystem that is linked to a port with the address stays so. -/
theorem total_blocked {q' : Portid} (nqn : String) (hq' : q' ∈ s₃.portidList) (heq : q'.listener = q.listener) :
    Total ((Script.eachRegardless (fun subsys => sendLinkPortid subsys new) target.subsysList).run (sendTo w net target))
      (Blocked q q' nqn s₃) (fun _ => Blocked q q' nqn s₃) := by
  rw [Script.run_eachRegardless]
  refine Total.eachRegardless (I := fun _ => Blocked q q' nqn s₃) target.subsysList ?_
  intro subs subsys rest hsplit
  have hmem : subsys ∈ target.subsysList := by rw [hsplit]; exact List.mem_append_right _ List.mem_cons_self
  cases hidden : isHidden subsys with
  | true =>
    rw [sendLinkPortid_hidden hidden]
    exact Total.done
  | false =>
    rw [sendLinkPortid_visible hidden]
    refine total_sendMessageTo h.wire (h.arrive _ (mem_linkPort hmem hidden)) (fun far hfar => ?_)
    have hnext := hfar.step (x := subsys.nqn) h.net hc.findPortid hq' heq
    rw [linkPort_call]
    exact ⟨_, _, rfl, fun _ => hnext, fun _ => ⟨hnext, fun _ _ => hnext⟩⟩

end

/-! ### What comes of it -/

/-- Under the same number the port keeps its address. -/
theorem not_takesEffect_same (hid : new.portid = id) (hedit : addressOf new ≠ addressOf old)
    (hu : Unlinked p (target.subsysList.map Subsystem.nqn) s₀ s) : ¬TakesEffect target new s := by
  rintro ⟨q, hq, his, -⟩
  rw [hid, findPortid_of_eq hu.portidList, h.findPortid] at hq
  cases hq
  exact hedit (his.listener.symm.trans h.is.listener)

/-- Under the number of another port it is that one that is there. -/
theorem takesEffect_taken_iff {r : NvmeDem.Portid} (hr : r ∈ target.portidList) (hrid : r.portid = new.portid)
    (hne : new.portid ≠ id) (hg : Gone p s₀ s) : TakesEffect target new s ↔ addressOf r = addressOf new := by
  obtain ⟨q, hq, his⟩ := h.other hr (by rw [hrid]; exact hne) hg
  have hfind : s.findPortid new.portid = some q := by
    rw [← hrid, ← his.portid]
    exact hg.sound.tables.findPortid hq
  constructor
  · rintro ⟨q', hq', his', -⟩
    rw [hfind] at hq'
    cases hq'
    exact his.listener.symm.trans his'.listener
  · intro heq
    refine ⟨q, hfind, ⟨his.portid.trans hrid, his.listener.trans heq⟩, fun subsys hs hvisible => ?_⟩
    obtain ⟨hq₀, hptr⟩ := (h.mem_gone_iff hg).mp hq
    obtain ⟨sub₀, hsub⟩ := Option.ne_none_iff_exists'.mp (h.findSubsys_ne_none hs)
    have hsub' : s.findSubsys subsys.nqn = some (sub₀.unlink p.ptr) := by rw [hg.find, hsub]; rfl
    have hlinked : q.ptr ∈ (sub₀.unlink p.ptr).portidList :=
      (List.mem_erase_of_ne hptr).mpr ((h.inStep.links subsys hs sub₀ hsub q hq₀).mpr hvisible)
    exact ⟨⟨_, hsub', hlinked⟩, hg.sound.listens hsub' hq hlinked⟩

theorem takesEffect_linked {q : Portid} {s₂ s₃ : State} (hc : Created new p s₀ q s₂ s₃)
    (hl : Linked q ((target.subsysList.filter (fun subsys => !isHidden subsys)).map Subsystem.nqn) s₃ s) :
    TakesEffect target new s := by
  have hfind : s.findPortid new.portid = some q := (findPortid_of_eq hl.portidList _).trans hc.findPortid
  refine ⟨q, hfind, hc.is, fun subsys hs hvisible => ?_⟩
  obtain ⟨sub₀, -, hsub⟩ := h.exists_sub hc hs
  have hin : subsys.nqn ∈ (target.subsysList.filter (fun subsys => !isHidden subsys)).map Subsystem.nqn :=
    List.mem_map.mpr ⟨subsys, List.mem_filter.mpr ⟨hs, by rw [hvisible]; rfl⟩, rfl⟩
  have hsub' : s.findSubsys subsys.nqn = some ((sub₀.unlink p.ptr).link q.ptr) := by
    rw [hl.find, hsub, Option.map_some, if_pos hin]
  exact ⟨⟨_, hsub', List.mem_cons_self⟩, hl.sound.listens hsub' (findPortid_mem hfind) List.mem_cons_self⟩

/-- The end of an edit under a number that no port of the target has. -/
theorem total_free (hfree : ∀ q ∈ target.portidList, q.portid ≠ new.portid) (hfits : Fits new) :
    Total ((Script.andThen (.send (.setPort new))
        (.eachRegardless (fun subsys => sendLinkPortid subsys new) target.subsysList)).run (sendTo w net target))
      (Gone p s₀) (fun _ far => TakesEffect target new far ↔ Renumbered target id new) := by
  refine h.total_created _ hfree hfits (fun q s₂ s₃ hc => ?_)
  by_cases hown : ∀ subsys ∈ target.subsysList, isHidden subsys = false → ∀ r ∈ target.portidList, r.portid ≠ id →
      addressOf r ≠ addressOf new
  · refine (h.total_links hc hown).conseq (fun _ hfar => hfar) (fun _ far hl => ?_)
    exact iff_of_true (h.takesEffect_linked hc hl) ⟨hfree, hfits, hown⟩
  · have hno : ¬Renumbered target id new := fun hr => hown hr.own
    push Not at hown
    obtain ⟨subsys, hs, hvisible, r, hr, hne, heq⟩ := hown
    obtain ⟨q', hq', his⟩ := h.other hr hne hc.gone
    have hmem : q' ∈ s₃.portidList := by
      rw [hc.eq]
      exact List.mem_cons_of_mem q hq'
    have hlistener : q'.listener = q.listener := by rw [his.listener, heq, hc.is.listener]
    refine (h.total_blocked hc subsys.nqn hmem hlistener).conseq ?_ (fun _ far hb => ?_)
    · rintro far rfl
      obtain ⟨sub₀, hsub₀, hsub⟩ := h.exists_sub hc hs
      obtain ⟨hq₀, hptr⟩ := (h.mem_gone_iff hc.gone).mp hq'
      refine ⟨hc.sound, rfl, _, hsub, ?_, hc.fresh hsub⟩
      exact (List.mem_erase_of_ne hptr).mpr ((h.inStep.links subsys hs sub₀ hsub₀ q' hq₀).mpr hvisible)
    · exact iff_of_false (hc.not_takesEffect hs hvisible hb) hno

/-- What comes of the edit of a port. -/
theorem takes_effect_iff (hedit : addressOf new ≠ addressOf old) {s : Session State} (hs : s.far = s₀) :
    (∃ ret s', (setPortidScript target id new).run (sendTo w net target) s = .ok (ret, s') ∧ TakesEffect target new s'.far) ↔
      Renumbered target id new ∨ IsThere target new := by
  by_cases hid : new.portid = id
  · -- The number stays: the back end has the port, and refuses to create it.
    have hnot : ¬(Renumbered target id new ∨ IsThere target new) := by
      rintro (hr | ⟨q, hq, hqid, heq⟩)
      · exact hr.free old h.old_mem (h.old_portid.trans hid.symm)
      · obtain rfl := h.eq_of_portid hq h.old_mem (by rw [hqid, hid, h.old_portid])
        exact hedit heq.symm
    have hscript : setPortidScript target id new =
        .regardless (.eachRegardless (fun subsys => .send (.unlinkPort subsys { new with portid := id })) target.subsysList)
          (.regardless .done (.andThen (.send (.setPort new))
            (.eachRegardless (fun subsys => sendLinkPortid subsys new) target.subsysList))) := by
      unfold setPortidScript
      rw [if_neg (not_not.mpr hid)]
    rw [hscript]
    refine Total.exists_iff (P := fun far => far = s₀) (h.total_unlink.regardless (Total.done.regardless ?_)) hs
    refine (h.total_taken _ (A := Unlinked p (target.subsysList.map Subsystem.nqn) s₀) ?_).conseq (fun _ hu => hu) ?_
    · intro far hu
      rw [hid, findPortid_of_eq hu.portidList, h.findPortid]
      rfl
    · exact fun _ far hu => iff_of_false (h.not_takesEffect_same hid hedit hu) hnot
  · have hscript : setPortidScript target id new =
        .regardless (.eachRegardless (fun subsys => .send (.unlinkPort subsys { new with portid := id })) target.subsysList)
          (.regardless (.send (.delPort { new with portid := id })) (.andThen (.send (.setPort new))
            (.eachRegardless (fun subsys => sendLinkPortid subsys new) target.subsysList))) := by
      unfold setPortidScript
      rw [if_pos hid]
    rw [hscript]
    by_cases hthere : ∃ r ∈ target.portidList, r.portid = new.portid
    · -- Another port has the number.
      obtain ⟨r, hr, hrid⟩ := hthere
      have hiff : Renumbered target id new ∨ IsThere target new ↔ addressOf r = addressOf new := by
        constructor
        · rintro (hren | ⟨q, hq, hqid, heq⟩)
          · exact absurd hrid (hren.free r hr)
          · obtain rfl := h.eq_of_portid hq hr (hqid.trans hrid.symm)
            exact heq
        · exact fun heq => Or.inr ⟨r, hr, hrid, heq⟩
      refine Total.exists_iff (P := fun far => far = s₀) (h.total_unlink.regardless ((h.total_del hid).regardless ?_)) hs
      refine (h.total_taken _ (A := Gone p s₀) ?_).conseq (fun _ hg => hg) ?_
      · intro far hg
        obtain ⟨q, hq, his⟩ := h.other hr (by rw [hrid]; exact hid) hg
        rw [← hrid, ← his.portid, hg.sound.tables.findPortid hq]
        rfl
      · exact fun _ far hg => (h.takesEffect_taken_iff hr hrid hid hg).trans hiff.symm
    · have hfree : ∀ q ∈ target.portidList, q.portid ≠ new.portid := fun q hq heq => hthere ⟨q, hq, heq⟩
      have hiff : Renumbered target id new ∨ IsThere target new ↔ Renumbered target id new :=
        or_iff_left (fun ⟨q, hq, hqid, _⟩ => hthere ⟨q, hq, hqid⟩)
      rw [hiff]
      by_cases hfits : Fits new
      · exact Total.exists_iff (P := fun far => far = s₀)
          (h.total_unlink.regardless ((h.total_del hid).regardless (h.total_free hfree hfits))) hs
      · refine iff_of_false (Faults.not_exists (P := fun far => far = s₀) ?_ hs) (fun hr => hfits hr.fits)
        exact Faults.regardless h.total_unlink (Faults.regardless (h.total_del hid) (h.faults_unfit _ hfree hfits))

end Edit

/-- An edit of a port of a manager in step takes effect exactly if the port gets a number of its own, with values that fit and an
address that no other linked port has; or if another port has the new number and the new address already. -/
theorem edit_takes_effect_iff {world : World} {out : PortArg} {s : Session State} (hwire : ∀ n, w.net n = 0)
    (hnet : ∀ n, net n = 0) (harrive : Arrive w target (.setPortid world id out)) (hstep : InStep target s.far)
    (hfind : NvmeDem.findPortid target id = some old) (hedit : addressOf (old.updateTo out) ≠ addressOf old) :
    (∃ ret s', ((Errand.setPortid world id out).script target).run (sendTo w net target) s = .ok (ret, s') ∧
      TakesEffect target (old.updateTo out) s'.far) ↔
      Renumbered target id (old.updateTo out) ∨ IsThere target (old.updateTo out) := by
  have hscript : (Errand.setPortid world id out).script target = setPortidScript target id (old.updateTo out) := by
    simp only [Errand.script, hfind, Option.getD_some]
  obtain ⟨p, hp, his⟩ := hstep.ports old (List.mem_of_find?_eq_some hfind)
  have hedits : Edit w net target id (old.updateTo out) old p s.far :=
    { wire := hwire
      net := hnet
      arrive := fun msg hmsg => harrive msg (hscript ▸ hmsg)
      inStep := hstep
      find := hfind
      port := hp
      is := his }
  rw [hscript]
  exact hedits.takes_effect_iff hedit rfl

/-! A target with a port and an open subsystem, and two edits of the port. -/

def editTarget : Target := { demoTarget with mgmtMode := .inBandMgmt, subsysList := [{ nqn := exampleNqn, access := 1 }] }

def editWire : Wire where
  net := calmNet
  http := httpOf demoTarget
  json := demoJson

def editPort : Portid where
  ptr := 0
  portid := 1
  type := "rdma"
  family := "ipv4"
  address := "10.0.0.1"
  port := "4420"

def bareManager : State := (spdkCreateSubsys calmNet exampleNqn 1 {}).2

def editManager : State :=
  (spdkLinkPortToSubsys calmNet exampleNqn 1 { bareManager with portidList := [editPort], next := 1 }).2

def editSubsys : Subsys := { nqn := exampleNqn, allowany := true, portidList := [0] }

def editText (id : String) : String :=
  "\x7b\"PORTID\":" ++ id ++ ",\"TRTYPE\":\"tcp\",\"ADRFAM\":\"ipv4\",\"TRADDR\":\"10.0.0.2\",\"TRSVCID\":4421\x7d"

def editValue (id : Int) : Jansson.Json := .object [(tagPortid, .integer id), (tagType, .string "tcp"),
  (tagFamily, .string "ipv4"), (tagAddress, .string "10.0.0.2"), (tagTrsvcid, .integer 4421)]

def editJson : JsonLib := .ofTexts [(editText "1", editValue 1), (editText "2", editValue 2)]

def editRoot : Jansson.Json := .object
  [(tagTargets, .array [.object [(tagAlias, .string "t"), (tagPortids, .array [.object [(tagPortid, .integer 1)]])]])]

def editOut (id : Int) : PortArg := { portid := id, type := "tcp", family := "ipv4", address := "10.0.0.2", portNum := 4421 }

theorem sound_editManager : Sound editManager := by
  have hbare : Sound bareManager := by
    refine ⟨tables_empty.create calmNet exampleNqn 1, ?_⟩
    exact (mirrors_create mirrors_empty exampleNqn 1).mpr (fun _ _ => rfl)
  have hport : Sound { bareManager with portidList := [editPort], next := 1 } :=
    ⟨hbare.tables.createPortid rfl rfl, mirrors_createPortid hbare.tables hbare.mirrors rfl⟩
  exact ⟨hport.tables.linkPort calmNet exampleNqn 1, mirrors_linkPort hport.tables hport.mirrors exampleNqn 1⟩

theorem inStep_editManager : InStep editTarget editManager := by
  have hports : editManager.portidList = [editPort] := rfl
  have hsubsystems : editManager.subsysList = [editSubsys] := by decide
  have his : editPort.Is demoPort := ⟨rfl, rfl⟩
  have hfind : ∀ nqn, editManager.findSubsys nqn = if exampleNqn = nqn then some editSubsys else none := by
    intro nqn
    unfold State.findSubsys
    rw [hsubsystems]
    by_cases hn : exampleNqn = nqn
    · rw [if_pos hn]
      exact List.find?_cons_of_pos (beq_iff_eq.mpr hn)
    · rw [if_neg hn, List.find?_cons_of_neg (by rw [beq_iff_eq]; exact hn)]
      rfl
  refine ⟨sound_editManager, by decide, ?_, ?_, fun nqn => ?_, ?_⟩
  · intro portid hp
    rw [List.mem_singleton.mp hp, hports]
    exact ⟨editPort, List.mem_singleton_self _, his⟩
  · intro p hp
    rw [hports] at hp
    rw [List.mem_singleton.mp hp]
    exact ⟨demoPort, List.mem_singleton_self _, his⟩
  · rw [hfind]
    constructor
    · intro hne
      by_cases hn : exampleNqn = nqn
      · exact ⟨_, List.mem_singleton_self _, hn⟩
      · rw [if_neg hn] at hne
        exact absurd rfl hne
    · rintro ⟨subsys, hs, rfl⟩
      rw [List.mem_singleton.mp hs, if_pos rfl]
      exact Option.some_ne_none _
  · intro subsys hs sub hsub p hp
    rw [hports] at hp
    rw [List.mem_singleton.mp hs] at hsub ⊢
    rw [hfind, if_pos rfl] at hsub
    cases hsub
    rw [List.mem_singleton.mp hp]
    decide

theorem arrive_edit (id : Int) (hid : id = 1 ∨ id = 2) : Arrive editWire editTarget (.setPortid {} 1 (editOut id)) := by
  obtain rfl | rfl := hid
  · exact arrive_inb rfl (by decide)
  · exact arrive_inb rfl (by decide)

/-- The port gets another number. -/
theorem edit_takes_effect_renumbered :
    (Request.setPortid "t" 1 (editText "2")).errand editJson {} editRoot "t" = some (.setPortid {} 1 (editOut 2)) ∧
    ∃ ret s', ((Errand.setPortid {} 1 (editOut 2)).script editTarget).run (sendTo editWire calmNet editTarget)
        { far := editManager, connected := false, results := [] } = .ok (ret, s') ∧
      TakesEffect editTarget (demoPort.updateTo (editOut 2)) s'.far := by
  refine ⟨rfl, ?_⟩
  refine (edit_takes_effect_iff (fun _ => rfl) (fun _ => rfl) (arrive_edit 2 (Or.inr rfl)) inStep_editManager rfl
    (by decide)).mpr (Or.inl ⟨by decide, ⟨by decide, by decide, by decide, by decide⟩, ?_⟩)
  intro subsys _ _ q hq hne
  rw [List.mem_singleton.mp hq] at hne
  exact absurd rfl hne

/-- The port keeps its number: it is unlinked, and does not change. -/
theorem edit_without_effect :
    (Request.setPortid "t" 1 (editText "1")).errand editJson {} editRoot "t" = some (.setPortid {} 1 (editOut 1)) ∧
    InStep editTarget editManager ∧ Arrive editWire editTarget (.setPortid {} 1 (editOut 1)) ∧
    ¬∃ ret s', ((Errand.setPortid {} 1 (editOut 1)).script editTarget).run (sendTo editWire calmNet editTarget)
        { far := editManager, connected := false, results := [] } = .ok (ret, s') ∧
      TakesEffect editTarget (demoPort.updateTo (editOut 1)) s'.far := by
  refine ⟨rfl, inStep_editManager, arrive_edit 1 (Or.inl rfl), ?_⟩
  have hedit : Edit editWire calmNet editTarget 1 (demoPort.updateTo (editOut 1)) demoPort editPort editManager :=
    { wire := fun _ => rfl
      net := fun _ => rfl
      arrive := arrive_edit 1 (Or.inl rfl)
      inStep := inStep_editManager
      find := rfl
      port := List.mem_singleton_self _
      is := ⟨rfl, rfl⟩ }
  refine fun h => ?_
  obtain hr | ⟨q, hq, -, heq⟩ := (hedit.takes_effect_iff (by decide) rfl).mp h
  · exact hr.free demoPort (List.mem_singleton_self _) rfl
  · rw [List.mem_singleton.mp hq] at heq
    exact absurd heq (by decide)

end NvmeDem.Spdk
