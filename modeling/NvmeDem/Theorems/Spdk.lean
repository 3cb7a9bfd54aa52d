import NvmeDem.Lemmas.Spdk
import NvmeDem.Lib.Run

/-!
# What the tables of the SPDK back end say of SPDK

The tables are meant to say what SPDK provides (`Mirrors`). They do for as long as no operation goes on after a call that failed as
if it had gone well, and none takes away the listener of another port (`Op.Mirrored`, `mirrors_step_iff`): creating and deleting a
subsystem, and taking a host away, change the table whatever SPDK answers; a first host leaves the listeners out that could not be
put back; unlinking a port that is not linked takes away the listener of a port with the same address.

A port is given back whether or not it could be unlinked. A subsystem that was still linked to it then keeps a link that leads
nowhere (`Op.Unlinks`, `links_live_step_iff`).
-/

namespace NvmeDem.Spdk

variable {net : Nat → Int}

/-! ## The tables and SPDK -/

/-- A subsystem of the table and the one at SPDK have the same hosts, and the ports of the links are the listeners, one each. -/
structure Agrees (port : Nat → Option Portid) (subsys : Subsys) (p : Provided) : Prop where
  hosts : ∀ host, host ∈ p.hosts ↔ host ∈ subsys.hostList
  listeners : ∀ l, l ∈ p.listeners ↔ ∃ ptr ∈ subsys.portidList, ∃ portid, port ptr = some portid ∧ portid.listener = l
  live : ∀ ptr ∈ subsys.portidList, ∃ portid, port ptr = some portid
  distinct : ∀ ptr ∈ subsys.portidList, ∀ ptr' ∈ subsys.portidList, ∀ portid portid', port ptr = some portid →
    port ptr' = some portid' → portid.listener = portid'.listener → ptr = ptr'

def Corresponds (port : Nat → Option Portid) : Option Subsys → Option Provided → Prop
  | none, none => True
  | some subsys, some p => Agrees port subsys p
  | _, _ => False

/-- The subsystems of the table are those that SPDK provides, with their hosts and listeners. -/
def Mirrors (s : State) : Prop := ∀ nqn, Corresponds s.portAt (s.findSubsys nqn) (s.server nqn)

/-- Whether a subsystem has a listener at the address of a port. -/
def State.Listens (s : State) (nqn : String) (portid : Portid) : Prop :=
  ∃ p, s.server nqn = some p ∧ portid.listener ∈ p.listeners

/-- What an operation needs for the tables to go on saying what SPDK provides; the calls of an operation follow `s.sent`. -/
def Op.Mirrored (net : Nat → Int) (s : State) : Op → Prop
  | .createSubsys subnqn _ => validNqn subnqn = true → s.findSubsys subnqn = none → net s.sent = 0
  | .deleteSubsys nqn => s.findSubsys nqn ≠ none → net s.sent = 0
  | .linkHostToSubsys subnqn hostnqn =>
    validNqn hostnqn = true → ∀ subsys, s.findSubsys subnqn = some subsys → subsys.hostList = [] →
      ∀ i < subsys.portidList.length, net (s.sent + i) ≠ 0 ∨
        (net (s.sent + subsys.portidList.length) = 0 ∧ net (s.sent + subsys.portidList.length + 1 + i) = 0)
  | .unlinkHostFromSubsys subnqn hostnqn =>
    ∀ subsys, s.findSubsys subnqn = some subsys → hostnqn ∈ subsys.hostList → net s.sent = 0
  | .createPortid .. => True
  | .deletePortid id =>
    ∀ portid, s.findPortid id = some portid → ∀ (j : Nat) subsys, s.subsysList[j]? = some subsys →
      if portid.ptr ∈ subsys.portidList then net (s.sent + j) = 0
      else net (s.sent + j) ≠ 0 ∨ ¬s.Listens subsys.nqn portid
  | .linkPortToSubsys _ _ => True
  | .unlinkPortFromSubsys nqn id =>
    ∀ portid subsys, s.findPortid id = some portid → s.findSubsys nqn = some subsys →
      net s.sent ≠ 0 ∨ portid.ptr ∈ subsys.portidList ∨ ¬s.Listens nqn portid
  | .resetConfig =>
    ∀ j < s.subsysList.length, net (s.sent + s.portidList.length * s.subsysList.length + j) = 0

/-! ## One subsystem -/

section

variable {port : Nat → Option Portid} {subsys : Subsys} {p : Provided} {portid : Portid}

/-- Without one of its links a subsystem has the listeners but one. -/
theorem Agrees.unlink (h : Agrees port subsys p) {next : Nat} (hl : subsys.Listed next) (hp : port portid.ptr = some portid)
    (hm : portid.ptr ∈ subsys.portidList) {port' : Nat → Option Portid}
    (hport : ∀ ptr, ptr ≠ portid.ptr → port' ptr = port ptr) :
    Agrees port' (subsys.unlink portid.ptr) { p with listeners := p.listeners.erase portid.listener } where
  hosts := h.hosts
  listeners := by
    intro l
    rw [Finset.mem_erase, h.listeners]
    constructor
    · rintro ⟨hne, ptr, hptr, q, hq, rfl⟩
      have hne' : ptr ≠ portid.ptr := by
        rintro rfl
        exact hne (congrArg Portid.listener (Option.some.inj (hq.symm.trans hp)))
      exact ⟨ptr, (List.mem_erase_of_ne hne').mpr hptr, q, by rw [hport ptr hne']; exact hq, rfl⟩
    · rintro ⟨ptr, hptr, q, hq, rfl⟩
      obtain ⟨hne', hptr⟩ := (List.Nodup.mem_erase_iff hl.links).mp hptr
      rw [hport ptr hne'] at hq
      exact ⟨fun heq => hne' (h.distinct ptr hptr _ hm q portid hq hp heq), ptr, hptr, q, hq, rfl⟩
  live := by
    intro ptr hptr
    obtain ⟨hne', hptr⟩ := (List.Nodup.mem_erase_iff hl.links).mp hptr
    rw [hport ptr hne']
    exact h.live ptr hptr
  distinct := by
    intro ptr hptr ptr' hptr' q q' hq hq' heq
    obtain ⟨hne, hptr⟩ := (List.Nodup.mem_erase_iff hl.links).mp hptr
    obtain ⟨hne', hptr'⟩ := (List.Nodup.mem_erase_iff hl.links).mp hptr'
    rw [hport ptr hne] at hq
    rw [hport ptr' hne'] at hq'
    exact h.distinct ptr hptr ptr' hptr' q q' hq hq' heq

/-- A subsystem that is not linked to a port goes on as it was without the port. -/
theorem Agrees.of_port (h : Agrees port subsys p) {port' : Nat → Option Portid}
    (hport : ∀ ptr ∈ subsys.portidList, port' ptr = port ptr) : Agrees port' subsys p where
  hosts := h.hosts
  listeners := by
    intro l
    rw [h.listeners]
    constructor
    · rintro ⟨ptr, hptr, hq⟩
      exact ⟨ptr, hptr, by rw [hport ptr hptr]; exact hq⟩
    · rintro ⟨ptr, hptr, hq⟩
      rw [hport ptr hptr] at hq
      exact ⟨ptr, hptr, hq⟩
  live := fun ptr hptr => by rw [hport ptr hptr]; exact h.live ptr hptr
  distinct := by
    intro ptr hptr ptr' hptr' q q' hq hq'
    rw [hport ptr hptr] at hq
    rw [hport ptr' hptr'] at hq'
    exact h.distinct ptr hptr ptr' hptr' q q' hq hq'

/-- When a port is unlinked, the listener that goes has to be that of the link that goes. -/
theorem corresponds_unlinked (h : Agrees port subsys p) {next : Nat} (hl : subsys.Listed next)
    (hp : port portid.ptr = some portid) (v : Int) :
    Corresponds port (unlinked v portid subsys (some p)).1 (unlinked v portid subsys (some p)).2 ↔
      v ≠ 0 ∨ portid.ptr ∈ subsys.portidList ∨ portid.listener ∉ p.listeners := by
  unfold unlinked
  by_cases hv : v = 0
  · subst hv
    rw [answer_removeListener]
    by_cases hin : portid.listener ∈ p.listeners
    · rw [if_pos hin]
      dsimp only
      rw [if_pos rfl]
      constructor
      · intro hc
        refine Or.inr (Or.inl (Classical.by_contradiction fun hnot => ?_))
        -- The listener is still that of another link.
        obtain ⟨ptr, hptr, q, hq, heq⟩ := (h.listeners _).mp hin
        have hne : ptr ≠ portid.ptr := fun e => hnot (e ▸ hptr)
        have hmem := (hc.listeners portid.listener).mpr ⟨ptr, (List.mem_erase_of_ne hne).mpr hptr, q, hq, heq⟩
        exact (Finset.mem_erase.mp hmem).1 rfl
      · rintro (hne | hm | hnot)
        · exact absurd rfl hne
        · exact h.unlink hl hp hm (fun _ _ => rfl)
        · exact absurd hin hnot
    · rw [if_neg hin]
      dsimp only
      rw [if_neg (by decide)]
      exact ⟨fun _ => Or.inr (Or.inr hin), fun _ => h⟩
  · rw [answer_of_ne hv]
    dsimp only
    rw [if_neg hv]
    exact ⟨fun _ => Or.inl hv, fun _ => h⟩

theorem corresponds_deleted (h : Agrees port subsys p) {next : Nat} (hl : subsys.Listed next)
    (hp : port portid.ptr = some portid) (v : Int) {port' : Nat → Option Portid}
    (hport : ∀ ptr, port' ptr = if ptr = portid.ptr then none else port ptr) :
    Corresponds port' (unlinked v portid subsys (some p)).1 (unlinked v portid subsys (some p)).2 ↔
      if portid.ptr ∈ subsys.portidList then v = 0 else v ≠ 0 ∨ portid.listener ∉ p.listeners := by
  have hport' : ∀ ptr, ptr ≠ portid.ptr → port' ptr = port ptr := fun ptr hne => by rw [hport, if_neg hne]
  have hstay : Agrees port' subsys p ↔ portid.ptr ∉ subsys.portidList := by
    constructor
    · intro hc hm
      obtain ⟨q, hq⟩ := hc.live _ hm
      rw [hport, if_pos rfl] at hq
      cases hq
    · intro hnot
      exact h.of_port (fun ptr hptr => hport' ptr (fun e => hnot (e ▸ hptr)))
  unfold unlinked
  by_cases hv : v = 0
  · subst hv
    rw [answer_removeListener]
    by_cases hin : portid.listener ∈ p.listeners
    · rw [if_pos hin]
      dsimp only
      rw [if_pos rfl]
      by_cases hm : portid.ptr ∈ subsys.portidList
      · rw [if_pos hm]
        exact ⟨fun _ => rfl, fun _ => h.unlink hl hp hm hport'⟩
      · rw [if_neg hm]
        constructor
        · intro hc
          obtain ⟨ptr, hptr, q, hq, heq⟩ := (h.listeners _).mp hin
          have hne : ptr ≠ portid.ptr := fun e => hm (e ▸ hptr)
          have hmem := (hc.listeners portid.listener).mpr
            ⟨ptr, (List.mem_erase_of_ne hne).mpr hptr, q, by rw [hport' ptr hne]; exact hq, heq⟩
          exact absurd rfl (Finset.mem_erase.mp hmem).1
        · rintro (hne | hnot)
          · exact absurd rfl hne
          · exact absurd hin hnot
    · have hm : portid.ptr ∉ subsys.portidList := fun hm => hin ((h.listeners _).mpr ⟨_, hm, portid, hp, rfl⟩)
      rw [if_neg hin, if_neg hm]
      dsimp only
      rw [if_neg (by decide)]
      exact ⟨fun _ => Or.inr hin, fun _ => hstay.mpr hm⟩
  · rw [answer_of_ne hv]
    dsimp only
    rw [if_neg hv]
    refine hstay.trans ?_
    by_cases hm : portid.ptr ∈ subsys.portidList
    · rw [if_pos hm]
      exact ⟨fun hnot => absurd hm hnot, fun hz => absurd hz hv⟩
    · rw [if_neg hm]
      exact ⟨fun _ => Or.inl hv, fun _ => hm⟩

/-- A port that is linked gets a listener that no other link has. -/
theorem corresponds_linked (h : Agrees port subsys p) (hp : port portid.ptr = some portid) (v : Int) :
    Corresponds port
      (some (if (answer v (.addListener portid.listener) (some p)).1 = 0 then subsys.link portid.ptr else subsys))
      (answer v (.addListener portid.listener) (some p)).2 := by
  by_cases hv : v = 0
  · subst hv
    rw [answer_addListener]
    by_cases hin : portid.listener ∈ p.listeners
    · rw [if_pos hin]
      dsimp only
      rw [if_neg (by decide)]
      exact h
    · rw [if_neg hin]
      dsimp only
      rw [if_pos rfl]
      have hother : ∀ ptr ∈ subsys.portidList, ∀ q, port ptr = some q → q.listener ≠ portid.listener :=
        fun ptr hptr q hq heq => hin ((h.listeners _).mpr ⟨ptr, hptr, q, hq, heq⟩)
      refine ⟨h.hosts, fun l => ?_, ?_, ?_⟩
      · rw [Finset.mem_insert, h.listeners]
        constructor
        · rintro (rfl | ⟨ptr, hptr, hq⟩)
          · exact ⟨_, List.mem_cons_self, portid, hp, rfl⟩
          · exact ⟨ptr, List.mem_cons_of_mem _ hptr, hq⟩
        · rintro ⟨ptr, hptr, q, hq, rfl⟩
          rcases List.mem_cons.mp hptr with rfl | hptr
          · exact Or.inl (congrArg Portid.listener (Option.some.inj (hq.symm.trans hp)))
          · exact Or.inr ⟨ptr, hptr, q, hq, rfl⟩
      · intro ptr hptr
        rcases List.mem_cons.mp hptr with rfl | hptr
        · exact ⟨portid, hp⟩
        · exact h.live ptr hptr
      · intro ptr hptr ptr' hptr' q q' hq hq' heq
        rcases List.mem_cons.mp hptr with rfl | hm
        · rcases List.mem_cons.mp hptr' with rfl | hm'
          · rfl
          · obtain rfl := Option.some.inj (hq.symm.trans hp)
            exact absurd heq.symm (hother ptr' hm' q' hq')
        · rcases List.mem_cons.mp hptr' with rfl | hm'
          · obtain rfl := Option.some.inj (hq'.symm.trans hp)
            exact absurd heq (hother ptr hm q hq)
          · exact h.distinct ptr hm ptr' hm' q q' hq hq' heq
  · rw [answer_of_ne hv]
    dsimp only
    rw [if_neg hv]
    exact h

/-- A host that is not there is added when the call goes well. -/
theorem answer_addHost {host : String} (hnot : host ∉ p.hosts) (v : Int) :
    answer v (.addHost host) (some p) = if v = 0 then (0, some { p with hosts := insert host p.hosts }) else (v, some p) := by
  by_cases hv : v = 0 <;> simp [answer, Method.act, hv, hnot]

theorem corresponds_unlinkHost (h : Agrees port subsys p) {next : Nat} (hl : subsys.Listed next) {host : String}
    (hm : host ∈ subsys.hostList) (v : Int) :
    Corresponds port (some (subsys.removeHost host)) (answer v (.removeHost host) (some p)).2 ↔ v = 0 := by
  have hin : host ∈ p.hosts := (h.hosts host).mpr hm
  by_cases hv : v = 0
  · subst hv
    have hans : answer 0 (.removeHost host) (some p) = (0, some { p with hosts := p.hosts.erase host }) := by
      simp [answer, Method.act, hin]
    rw [hans]
    refine ⟨fun _ => rfl, fun _ => ⟨fun x => ?_, h.listeners, h.live, h.distinct⟩⟩
    rw [Finset.mem_erase, h.hosts]
    exact (List.Nodup.mem_erase_iff hl.hosts).symm
  · rw [answer_of_ne hv]
    refine ⟨fun hc => ?_, fun hz => absurd hz hv⟩
    exact absurd rfl ((List.Nodup.mem_erase_iff hl.hosts).mp ((hc.hosts host).mp hin)).1

theorem linkedPorts_eq {s : State} {ptrs : List Nat} (h : ∀ ptr ∈ ptrs, ∃ portid, s.portAt ptr = some portid) :
    ∃ ports, linkedPorts s ptrs = .ok ports ∧ List.Forall₂ (fun ptr portid => s.portAt ptr = some portid) ptrs ports := by
  induction ptrs with
  | nil => exact ⟨[], rfl, .nil⟩
  | cons ptr ptrs ih =>
    obtain ⟨portid, hp⟩ := h ptr List.mem_cons_self
    obtain ⟨ports, hports, hall⟩ := ih (fun q hq => h q (List.mem_cons_of_mem _ hq))
    refine ⟨portid :: ports, ?_, .cons hp hall⟩
    unfold linkedPorts
    rw [hp, hports]
    rfl

/-- The ports of the links have the listeners of the subsystem, each one once. -/
theorem Agrees.ports (h : Agrees port subsys p) (hd : subsys.portidList.Nodup) {ports : List Portid}
    (hports : List.Forall₂ (fun ptr portid => port ptr = some portid) subsys.portidList ports) :
    (∀ l, l ∈ p.listeners ↔ l ∈ ports.map Portid.listener) ∧ (ports.map Portid.listener).Nodup := by
  constructor
  · intro l
    rw [h.listeners, List.mem_map]
    constructor
    · rintro ⟨ptr, hptr, q, hq, rfl⟩
      obtain ⟨q', hmem, hq'⟩ := Keyed.forall₂_mem_left hports hptr
      obtain rfl := Option.some.inj (hq.symm.trans hq')
      exact ⟨q, hmem, rfl⟩
    · rintro ⟨q, hmem, rfl⟩
      obtain ⟨ptr, hptr, hq⟩ := Keyed.forall₂_mem_right hports hmem
      exact ⟨ptr, hptr, q, hq, rfl⟩
  · have hdist := h.distinct
    clear h
    generalize subsys.portidList = links at hd hports hdist
    induction hports with
    | nil => exact List.nodup_nil
    | @cons ptr q links ports hq hall ih =>
      obtain ⟨hnot, hd⟩ := List.nodup_cons.mp hd
      rw [List.map_cons, List.nodup_cons]
      refine ⟨fun hm => ?_, ih hd (fun a ha b hb => hdist a (List.mem_cons_of_mem _ ha) b (List.mem_cons_of_mem _ hb))⟩
      obtain ⟨q', hq'mem, heq⟩ := List.mem_map.mp hm
      obtain ⟨ptr', hptr', hq'⟩ := Keyed.forall₂_mem_right hall hq'mem
      have hsame := hdist ptr' (List.mem_cons_of_mem _ hptr') ptr List.mem_cons_self q' q hq' hq heq
      exact hnot (hsame ▸ hptr')

/-- A subsystem whose links stay and whose listeners may have become fewer. -/
theorem Agrees.iff_listeners (h : Agrees port subsys p) {subsys' : Subsys} (hlinks : subsys'.portidList = subsys.portidList)
    {r : Provided} (hhosts : ∀ host, host ∈ r.hosts ↔ host ∈ subsys'.hostList) (hsub : ∀ l ∈ r.listeners, l ∈ p.listeners) :
    Agrees port subsys' r ↔ ∀ l ∈ p.listeners, l ∈ r.listeners := by
  constructor
  · intro hr l hl
    rw [hr.listeners, hlinks]
    exact (h.listeners l).mp hl
  · intro hall
    refine ⟨hhosts, fun l => ?_, hlinks ▸ h.live, hlinks ▸ h.distinct⟩
    rw [hlinks, ← h.listeners]
    exact ⟨hsub l, hall l⟩

/-- The first host of a subsystem is added: each listener has to stay, or to come back. -/
theorem corresponds_linkHost (net : Nat → Int) (host : String) (h : Agrees port subsys p) (hd : subsys.portidList.Nodup) {ports : List Portid}
    (hports : List.Forall₂ (fun ptr portid => port ptr = some portid) subsys.portidList ports)
    (hempty : subsys.hostList = []) (n : Nat) :
    let ls := ports.map Portid.listener
    let q := answers net n (ls.map .removeListener) (some p)
    let ans := answer (net (n + ls.length)) (.addHost host) q
    Corresponds port (some (if ans.1 = 0 then subsys.addHost host else subsys))
        (if ans.1 = 0 then answers net (n + ls.length + 1) (ls.map .addListener) ans.2 else ans.2) ↔
      ∀ i < subsys.portidList.length, net (n + i) ≠ 0 ∨
        (net (n + subsys.portidList.length) = 0 ∧ net (n + subsys.portidList.length + 1 + i) = 0) := by
  obtain ⟨hmem, hnodup⟩ := h.ports hd hports
  have hlen : subsys.portidList.length = (ports.map Portid.listener).length := by
    rw [List.length_map]
    exact hports.length_eq
  rw [hlen]
  generalize ports.map Portid.listener = ls at hmem hnodup
  obtain ⟨q, hq, hqh, hqm⟩ := answers_removeListeners net ls n p
  have hnone : ∀ x, x ∉ p.hosts := fun x hx => by
    have hx' := (h.hosts x).mp hx
    rw [hempty] at hx'
    cases hx'
  -- The place of a listener in the list decides which calls are about it.
  have hplace : ∀ i j : Nat, ∀ l, ls[i]? = some l → ls[j]? = some l → i = j := fun i j l hi hj =>
    (List.getElem?_inj (List.getElem?_eq_some_iff.mp hi).1 hnodup).mp (hi.trans hj.symm)
  dsimp only
  rw [hq, answer_addHost (by rw [hqh]; exact hnone host)]
  by_cases hv : net (n + ls.length) = 0
  · rw [if_pos hv]
    dsimp only
    rw [if_pos rfl, if_pos rfl]
    obtain ⟨r, hr, hrh, hrm⟩ :=
      answers_addListeners net ls (n + ls.length + 1) { q with hosts := insert host q.hosts }
    rw [hr]
    have hhosts : ∀ x, x ∈ r.hosts ↔ x ∈ (subsys.addHost host).hostList := by
      intro x
      rw [hrh, Finset.mem_insert, hqh]
      unfold Subsys.addHost
      simp [hempty, hnone x]
    have hsub : ∀ l ∈ r.listeners, l ∈ p.listeners := by
      intro l hl
      rcases (hrm l).mp hl with hl | ⟨i, hi, -⟩
      · exact ((hqm l).mp hl).1
      · exact (hmem l).mpr (List.mem_of_getElem? hi)
    have hiff : Agrees port (subsys.addHost host) r ↔ ∀ l ∈ p.listeners, l ∈ r.listeners :=
      h.iff_listeners (by rfl) hhosts hsub
    refine hiff.trans ⟨fun hall i hi => ?_, fun hall l hl => ?_⟩
    · have hgi := List.getElem?_eq_getElem hi
      rcases (hrm _).mp (hall _ ((hmem _).mpr (List.getElem_mem hi))) with hl | ⟨j, hj, hz⟩
      · exact Or.inl (((hqm _).mp hl).2 i hgi)
      · exact Or.inr ⟨hv, by rwa [hplace j i _ hj hgi] at hz⟩
    · obtain ⟨i, hi⟩ := List.getElem?_of_mem ((hmem l).mp hl)
      refine (hrm l).mpr ?_
      rcases hall i (List.getElem?_eq_some_iff.mp hi).1 with hne | ⟨-, hz⟩
      · refine Or.inl ((hqm l).mpr ⟨hl, fun j hj => ?_⟩)
        rwa [hplace j i l hj hi]
      · exact Or.inr ⟨i, hi, hz⟩
  · rw [if_neg hv]
    dsimp only
    rw [if_neg hv, if_neg hv]
    have hhosts : ∀ x, x ∈ q.hosts ↔ x ∈ subsys.hostList := fun x => by rw [hqh]; exact h.hosts x
    refine (h.iff_listeners rfl hhosts (fun l hl => ((hqm l).mp hl).1)).trans ⟨fun hall i hi => ?_, fun hall l hl => ?_⟩
    · have hgi := List.getElem?_eq_getElem hi
      exact Or.inl (((hqm _).mp (hall _ ((hmem _).mpr (List.getElem_mem hi)))).2 i hgi)
    · refine (hqm l).mpr ⟨hl, fun i hi => ?_⟩
      rcases hall i (List.getElem?_eq_some_iff.mp hi).1 with hne | ⟨hz, -⟩
      · exact hne
      · exact absurd hz hv

end

/-! ## One operation -/

section

variable {s s' : State}

theorem Mirrors.agrees (h : Mirrors s) {nqn : String} {subsys : Subsys} (hs : s.findSubsys nqn = some subsys) :
    ∃ p, s.server nqn = some p ∧ Agrees s.portAt subsys p := by
  have hc := h nqn
  rw [hs] at hc
  cases hp : s.server nqn with
  | none =>
    rw [hp] at hc
    cases hc
  | some p =>
    rw [hp] at hc
    exact ⟨p, rfl, hc⟩

theorem Mirrors.none (h : Mirrors s) {nqn : String} (hs : s.findSubsys nqn = none) : s.server nqn = none := by
  have hc := h nqn
  rw [hs] at hc
  cases hp : s.server nqn with
  | none => rfl
  | some p =>
    rw [hp] at hc
    cases hc

theorem portAt_of_eq (h : s'.portidList = s.portidList) : s'.portAt = s.portAt := by
  funext ptr
  unfold State.portAt
  rw [h]

/-- An operation on one subsystem is judged by that subsystem. -/
theorem Mirrors.touches (h : Mirrors s) {nqn : String} (ht : Touches nqn s s') :
    Mirrors s' ↔ Corresponds s.portAt (s'.findSubsys nqn) (s'.server nqn) := by
  have hport := portAt_of_eq ht.portidList
  constructor
  · intro h'
    rw [← hport]
    exact h' nqn
  · intro hc x
    rw [hport]
    by_cases hx : x = nqn
    · subst hx
      exact hc
    · rw [ht.find x hx, ht.server x hx]
      exact h x

theorem mirrors_create (h : Mirrors s) (subnqn : String) (allowany : Int) :
    Mirrors (spdkCreateSubsys net subnqn allowany s).2 ↔
      (validNqn subnqn = true → s.findSubsys subnqn = none → net s.sent = 0) := by
  by_cases hv : validNqn subnqn = true
  · cases hfind : s.findSubsys subnqn with
    | some subsys =>
      unfold spdkCreateSubsys
      rw [hv, hfind]
      exact ⟨fun _ _ hn => (by cases hn), fun _ => h⟩
    | none =>
      obtain ⟨hports, hfinds, hserver⟩ := createSubsys_eq net hv hfind allowany
      generalize (spdkCreateSubsys net subnqn allowany s).2 = s' at hports hfinds hserver
      rw [h.none hfind] at hserver
      constructor
      · intro hm _ _
        refine Classical.by_contradiction fun hne => ?_
        have hc := hm subnqn
        rw [hfinds, if_pos rfl, hserver, if_pos rfl, answer_of_ne hne] at hc
        exact hc
      · intro hz x
        rw [portAt_of_eq hports, hfinds, hserver]
        by_cases hx : x = subnqn
        · rw [if_pos hx, if_pos hx, hz hv rfl]
          refine ⟨fun host => by simp, fun l => by simp, fun ptr hptr => ?_, fun ptr hptr => ?_⟩
          · cases hptr
          · cases hptr
        · rw [if_neg hx, if_neg hx]
          exact h x
  · unfold spdkCreateSubsys
    rw [if_pos (by simpa using hv)]
    exact ⟨fun _ hv' => absurd hv' hv, fun _ => h⟩

theorem mirrors_delete (ht : Tables s) (h : Mirrors s) (nqn : String) :
    Mirrors (spdkDeleteSubsys net nqn s).2 ↔ (s.findSubsys nqn ≠ none → net s.sent = 0) := by
  cases hfind : s.findSubsys nqn with
  | none =>
    unfold spdkDeleteSubsys
    rw [hfind]
    exact ⟨fun _ hn => absurd rfl hn, fun _ => h⟩
  | some subsys =>
    obtain ⟨hports, hfinds, hserver⟩ := deleteSubsys_eq net ht hfind
    generalize (spdkDeleteSubsys net nqn s).2 = s' at hports hfinds hserver
    obtain ⟨p, hp, -⟩ := h.agrees hfind
    rw [hp] at hserver
    constructor
    · intro hm _
      refine Classical.by_contradiction fun hne => ?_
      have hc := hm nqn
      rw [hfinds, if_pos rfl, hserver, if_pos rfl, answer_of_ne hne] at hc
      exact hc
    · intro hz x
      rw [portAt_of_eq hports, hfinds, hserver]
      by_cases hx : x = nqn
      · rw [if_pos hx, if_pos hx, hz (by simp)]
        trivial
      · rw [if_neg hx, if_neg hx]
        exact h x

theorem mirrors_unlinkHost (ht : Tables s) (h : Mirrors s) (subnqn hostnqn : String) :
    Mirrors (spdkUnlinkHostFromSubsys net subnqn hostnqn s).2 ↔
      ∀ subsys, s.findSubsys subnqn = some subsys → hostnqn ∈ subsys.hostList → net s.sent = 0 := by
  cases hfind : s.findSubsys subnqn with
  | none =>
    unfold spdkUnlinkHostFromSubsys
    rw [hfind]
    exact ⟨fun _ subsys hs => (by cases hs), fun _ => h⟩
  | some subsys =>
    by_cases hm : hostnqn ∈ subsys.hostList
    · obtain ⟨htouch, hserver, hfinds⟩ := unlinkHost_eq net hfind hm
      obtain ⟨p, hp, ha⟩ := h.agrees hfind
      rw [h.touches htouch, hserver, hfinds, hp, corresponds_unlinkHost ha (ht.listed subsys (findSubsys_mem hfind)) hm]
      exact ⟨fun hz _ _ _ => hz, fun hall => hall subsys rfl hm⟩
    · unfold spdkUnlinkHostFromSubsys
      rw [hfind]
      dsimp only
      rw [if_neg hm]
      refine ⟨fun _ subsys' hs hm' => ?_, fun _ => h⟩
      exact absurd (Option.some.inj hs ▸ hm') hm

theorem mirrors_linkHost (ht : Tables s) (h : Mirrors s) {subnqn hostnqn : String} {ret : Int}
    (hs : spdkLinkHostToSubsys net subnqn hostnqn s = .ok (ret, s')) :
    Mirrors s' ↔ Op.Mirrored net s (.linkHostToSubsys subnqn hostnqn) := by
  dsimp only [Op.Mirrored]
  by_cases hv : validNqn hostnqn = true
  · cases hfind : s.findSubsys subnqn with
    | none =>
      unfold spdkLinkHostToSubsys at hs
      rw [hv, hfind] at hs
      obtain ⟨-, rfl⟩ := Prod.mk.inj (Except.ok.inj hs)
      exact ⟨fun _ _ subsys hn => (by cases hn), fun _ => h⟩
    | some subsys =>
      have hl := ht.listed subsys (findSubsys_mem hfind)
      obtain ⟨p, hp, ha⟩ := h.agrees hfind
      by_cases hm : hostnqn ∈ subsys.hostList
      · unfold spdkLinkHostToSubsys at hs
        rw [hv, hfind] at hs
        dsimp only at hs
        rw [if_neg (by simp), if_pos hm] at hs
        obtain ⟨-, rfl⟩ := Prod.mk.inj (Except.ok.inj hs)
        refine ⟨fun _ _ subsys' hs' hempty => ?_, fun _ => h⟩
        rw [← Option.some.inj hs'] at hempty
        rw [hempty] at hm
        cases hm
      · obtain ⟨ports, hports, hall⟩ := linkedPorts_eq ha.live
        by_cases hempty : subsys.hostList = []
        · obtain ⟨ret', s'', hok, htouch, hfinds, hserver⟩ :=
            linkHost_eq net hv hfind hm (by rw [reconnected, hempty]; exact hports)
          obtain ⟨-, rfl⟩ := Prod.mk.inj (Except.ok.inj (hok.symm.trans hs))
          have hc := corresponds_linkHost net hostnqn ha hl.links hall hempty s.sent
          rw [h.touches htouch, hfinds, hserver, hp]
          refine hc.trans ?_
          exact ⟨fun hc _ subsys' hs' _ => Option.some.inj hs' ▸ hc, fun hc => hc hv subsys rfl hempty⟩
        · obtain ⟨ret', s'', hok, htouch, hfinds, hserver⟩ :=
            linkHost_eq net hv hfind hm (show reconnected s subsys = .ok [] from if_neg (by simpa using hempty))
          obtain ⟨-, rfl⟩ := Prod.mk.inj (Except.ok.inj (hok.symm.trans hs))
          have hnot : hostnqn ∉ p.hosts := fun hin => hm ((ha.hosts _).mp hin)
          refine ⟨fun _ _ subsys' hs' hempty' => absurd (Option.some.inj hs' ▸ hempty') hempty, fun _ => ?_⟩
          rw [h.touches htouch, hfinds, hserver, hp]
          simp only [List.map_nil, List.length_nil, answers, Nat.add_zero]
          rw [answer_addHost hnot]
          by_cases hz : net s.sent = 0
          · rw [if_pos hz]
            dsimp only
            rw [if_pos rfl, if_pos rfl]
            refine ⟨fun x => ?_, ha.listeners, ha.live, ha.distinct⟩
            rw [Finset.mem_insert, ha.hosts]
            unfold Subsys.addHost
            rw [List.mem_append, List.mem_singleton, or_comm]
          · rw [if_neg hz]
            dsimp only
            rw [if_neg hz, if_neg hz]
            exact ha
  · unfold spdkLinkHostToSubsys at hs
    rw [if_pos (by simpa using hv)] at hs
    obtain ⟨-, rfl⟩ := Prod.mk.inj (Except.ok.inj hs)
    exact ⟨fun _ hv' => absurd hv' hv, fun _ => h⟩

theorem mirrors_linkPort (ht : Tables s) (h : Mirrors s) (nqn : String) (id : Int) :
    Mirrors (spdkLinkPortToSubsys net nqn id s).2 := by
  cases hp : s.findPortid id with
  | none =>
    unfold spdkLinkPortToSubsys
    rw [hp]
    exact h
  | some portid =>
    cases hfind : s.findSubsys nqn with
    | none =>
      unfold spdkLinkPortToSubsys
      rw [hp, hfind]
      exact h
    | some subsys =>
      by_cases hm : portid.ptr ∈ subsys.portidList
      · unfold spdkLinkPortToSubsys
        rw [hp, hfind]
        dsimp only
        rw [if_pos hm]
        exact h
      · obtain ⟨htouch, -, hserver, hfinds⟩ := linkPort_eq net hp hfind hm
        obtain ⟨p, hserv, ha⟩ := h.agrees hfind
        rw [h.touches htouch, hfinds, hserver, hserv]
        exact corresponds_linked ha (ht.portAt (findPortid_mem hp)) _

/-- Whether SPDK listens at the address of a port is asked of the subsystem that agrees. -/
theorem listens_iff {nqn : String} {p : Provided} (hp : s.server nqn = some p) (portid : Portid) :
    s.Listens nqn portid ↔ portid.listener ∈ p.listeners := by
  unfold State.Listens
  rw [hp]
  exact ⟨fun ⟨q, hq, hm⟩ => Option.some.inj hq ▸ hm, fun hm => ⟨p, rfl, hm⟩⟩

theorem mirrors_unlinkPort (ht : Tables s) (h : Mirrors s) (nqn : String) (id : Int) :
    Mirrors (spdkUnlinkPortFromSubsys net nqn id s).2 ↔ Op.Mirrored net s (.unlinkPortFromSubsys nqn id) := by
  dsimp only [Op.Mirrored]
  cases hp : s.findPortid id with
  | none =>
    unfold spdkUnlinkPortFromSubsys
    rw [hp]
    exact ⟨fun _ portid _ hn => (by cases hn), fun _ => h⟩
  | some portid =>
    cases hfind : s.findSubsys nqn with
    | none =>
      unfold spdkUnlinkPortFromSubsys
      rw [hp, hfind]
      exact ⟨fun _ _ subsys _ hn => (by cases hn), fun _ => h⟩
    | some subsys =>
      obtain ⟨htouch, -, hserver, hfinds⟩ := unlinkPort_eq net hp hfind
      obtain ⟨p, hserv, ha⟩ := h.agrees hfind
      have hc := corresponds_unlinked ha (ht.listed subsys (findSubsys_mem hfind)) (ht.portAt (findPortid_mem hp)) (net s.sent)
      unfold unlinked at hc
      rw [h.touches htouch, hfinds, hserver, hserv, hc, ← listens_iff hserv]
      constructor
      · intro hor portid' subsys' hp' hs'
        obtain rfl := Option.some.inj hp'
        obtain rfl := Option.some.inj hs'
        exact hor
      · exact fun hall => hall portid subsys rfl rfl

theorem mirrors_createPortid (ht : Tables s) (h : Mirrors s) {portid : Portid} (hptr : portid.ptr = s.next) :
    Mirrors { s with portidList := portid :: s.portidList, next := s.next + 1 } := by
  intro nqn
  cases hfind : s.findSubsys nqn with
  | none =>
    have hserver := h.none hfind
    unfold State.findSubsys at hfind ⊢
    dsimp only
    rw [hfind, hserver]
    trivial
  | some subsys =>
    obtain ⟨p, hp, ha⟩ := h.agrees hfind
    have hl := ht.listed subsys (findSubsys_mem hfind)
    unfold State.findSubsys at hfind ⊢
    dsimp only
    rw [hfind, hp]
    refine ha.of_port (fun ptr hptr' => ?_)
    -- The address of the new port is in no link.
    have hlt := hl.bound ptr hptr'
    unfold State.portAt
    exact List.find?_cons_of_neg (by rw [beq_iff_eq]; omega)

theorem mirrors_deletePortid (ht : Tables s) (h : Mirrors s) (id : Int) :
    Mirrors (spdkDeletePortid net id s).2 ↔ Op.Mirrored net s (.deletePortid id) := by
  dsimp only [Op.Mirrored]
  unfold spdkDeletePortid
  cases hp : s.findPortid id with
  | none => exact ⟨fun _ portid hn => (by cases hn), fun _ => h⟩
  | some portid =>
    have hmem := findPortid_mem hp
    have hd := portDeleted net ht hmem
    dsimp only
    generalize deletePortid net portid s = s' at hd
    have hport := fun ptr => portAt_erase ht ptr hd.portidList
    -- Each subsystem is judged by itself.
    have hone : ∀ (j : Nat) subsys, s.subsysList[j]? = some subsys →
        (Corresponds s'.portAt (s'.findSubsys subsys.nqn) (s'.server subsys.nqn) ↔
          if portid.ptr ∈ subsys.portidList then net (s.sent + j) = 0
          else net (s.sent + j) ≠ 0 ∨ ¬s.Listens subsys.nqn portid) := by
      intro j subsys hj
      have hs := List.mem_of_getElem? hj
      obtain ⟨p, hserv, ha⟩ := h.agrees (ht.findSubsys hs)
      have hc := corresponds_deleted ha (ht.listed subsys hs) (ht.portAt hmem) (net (s.sent + j)) hport
      rw [← hserv, ← hd.subsys j subsys hj, ← listens_iff hserv] at hc
      exact hc
    constructor
    · intro hm portid' hp' j subsys hj
      obtain rfl := Option.some.inj hp'
      exact (hone j subsys hj).mp (hm subsys.nqn)
    · intro hall x
      by_cases hx : x ∈ s.subsysList.map Subsys.nqn
      · obtain ⟨subsys, hs, rfl⟩ := List.mem_map.mp hx
        obtain ⟨j, hj⟩ := List.getElem?_of_mem hs
        exact (hone j subsys hj).mpr (hall portid rfl j subsys hj)
      · have hnone : s.findSubsys x = none :=
          List.find?_eq_none.mpr (fun y hy heq => hx (List.mem_map.mpr ⟨y, hy, beq_iff_eq.mp heq⟩))
        obtain ⟨hfinds, hserver⟩ := hd.others x hx
        rw [hfinds, hserver, hnone, h.none hnone]
        trivial

theorem mirrors_reset (ht : Tables s) (h : Mirrors s) :
    Mirrors (spdkResetConfig net s) ↔ Op.Mirrored net s .resetConfig := by
  obtain ⟨-, hsubs, -, hothers, hsubsys⟩ := resetConfig_eq net ht
  unfold Op.Mirrored
  generalize spdkResetConfig net s = s' at hsubs hothers hsubsys
  have hempty : Mirrors s' ↔ ∀ x, s'.server x = none := by
    refine forall_congr' fun x => ?_
    unfold State.findSubsys
    rw [hsubs]
    cases s'.server x with
    | none => exact ⟨fun _ => rfl, fun _ => trivial⟩
    | some p => exact ⟨fun hc => False.elim hc, fun hn => by cases hn⟩
  rw [hempty]
  have hsome : ∀ subsys ∈ s.subsysList, (s.server subsys.nqn).isSome := fun subsys hs => by
    obtain ⟨p, hp, -⟩ := h.agrees (ht.findSubsys hs)
    rw [hp]
    rfl
  constructor
  · intro hnone j hj
    refine Classical.by_contradiction fun hne => ?_
    have hgone := (hsubsys j _ (List.getElem?_eq_getElem hj) (hsome _ (List.getElem_mem hj))).mpr hne
    rw [hnone] at hgone
    cases hgone
  · intro hall x
    by_cases hx : x ∈ s.subsysList.map Subsys.nqn
    · obtain ⟨subsys, hs, rfl⟩ := List.mem_map.mp hx
      obtain ⟨j, hj⟩ := List.getElem?_of_mem hs
      have hgone := mt (hsubsys j subsys hj (hsome subsys hs)).mp
        (not_not.mpr (hall j (List.getElem?_eq_some_iff.mp hj).1))
      exact Option.not_isSome_iff_eq_none.mp hgone
    · have hnone : s.findSubsys x = none :=
        List.find?_eq_none.mpr (fun y hy heq => hx (List.mem_map.mpr ⟨y, hy, beq_iff_eq.mp heq⟩))
      have hgone := hothers x hx
      rw [h.none hnone] at hgone
      exact Option.isNone_iff_eq_none.mp (by simpa using hgone)

/-- What an operation needs is what it takes for the tables to go on saying what SPDK provides. -/
theorem mirrors_step_iff (ht : Tables s) (h : Mirrors s) {op : Op} (hs : Step net op s s') :
    Mirrors s' ↔ op.Mirrored net s := by
  obtain ⟨ret, hs⟩ := hs
  cases op with
  | createSubsys subnqn allowany =>
    rw [← (Prod.mk.inj (Except.ok.inj hs)).2]
    exact mirrors_create h subnqn allowany
  | deleteSubsys nqn =>
    rw [← (Prod.mk.inj (Except.ok.inj hs)).2]
    exact mirrors_delete ht h nqn
  | linkHostToSubsys subnqn hostnqn => exact mirrors_linkHost ht h hs
  | unlinkHostFromSubsys subnqn hostnqn =>
    rw [← (Prod.mk.inj (Except.ok.inj hs)).2]
    exact mirrors_unlinkHost ht h subnqn hostnqn
  | createPortid id fam typ req addr trsvcid =>
    have hs : spdkCreatePortid id fam typ req addr trsvcid s = .ok (ret, s') := hs
    refine ⟨fun _ => trivial, fun _ => ?_⟩
    obtain rfl | ⟨portid, hptr, -, rfl⟩ := createPortid_eq hs
    · exact h
    · exact mirrors_createPortid ht h hptr
  | deletePortid id =>
    rw [← (Prod.mk.inj (Except.ok.inj hs)).2]
    exact mirrors_deletePortid ht h id
  | linkPortToSubsys nqn id =>
    rw [← (Prod.mk.inj (Except.ok.inj hs)).2]
    exact ⟨fun _ => trivial, fun _ => mirrors_linkPort ht h nqn id⟩
  | unlinkPortFromSubsys nqn id =>
    rw [← (Prod.mk.inj (Except.ok.inj hs)).2]
    exact mirrors_unlinkPort ht h nqn id
  | resetConfig =>
    rw [← (Prod.mk.inj (Except.ok.inj hs)).2]
    exact mirrors_reset ht h

end

/-! ## Runs -/

/-- In a run whose operations all have what they need the tables say what SPDK provides. -/
theorem tables_mirror {s₀ s : State} (h : Run (Step net) (fun s op => op.Mirrored net s) s₀ s) (ht : Tables s₀)
    (hm : Mirrors s₀) : Mirrors s := by
  have hinv := h.invariant (I := fun s => Tables s ∧ Mirrors s) ⟨ht, hm⟩ (fun _ _ _ hi ha hs =>
    ⟨hi.1.step hs, (mirrors_step_iff hi.1 hi.2 hs).mpr ha⟩)
  exact hinv.2

theorem mirrors_empty : Mirrors {} := fun _ => trivial

/-- Every call goes well. -/
def calmNet : Nat → Int := fun _ => 0

def exampleNqn : String := "nqn.2019-01.com.host:a"

def exampleHost : String := "nqn.2019-01.com.host:h"

/-- A subsystem that is linked to a port and then to its first host. -/
theorem tables_mirror_linked : ∃ s : State, s.subsysList.map Subsys.hostList = [[exampleHost]] ∧ Mirrors s := by
  refine ⟨_, ?_, tables_mirror (.next (.next (.next (.next .start
    (show Op.Mirrored calmNet _ (.createSubsys exampleNqn 0) from fun _ _ => rfl) ⟨0, rfl⟩)
    (show Op.Mirrored calmNet _ (.createPortid 1 "ipv4" "tcp" 0 "10.0.0.1" 4420) from trivial) ⟨0, rfl⟩)
    (show Op.Mirrored calmNet _ (.linkPortToSubsys exampleNqn 1) from trivial) ⟨0, rfl⟩)
    (show Op.Mirrored calmNet _ (.linkHostToSubsys exampleNqn exampleHost) from fun _ _ _ _ _ _ => Or.inr ⟨rfl, rfl⟩)
    ⟨0, rfl⟩) tables_empty mirrors_empty⟩
  decide

/-- A subsystem that SPDK could not create is in the table. -/
theorem tables_mirror_failed :
    ¬∀ (net : Nat → Int) (s : State), Run (Step net) (fun _ _ => True) {} s → Mirrors s := by
  intro h
  have hm := h (fun _ => -1) (spdkCreateSubsys (fun _ => -1) exampleNqn 0 {}).2
    (.next .start trivial (show Step _ (.createSubsys exampleNqn 0) _ _ from ⟨-1, rfl⟩))
  exact hm exampleNqn

/-! ## Links -/

/-- Every link of a subsystem leads to a port that is on the list. -/
def LinksLive (s : State) : Prop :=
  ∀ subsys ∈ s.subsysList, ∀ ptr ∈ subsys.portidList, ∃ portid ∈ s.portidList, portid.ptr = ptr

/-- What an operation needs to leave no link to a port that it gives back: SPDK has to take the listeners away. -/
def Op.Unlinks (net : Nat → Int) (s : State) : Op → Prop
  | .deletePortid id =>
    ∀ portid, s.findPortid id = some portid → ∀ (j : Nat) subsys, s.subsysList[j]? = some subsys →
      portid.ptr ∈ subsys.portidList → net (s.sent + j) = 0 ∧ s.Listens subsys.nqn portid
  | _ => True

section

variable {s s' : State}

theorem linksLive_iff (ht : Tables s) :
    LinksLive s ↔ ∀ nqn subsys, s.findSubsys nqn = some subsys → ∀ ptr ∈ subsys.portidList, s.portAt ptr ≠ none := by
  have hport : ∀ ptr, (∃ portid ∈ s.portidList, portid.ptr = ptr) ↔ s.portAt ptr ≠ none := by
    intro ptr
    constructor
    · rintro ⟨portid, hp, rfl⟩
      rw [ht.portAt hp]
      simp
    · intro hne
      obtain ⟨portid, hp⟩ := Option.ne_none_iff_exists'.mp hne
      exact ⟨portid, portAt_mem hp, portAt_ptr hp⟩
  unfold LinksLive
  simp only [hport]
  constructor
  · exact fun h nqn subsys hs => h subsys (findSubsys_mem hs)
  · exact fun h subsys hs => h subsys.nqn subsys (ht.findSubsys hs)

/-- A subsystem whose links are no more than they were. -/
theorem LinksLive.touches (h : LinksLive s) (ht : Tables s) (ht' : Tables s') {nqn : String} (htouch : Touches nqn s s')
    (hl : ∀ subsys, s'.findSubsys nqn = some subsys → ∀ ptr ∈ subsys.portidList, s.portAt ptr ≠ none) : LinksLive s' := by
  rw [linksLive_iff ht', portAt_of_eq htouch.portidList]
  intro x subsys hs
  by_cases hx : x = nqn
  · subst hx
    exact hl subsys hs
  · rw [htouch.find x hx] at hs
    exact (linksLive_iff ht).mp h x subsys hs

theorem linksLive_linkPort (ht : Tables s) (h : LinksLive s) (nqn : String) (id : Int) :
    LinksLive (spdkLinkPortToSubsys net nqn id s).2 := by
  have ht' := ht.linkPort net nqn id
  cases hp : s.findPortid id with
  | none =>
    unfold spdkLinkPortToSubsys
    rw [hp]
    exact h
  | some portid =>
    cases hfind : s.findSubsys nqn with
    | none =>
      unfold spdkLinkPortToSubsys
      rw [hp, hfind]
      exact h
    | some subsys =>
      by_cases hm : portid.ptr ∈ subsys.portidList
      · unfold spdkLinkPortToSubsys
        rw [hp, hfind]
        dsimp only
        rw [if_pos hm]
        exact h
      · obtain ⟨htouch, -, -, hfinds⟩ := linkPort_eq net hp hfind hm
        refine h.touches ht ht' htouch (fun subsys' hs ptr hptr => ?_)
        rw [hfinds] at hs
        obtain rfl := Option.some.inj hs
        have hold := (linksLive_iff ht).mp h nqn subsys hfind ptr
        split at hptr
        · rcases List.mem_cons.mp hptr with rfl | hptr
          · rw [ht.portAt (findPortid_mem hp)]
            simp
          · exact hold hptr
        · exact hold hptr

theorem linksLive_unlinkPort (ht : Tables s) (h : LinksLive s) (nqn : String) (id : Int) :
    LinksLive (spdkUnlinkPortFromSubsys net nqn id s).2 := by
  have ht' : Tables (spdkUnlinkPortFromSubsys net nqn id s).2 := ht.unlinkPort nqn id
  cases hp : s.findPortid id with
  | none =>
    unfold spdkUnlinkPortFromSubsys
    rw [hp]
    exact h
  | some portid =>
    cases hfind : s.findSubsys nqn with
    | none =>
      unfold spdkUnlinkPortFromSubsys
      rw [hp, hfind]
      exact h
    | some subsys =>
      obtain ⟨htouch, -, -, hfinds⟩ := unlinkPort_eq net hp hfind
      refine h.touches ht ht' htouch (fun subsys' hs ptr hptr => ?_)
      rw [hfinds] at hs
      obtain rfl := Option.some.inj hs
      refine (linksLive_iff ht).mp h nqn subsys hfind ptr ?_
      split at hptr
      · exact List.mem_of_mem_erase hptr
      · exact hptr

theorem linksLive_unlinkHost (ht : Tables s) (h : LinksLive s) (subnqn hostnqn : String) :
    LinksLive (spdkUnlinkHostFromSubsys net subnqn hostnqn s).2 := by
  have ht' := ht.unlinkHost net subnqn hostnqn
  cases hfind : s.findSubsys subnqn with
  | none =>
    unfold spdkUnlinkHostFromSubsys
    rw [hfind]
    exact h
  | some subsys =>
    by_cases hm : hostnqn ∈ subsys.hostList
    · obtain ⟨htouch, -, hfinds⟩ := unlinkHost_eq net hfind hm
      refine h.touches ht ht' htouch (fun subsys' hs ptr hptr => ?_)
      rw [hfinds] at hs
      obtain rfl := Option.some.inj hs
      exact (linksLive_iff ht).mp h subnqn subsys hfind ptr hptr
    · unfold spdkUnlinkHostFromSubsys
      rw [hfind]
      dsimp only
      rw [if_neg hm]
      exact h

theorem linksLive_linkHost (ht : Tables s) (h : LinksLive s) {subnqn hostnqn : String} {ret : Int}
    (hs : spdkLinkHostToSubsys net subnqn hostnqn s = .ok (ret, s')) : LinksLive s' := by
  have ht' := ht.linkHost hs
  by_cases hv : validNqn hostnqn = true
  · cases hfind : s.findSubsys subnqn with
    | none =>
      unfold spdkLinkHostToSubsys at hs
      rw [hv, hfind] at hs
      obtain ⟨-, rfl⟩ := Prod.mk.inj (Except.ok.inj hs)
      exact h
    | some subsys =>
      by_cases hm : hostnqn ∈ subsys.hostList
      · unfold spdkLinkHostToSubsys at hs
        rw [hv, hfind] at hs
        dsimp only at hs
        rw [if_neg (by simp), if_pos hm] at hs
        obtain ⟨-, rfl⟩ := Prod.mk.inj (Except.ok.inj hs)
        exact h
      · have hports : ∃ ports, reconnected s subsys = .ok ports := by
          unfold reconnected
          split
          · have hlive : ∀ ptr ∈ subsys.portidList, ∃ portid, s.portAt ptr = some portid := fun ptr hptr =>
              Option.ne_none_iff_exists'.mp ((linksLive_iff ht).mp h subnqn subsys hfind ptr hptr)
            obtain ⟨ports, hports, -⟩ := linkedPorts_eq hlive
            exact ⟨ports, hports⟩
          · exact ⟨[], rfl⟩
        obtain ⟨ports, hports⟩ := hports
        obtain ⟨ret', s'', hok, htouch, hfinds, -⟩ := linkHost_eq net hv hfind hm hports
        obtain ⟨-, rfl⟩ := Prod.mk.inj (Except.ok.inj (hok.symm.trans hs))
        refine h.touches ht ht' htouch (fun subsys' hs' ptr hptr => ?_)
        rw [hfinds] at hs'
        obtain rfl := Option.some.inj hs'
        refine (linksLive_iff ht).mp h subnqn subsys hfind ptr ?_
        split at hptr
        · exact hptr
        · exact hptr
  · unfold spdkLinkHostToSubsys at hs
    rw [if_pos (by simpa using hv)] at hs
    obtain ⟨-, rfl⟩ := Prod.mk.inj (Except.ok.inj hs)
    exact h

theorem linksLive_create (ht : Tables s) (h : LinksLive s) (subnqn : String) (allowany : Int) :
    LinksLive (spdkCreateSubsys net subnqn allowany s).2 := by
  have ht' := ht.create net subnqn allowany
  by_cases hv : validNqn subnqn = true
  · cases hfind : s.findSubsys subnqn with
    | some subsys =>
      unfold spdkCreateSubsys
      rw [hv, hfind]
      exact h
    | none =>
      obtain ⟨hports, hfinds, -⟩ := createSubsys_eq net hv hfind allowany
      rw [linksLive_iff ht', portAt_of_eq hports]
      intro x subsys hs
      rw [hfinds] at hs
      split at hs
      · obtain rfl := Option.some.inj hs
        intro ptr hptr
        cases hptr
      · exact (linksLive_iff ht).mp h x subsys hs
  · unfold spdkCreateSubsys
    rw [if_pos (by simpa using hv)]
    exact h

theorem linksLive_delete (ht : Tables s) (h : LinksLive s) (nqn : String) : LinksLive (spdkDeleteSubsys net nqn s).2 := by
  have ht' := ht.deleteSubsys net nqn
  cases hfind : s.findSubsys nqn with
  | none =>
    unfold spdkDeleteSubsys
    rw [hfind]
    exact h
  | some subsys =>
    obtain ⟨hports, hfinds, -⟩ := deleteSubsys_eq net ht hfind
    rw [linksLive_iff ht', portAt_of_eq hports]
    intro x subsys' hs
    rw [hfinds] at hs
    split at hs
    · cases hs
    · exact (linksLive_iff ht).mp h x subsys' hs

/-- The call that takes a listener away goes well when it is not lost and the listener is there. -/
theorem answer_removeListener_fst (v : Int) (nqn : String) (portid : Portid) :
    (answer v (.removeListener portid.listener) (s.server nqn)).1 = 0 ↔ v = 0 ∧ s.Listens nqn portid := by
  unfold State.Listens
  by_cases hv : v = 0
  · subst hv
    cases hp : s.server nqn with
    | none => simp [answer, Method.act, invalidParams]
    | some p =>
      rw [answer_removeListener]
      by_cases hin : portid.listener ∈ p.listeners
      · simp [hin]
      · simp [hin, invalidParams]
  · rw [answer_of_ne hv]
    simp [hv]

theorem linksLive_deletePortid (ht : Tables s) (h : LinksLive s) (id : Int) :
    LinksLive (spdkDeletePortid net id s).2 ↔ Op.Unlinks net s (.deletePortid id) := by
  dsimp only [Op.Unlinks]
  unfold spdkDeletePortid
  cases hp : s.findPortid id with
  | none => exact ⟨fun _ portid hn => (by cases hn), fun _ => h⟩
  | some portid =>
    have hd := portDeleted net ht (findPortid_mem hp)
    dsimp only
    generalize deletePortid net portid s = s' at hd
    have hport := fun ptr => portAt_erase ht ptr hd.portidList
    rw [linksLive_iff hd.tables]
    constructor
    · intro hl portid' hp' j subsys hj hm
      obtain rfl := Option.some.inj hp'
      refine (answer_removeListener_fst _ subsys.nqn portid).mp (Classical.by_contradiction fun hne => ?_)
      have hfinds := congrArg Prod.fst (hd.subsys j subsys hj)
      dsimp only [unlinked] at hfinds
      rw [if_neg hne] at hfinds
      have hgone := hl subsys.nqn subsys hfinds portid.ptr hm
      rw [hport, if_pos rfl] at hgone
      exact hgone rfl
    · intro hall x subsys' hs' ptr hptr
      by_cases hx : x ∈ s.subsysList.map Subsys.nqn
      · obtain ⟨subsys, hs, rfl⟩ := List.mem_map.mp hx
        obtain ⟨j, hj⟩ := List.getElem?_of_mem hs
        have hold := (linksLive_iff ht).mp h subsys.nqn subsys (ht.findSubsys hs)
        have hfinds := congrArg Prod.fst (hd.subsys j subsys hj)
        dsimp only [unlinked] at hfinds
        obtain rfl := Option.some.inj (hs'.symm.trans hfinds)
        rw [hport]
        by_cases hm : portid.ptr ∈ subsys.portidList
        · rw [if_pos ((answer_removeListener_fst _ _ _).mpr (hall portid rfl j subsys hj hm))] at hptr
          obtain ⟨hne, hptr⟩ := (List.Nodup.mem_erase_iff (ht.listed subsys hs).links).mp hptr
          rw [if_neg hne]
          exact hold ptr hptr
        · have hptr' : ptr ∈ subsys.portidList := by
            split at hptr
            · exact List.mem_of_mem_erase hptr
            · exact hptr
          have hne : ptr ≠ portid.ptr := fun heq => hm (heq ▸ hptr')
          rw [if_neg hne]
          exact hold ptr hptr'
      · have hnone : s.findSubsys x = none :=
          List.find?_eq_none.mpr (fun y hy heq => hx (List.mem_map.mpr ⟨y, hy, beq_iff_eq.mp heq⟩))
        rw [(hd.others x hx).1, hnone] at hs'
        cases hs'

theorem linksLive_createPortid (h : LinksLive s) (portid : Portid) :
    LinksLive { s with portidList := portid :: s.portidList, next := s.next + 1 } := by
  intro subsys hs ptr hptr
  obtain ⟨p, hp, rfl⟩ := h subsys hs ptr hptr
  exact ⟨p, List.mem_cons_of_mem _ hp, rfl⟩

/-- A port is given back without a link to it being left when SPDK takes its listeners away, and only then. -/
theorem links_live_step_iff (ht : Tables s) (h : LinksLive s) {op : Op} (hs : Step net op s s') :
    LinksLive s' ↔ op.Unlinks net s := by
  obtain ⟨ret, hs⟩ := hs
  cases op with
  | deletePortid id =>
    rw [← (Prod.mk.inj (Except.ok.inj hs)).2]
    exact linksLive_deletePortid ht h id
  | createSubsys subnqn allowany =>
    rw [← (Prod.mk.inj (Except.ok.inj hs)).2]
    exact ⟨fun _ => trivial, fun _ => linksLive_create ht h subnqn allowany⟩
  | deleteSubsys nqn =>
    rw [← (Prod.mk.inj (Except.ok.inj hs)).2]
    exact ⟨fun _ => trivial, fun _ => linksLive_delete ht h nqn⟩
  | linkHostToSubsys subnqn hostnqn => exact ⟨fun _ => trivial, fun _ => linksLive_linkHost ht h hs⟩
  | unlinkHostFromSubsys subnqn hostnqn =>
    rw [← (Prod.mk.inj (Except.ok.inj hs)).2]
    exact ⟨fun _ => trivial, fun _ => linksLive_unlinkHost ht h subnqn hostnqn⟩
  | createPortid id fam typ req addr trsvcid =>
    have hs : spdkCreatePortid id fam typ req addr trsvcid s = .ok (ret, s') := hs
    refine ⟨fun _ => trivial, fun _ => ?_⟩
    obtain rfl | ⟨portid, -, -, rfl⟩ := createPortid_eq hs
    · exact h
    · exact linksLive_createPortid h portid
  | linkPortToSubsys nqn id =>
    rw [← (Prod.mk.inj (Except.ok.inj hs)).2]
    exact ⟨fun _ => trivial, fun _ => linksLive_linkPort ht h nqn id⟩
  | unlinkPortFromSubsys nqn id =>
    rw [← (Prod.mk.inj (Except.ok.inj hs)).2]
    exact ⟨fun _ => trivial, fun _ => linksLive_unlinkPort ht h nqn id⟩
  | resetConfig =>
    rw [← (Prod.mk.inj (Except.ok.inj hs)).2]
    refine ⟨fun _ => trivial, fun _ subsys hsub => ?_⟩
    rw [(resetConfig_eq net ht).2.1] at hsub
    cases hsub

end

/-- In a run in which SPDK takes the listeners of every deleted port away no link leads to a port that was given back. -/
theorem links_live {s₀ s : State} (h : Run (Step net) (fun s op => op.Unlinks net s) s₀ s) (ht : Tables s₀)
    (hl : LinksLive s₀) : LinksLive s := by
  have hinv := h.invariant (I := fun s => Tables s ∧ LinksLive s) ⟨ht, hl⟩ (fun _ _ _ hi ha hs =>
    ⟨hi.1.step hs, (links_live_step_iff hi.1 hi.2 hs).mpr ha⟩)
  exact hinv.2

theorem linksLive_empty : LinksLive {} := fun _ hs => by cases hs

/-- A port is linked and deleted again. -/
theorem links_live_deleted : ∃ s : State, s.subsysList.map Subsys.portidList = [[]] ∧ LinksLive s := by
  refine ⟨_, ?_, links_live (.next (.next (.next (.next .start
    (show Op.Unlinks calmNet _ (.createSubsys exampleNqn 0) from trivial) ⟨0, rfl⟩)
    (show Op.Unlinks calmNet _ (.createPortid 1 "ipv4" "tcp" 0 "10.0.0.1" 4420) from trivial) ⟨0, rfl⟩)
    (show Op.Unlinks calmNet _ (.linkPortToSubsys exampleNqn 1) from trivial) ⟨0, rfl⟩)
    (show Op.Unlinks calmNet _ (.deletePortid 1) from ?_) ⟨0, rfl⟩) tables_empty linksLive_empty⟩
  · decide
  · intro portid hp j subsys hj hm
    cases j with
    | zero =>
      obtain rfl := Option.some.inj hp
      obtain rfl := Option.some.inj hj
      exact ⟨rfl, _, rfl, by decide⟩
    | succ j =>
      have hj : (none : Option Subsys) = some subsys := hj
      cases hj

/-- The third call, which is to take the listener of the port away, fails. -/
theorem links_live_freed :
    ¬∀ (net : Nat → Int) (s : State), Run (Step net) (fun _ _ => True) {} s → LinksLive s := by
  intro h
  have hl := h (fun n => if n = 2 then -1 else 0) _ (.next (.next (.next (.next .start trivial
    (show Step _ (.createSubsys exampleNqn 0) _ _ from ⟨0, rfl⟩)) trivial
    (show Step _ (.createPortid 1 "ipv4" "tcp" 0 "10.0.0.1" 4420) _ _ from ⟨0, rfl⟩)) trivial
    (show Step _ (.linkPortToSubsys exampleNqn 1) _ _ from ⟨0, rfl⟩)) trivial
    (show Step _ (.deletePortid 1) _ _ from ⟨0, rfl⟩))
  obtain ⟨portid, hp, -⟩ := hl _ List.mem_cons_self 0 List.mem_cons_self
  cases hp

end NvmeDem.Spdk
