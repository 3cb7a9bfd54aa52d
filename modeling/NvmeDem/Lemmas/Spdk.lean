import Mathlib.Data.Finset.Dedup
import NvmeDem.Endpoint.Spdk

/-!
# What the operations of the SPDK back end change

An operation changes the subsystem that it names, in the table and at SPDK, and leaves the others (`Touches`). What its calls make
of the subsystem at SPDK is followed for that subsystem alone (`answer`, `answers`).
-/

namespace NvmeDem.Spdk

variable {net : Nat → Int}

/-! ## Calls -/

/-- The result of a call that fares as `v` on its way, and what it leaves of the subsystem. -/
def answer (v : Int) (method : Method) (p : Option Provided) : Int × Option Provided :=
  if v ≠ 0 then (v, p)
  else
    match method.act p with
    | none => (invalidParams, p)
    | some q => (0, q)

theorem answer_of_ne {v : Int} (hv : v ≠ 0) (method : Method) (p : Option Provided) : answer v method p = (v, p) := if_pos hv

theorem answer_addListener (p : Provided) (l : Listener) :
    answer 0 (.addListener l) (some p) =
      if l ∈ p.listeners then (invalidParams, some p) else (0, some { p with listeners := insert l p.listeners }) := by
  by_cases hl : l ∈ p.listeners <;> simp [answer, Method.act, hl]

theorem answer_removeListener (p : Provided) (l : Listener) :
    answer 0 (.removeListener l) (some p) =
      if l ∈ p.listeners then (0, some { p with listeners := p.listeners.erase l }) else (invalidParams, some p) := by
  by_cases hl : l ∈ p.listeners <;> simp [answer, Method.act, hl]

/-- What calls leave of a subsystem, the first of them the `n`-th of all. -/
def answers (net : Nat → Int) : Nat → List Method → Option Provided → Option Provided
  | _, [], p => p
  | n, method :: methods, p => answers net (n + 1) methods (answer (net n) method p).2

section

variable (net : Nat → Int) (nqn : String) (method : Method) (methods : List Method) (s : State)

theorem rpc_fst : (s.rpc net nqn method).1 = (answer (net s.sent) method (s.server nqn)).1 := by
  unfold State.rpc answer
  split
  · rfl
  · cases method.act (s.server nqn) <;> rfl

theorem rpc_server (x : String) :
    (s.rpc net nqn method).2.server x =
      if x = nqn then (answer (net s.sent) method (s.server nqn)).2 else s.server x := by
  unfold State.rpc answer
  split
  · split
    · rename_i hx
      rw [hx]
    · rfl
  · cases method.act (s.server nqn) with
    | none =>
      dsimp only
      split
      · rename_i hx
        rw [hx]
      · rfl
    | some p =>
      dsimp only
      rw [Function.update_apply]

/-- A call changes SPDK alone. -/
theorem rpc_tables : ∃ server, (s.rpc net nqn method).2 = { s with server := server, sent := s.sent + 1 } := by
  unfold State.rpc
  split
  · exact ⟨s.server, rfl⟩
  · cases method.act (s.server nqn) with
    | none => exact ⟨s.server, rfl⟩
    | some p => exact ⟨_, rfl⟩

@[simp] theorem rpc_sent : (s.rpc net nqn method).2.sent = s.sent + 1 := by
  obtain ⟨server, h⟩ := rpc_tables net nqn method s
  rw [h]

@[simp] theorem rpc_subsysList : (s.rpc net nqn method).2.subsysList = s.subsysList := by
  obtain ⟨server, h⟩ := rpc_tables net nqn method s
  rw [h]

@[simp] theorem rpc_portidList : (s.rpc net nqn method).2.portidList = s.portidList := by
  obtain ⟨server, h⟩ := rpc_tables net nqn method s
  rw [h]

@[simp] theorem rpc_next : (s.rpc net nqn method).2.next = s.next := by
  obtain ⟨server, h⟩ := rpc_tables net nqn method s
  rw [h]

theorem rpcs_tables :
    ∃ server, s.rpcs net nqn methods = { s with server := server, sent := s.sent + methods.length } := by
  induction methods generalizing s with
  | nil => exact ⟨s.server, rfl⟩
  | cons method methods ih =>
    obtain ⟨server, h⟩ := rpc_tables net nqn method s
    obtain ⟨server', h'⟩ := ih (s.rpc net nqn method).2
    refine ⟨server', ?_⟩
    unfold State.rpcs at h' ⊢
    rw [List.foldl_cons, h', h, List.length_cons]
    simp only [State.mk.injEq, true_and]
    omega

theorem rpcs_server (x : String) :
    (s.rpcs net nqn methods).server x =
      if x = nqn then answers net s.sent methods (s.server nqn) else s.server x := by
  induction methods generalizing s with
  | nil =>
    split
    · rename_i hx
      rw [hx]
      rfl
    · rfl
  | cons method methods ih =>
    have h := ih (s.rpc net nqn method).2
    unfold State.rpcs at h ⊢
    rw [List.foldl_cons, h, rpc_sent, rpc_server, rpc_server, if_pos rfl]
    split
    · rfl
    · rfl

@[simp] theorem rpcs_subsysList : (s.rpcs net nqn methods).subsysList = s.subsysList := by
  obtain ⟨server, h⟩ := rpcs_tables net nqn methods s
  rw [h]

@[simp] theorem rpcs_portidList : (s.rpcs net nqn methods).portidList = s.portidList := by
  obtain ⟨server, h⟩ := rpcs_tables net nqn methods s
  rw [h]

@[simp] theorem rpcs_next : (s.rpcs net nqn methods).next = s.next := by
  obtain ⟨server, h⟩ := rpcs_tables net nqn methods s
  rw [h]

@[simp] theorem rpcs_sent : (s.rpcs net nqn methods).sent = s.sent + methods.length := by
  obtain ⟨server, h⟩ := rpcs_tables net nqn methods s
  rw [h]

end

/-- Listeners that are taken away one after the other: one is left when every call for it failed. -/
theorem answers_removeListeners (net : Nat → Int) (ls : List Listener) (n : Nat) (p : Provided) :
    ∃ q, answers net n (ls.map .removeListener) (some p) = some q ∧ q.hosts = p.hosts ∧
      ∀ l, l ∈ q.listeners ↔ l ∈ p.listeners ∧ ∀ i : Nat, ls[i]? = some l → net (n + i) ≠ 0 := by
  induction ls generalizing n p with
  | nil => exact ⟨p, rfl, rfl, fun l => by simp⟩
  | cons l₀ ls ih =>
    -- What the first call leaves; `keep` says which of the listeners there were are left.
    obtain ⟨p₁, hp₁, hhosts, hmem⟩ : ∃ p₁, (answer (net n) (.removeListener l₀) (some p)).2 = some p₁ ∧ p₁.hosts = p.hosts ∧
        ∀ l, l ∈ p₁.listeners ↔ l ∈ p.listeners ∧ (l = l₀ → net n ≠ 0) := by
      by_cases hv : net n = 0
      · rw [hv, answer_removeListener]
        by_cases hl : l₀ ∈ p.listeners
        · refine ⟨{ p with listeners := p.listeners.erase l₀ }, by rw [if_pos hl], rfl, fun l => ?_⟩
          rw [Finset.mem_erase]
          tauto
        · refine ⟨p, by rw [if_neg hl], rfl, fun l => ⟨fun h => ⟨h, ?_⟩, fun h => h.1⟩⟩
          rintro rfl
          exact absurd h hl
      · exact ⟨p, by rw [answer_of_ne hv], rfl, fun l => by simp [hv]⟩
    obtain ⟨q, hq, hqh, hqm⟩ := ih (n + 1) p₁
    refine ⟨q, ?_, hqh.trans hhosts, fun l => ?_⟩
    · rw [List.map_cons, answers, hp₁, hq]
    · rw [hqm, hmem]
      constructor
      · rintro ⟨⟨hl, h0⟩, hrest⟩
        refine ⟨hl, fun i hi => ?_⟩
        cases i with
        | zero => exact h0 (Option.some.inj hi).symm
        | succ i =>
          have h := hrest i hi
          rwa [Nat.add_right_comm, Nat.add_assoc] at h
      · rintro ⟨hl, hall⟩
        refine ⟨⟨hl, fun h => hall 0 (by rw [h]; rfl)⟩, fun i hi => ?_⟩
        have h := hall (i + 1) hi
        rwa [← Nat.add_assoc, Nat.add_right_comm] at h

/-- Listeners that are added one after the other: one is there when it was there or a call for it went well. -/
theorem answers_addListeners (net : Nat → Int) (ls : List Listener) (n : Nat) (p : Provided) :
    ∃ q, answers net n (ls.map .addListener) (some p) = some q ∧ q.hosts = p.hosts ∧
      ∀ l, l ∈ q.listeners ↔ l ∈ p.listeners ∨ ∃ i : Nat, ls[i]? = some l ∧ net (n + i) = 0 := by
  induction ls generalizing n p with
  | nil => exact ⟨p, rfl, rfl, fun l => by simp⟩
  | cons l₀ ls ih =>
    obtain ⟨p₁, hp₁, hhosts, hmem⟩ : ∃ p₁, (answer (net n) (.addListener l₀) (some p)).2 = some p₁ ∧ p₁.hosts = p.hosts ∧
        ∀ l, l ∈ p₁.listeners ↔ l ∈ p.listeners ∨ (l = l₀ ∧ net n = 0) := by
      by_cases hv : net n = 0
      · rw [hv, answer_addListener]
        by_cases hl : l₀ ∈ p.listeners
        · refine ⟨p, by rw [if_pos hl], rfl, fun l => ⟨Or.inl, ?_⟩⟩
          rintro (h | ⟨rfl, -⟩)
          · exact h
          · exact hl
        · refine ⟨{ p with listeners := insert l₀ p.listeners }, by rw [if_neg hl], rfl, fun l => ?_⟩
          rw [Finset.mem_insert]
          tauto
      · exact ⟨p, by rw [answer_of_ne hv], rfl, fun l => by simp [hv]⟩
    obtain ⟨q, hq, hqh, hqm⟩ := ih (n + 1) p₁
    refine ⟨q, ?_, hqh.trans hhosts, fun l => ?_⟩
    · rw [List.map_cons, answers, hp₁, hq]
    · rw [hqm, hmem]
      constructor
      · rintro ((hl | ⟨rfl, h0⟩) | ⟨i, hi, hz⟩)
        · exact Or.inl hl
        · exact Or.inr ⟨0, rfl, h0⟩
        · exact Or.inr ⟨i + 1, hi, by rwa [Nat.add_right_comm, Nat.add_assoc] at hz⟩
      · rintro (hl | ⟨i, hi, hz⟩)
        · exact Or.inl (Or.inl hl)
        · cases i with
          | zero => exact Or.inl (Or.inr ⟨(Option.some.inj hi).symm, hz⟩)
          | succ i => exact Or.inr ⟨i, hi, by rwa [Nat.add_right_comm, Nat.add_assoc]⟩

/-! ## Tables -/

/-- What holds of a subsystem of the table: no host is there twice, and no port. -/
structure Subsys.Listed (next : Nat) (subsys : Subsys) : Prop where
  hosts : subsys.hostList.Nodup
  links : subsys.portidList.Nodup
  bound : ∀ ptr ∈ subsys.portidList, ptr < next

/-- What holds of the tables whatever SPDK answers: NQNs and port numbers are distinct, and so are the addresses of ports. -/
structure Tables (s : State) : Prop where
  nqns : (s.subsysList.map Subsys.nqn).Nodup
  ids : (s.portidList.map Portid.portid).Nodup
  ptrs : (s.portidList.map Portid.ptr).Nodup
  fresh : ∀ portid ∈ s.portidList, portid.ptr < s.next
  listed : ∀ subsys ∈ s.subsysList, subsys.Listed s.next

theorem tables_empty : Tables {} where
  nqns := List.nodup_nil
  ids := List.nodup_nil
  ptrs := List.nodup_nil
  fresh := by simp
  listed := by simp

section

variable {s : State} {nqn : String} {f : Subsys → Subsys}

theorem Tables.of_eq {s' : State} (h : Tables s) (hsubsys : s'.subsysList = s.subsysList)
    (hportid : s'.portidList = s.portidList) (hnext : s'.next = s.next) : Tables s' where
  nqns := hsubsys ▸ h.nqns
  ids := hportid ▸ h.ids
  ptrs := hportid ▸ h.ptrs
  fresh := by rw [hportid, hnext]; exact h.fresh
  listed := by rw [hsubsys, hnext]; exact h.listed

theorem Tables.rpc (h : Tables s) (nqn : String) (method : Method) : Tables (s.rpc net nqn method).2 :=
  h.of_eq (rpc_subsysList net nqn method s) (rpc_portidList net nqn method s) (rpc_next net nqn method s)

theorem Tables.rpcs (h : Tables s) (nqn : String) (methods : List Method) : Tables (s.rpcs net nqn methods) :=
  h.of_eq (rpcs_subsysList net nqn methods s) (rpcs_portidList net nqn methods s) (rpcs_next net nqn methods s)

theorem Tables.onSubsys (h : Tables s) (hf : ∀ subsys, (f subsys).nqn = subsys.nqn)
    (hl : ∀ subsys, s.findSubsys nqn = some subsys → subsys.Listed s.next → (f subsys).Listed s.next) :
    Tables (s.onSubsys nqn f) where
  nqns := by
    unfold State.onSubsys
    rw [Keyed.map_modifyFirst_same hf]
    exact h.nqns
  ids := h.ids
  ptrs := h.ptrs
  fresh := h.fresh
  listed := by
    intro subsys hs
    rcases Keyed.mem_modifyFirst_find hs with hs | ⟨x, hx, hfind, rfl⟩
    · exact h.listed subsys hs
    · exact hl x hfind (h.listed x hx)

theorem Tables.eraseSubsys (h : Tables s) (p : Subsys → Bool) : Tables { s with subsysList := s.subsysList.eraseP p } where
  nqns := h.nqns.sublist (List.eraseP_sublist.map Subsys.nqn)
  ids := h.ids
  ptrs := h.ptrs
  fresh := h.fresh
  listed := fun subsys hs => h.listed subsys (List.mem_of_mem_eraseP hs)

theorem Tables.erasePortid (h : Tables s) (p : Portid → Bool) : Tables { s with portidList := s.portidList.eraseP p } where
  nqns := h.nqns
  ids := h.ids.sublist (List.eraseP_sublist.map Portid.portid)
  ptrs := h.ptrs.sublist (List.eraseP_sublist.map Portid.ptr)
  fresh := fun portid hp => h.fresh portid (List.mem_of_mem_eraseP hp)
  listed := h.listed

theorem findSubsys_nqn {subsys : Subsys} (h : s.findSubsys nqn = some subsys) : subsys.nqn = nqn := by
  unfold State.findSubsys at h
  have hp := List.find?_some h
  exact beq_iff_eq.mp hp

theorem findSubsys_mem {subsys : Subsys} (h : s.findSubsys nqn = some subsys) : subsys ∈ s.subsysList :=
  List.mem_of_find?_eq_some h

theorem Tables.findSubsys (h : Tables s) {subsys : Subsys} (hs : subsys ∈ s.subsysList) :
    s.findSubsys subsys.nqn = some subsys := Keyed.find?_of_mem h.nqns hs

theorem Tables.findPortid (h : Tables s) {portid : Portid} (hp : portid ∈ s.portidList) :
    s.findPortid portid.portid = some portid := Keyed.find?_of_mem h.ids hp

theorem Tables.portAt (h : Tables s) {portid : Portid} (hp : portid ∈ s.portidList) : s.portAt portid.ptr = some portid :=
  Keyed.find?_of_mem h.ptrs hp

theorem findPortid_mem {portid : Portid} {id : Int} (h : s.findPortid id = some portid) : portid ∈ s.portidList :=
  List.mem_of_find?_eq_some h

theorem portAt_ptr {portid : Portid} {ptr : Nat} (h : s.portAt ptr = some portid) : portid.ptr = ptr := by
  unfold State.portAt at h
  have hp := List.find?_some h
  exact beq_iff_eq.mp hp

theorem portAt_mem {portid : Portid} {ptr : Nat} (h : s.portAt ptr = some portid) : portid ∈ s.portidList :=
  List.mem_of_find?_eq_some h

theorem findSubsys_onSubsys (hf : ∀ subsys, (f subsys).nqn = subsys.nqn) :
    (s.onSubsys nqn f).findSubsys nqn = (s.findSubsys nqn).map f := by
  unfold State.findSubsys State.onSubsys
  exact Keyed.find?_modifyFirst (fun x _ hx => by rw [hf]; exact hx)

theorem findSubsys_onSubsys_of_ne (hf : ∀ subsys, (f subsys).nqn = subsys.nqn) {x : String} (hx : x ≠ nqn) :
    (s.onSubsys nqn f).findSubsys x = s.findSubsys x := by
  unfold State.findSubsys State.onSubsys
  refine Keyed.find?_modifyFirst_of_not (fun subsys _ hs => ?_)
  rw [hf, beq_iff_eq.mp hs]
  simpa using Ne.symm hx

end

/-! ## Operations on one subsystem -/

/-- The subsystem with an NQN may have changed, in the table and at SPDK, and nothing else. -/
structure Touches (nqn : String) (s s' : State) : Prop where
  portidList : s'.portidList = s.portidList
  next : s'.next = s.next
  names : s'.subsysList.map Subsys.nqn = s.subsysList.map Subsys.nqn
  find : ∀ x, x ≠ nqn → s'.findSubsys x = s.findSubsys x
  server : ∀ x, x ≠ nqn → s'.server x = s.server x

section

variable {s : State} {nqn : String}

theorem Touches.refl (nqn : String) (s : State) : Touches nqn s s := ⟨rfl, rfl, rfl, fun _ _ => rfl, fun _ _ => rfl⟩

theorem Touches.trans {s' s'' : State} (h : Touches nqn s s') (h' : Touches nqn s' s'') : Touches nqn s s'' where
  portidList := h'.portidList.trans h.portidList
  next := h'.next.trans h.next
  names := h'.names.trans h.names
  find := fun x hx => (h'.find x hx).trans (h.find x hx)
  server := fun x hx => (h'.server x hx).trans (h.server x hx)

theorem touches_rpc (method : Method) : Touches nqn s (s.rpc net nqn method).2 where
  portidList := rpc_portidList net nqn method s
  next := rpc_next net nqn method s
  names := by rw [rpc_subsysList]
  find := fun x _ => by unfold State.findSubsys; rw [rpc_subsysList]
  server := fun x hx => by rw [rpc_server, if_neg hx]

theorem touches_rpcs (methods : List Method) : Touches nqn s (s.rpcs net nqn methods) where
  portidList := rpcs_portidList net nqn methods s
  next := rpcs_next net nqn methods s
  names := by rw [rpcs_subsysList]
  find := fun x _ => by unfold State.findSubsys; rw [rpcs_subsysList]
  server := fun x hx => by rw [rpcs_server, if_neg hx]

theorem touches_onSubsys {f : Subsys → Subsys} (hf : ∀ subsys, (f subsys).nqn = subsys.nqn) :
    Touches nqn s (s.onSubsys nqn f) where
  portidList := rfl
  next := rfl
  names := Keyed.map_modifyFirst_same hf s.subsysList
  find := fun _ hx => findSubsys_onSubsys_of_ne hf hx
  server := fun _ _ => rfl

/-- A call, and a change of the table when it went well. -/
theorem callThen_eq (net : Nat → Int) (method : Method) (f : Subsys → Subsys) (hf : ∀ subsys, (f subsys).nqn = subsys.nqn) {subsys : Subsys}
    (hs : s.findSubsys nqn = some subsys) :
    let out := s.rpc net nqn method
    let s' := if out.1 ≠ 0 then out.2 else out.2.onSubsys nqn f
    let ans := answer (net s.sent) method (s.server nqn)
    Touches nqn s s' ∧ s'.sent = s.sent + 1 ∧ s'.server nqn = ans.2 ∧
      s'.findSubsys nqn = some (if ans.1 = 0 then f subsys else subsys) := by
  dsimp only
  have hfind : (s.rpc net nqn method).2.findSubsys nqn = some subsys := by
    unfold State.findSubsys
    rw [rpc_subsysList]
    exact hs
  have hserver : (s.rpc net nqn method).2.server nqn = (answer (net s.sent) method (s.server nqn)).2 := by
    rw [rpc_server, if_pos rfl]
  rw [rpc_fst]
  by_cases hrc : (answer (net s.sent) method (s.server nqn)).1 = 0
  · rw [if_neg (not_not.mpr hrc), if_pos hrc]
    refine ⟨(touches_rpc method).trans (touches_onSubsys hf), rpc_sent net nqn method s, hserver, ?_⟩
    rw [findSubsys_onSubsys hf, hfind]
    rfl
  · rw [if_pos hrc, if_neg hrc]
    exact ⟨touches_rpc method, rpc_sent net nqn method s, hserver, hfind⟩

def Subsys.link (ptr : Nat) (subsys : Subsys) : Subsys := { subsys with portidList := ptr :: subsys.portidList }

def Subsys.unlink (ptr : Nat) (subsys : Subsys) : Subsys := { subsys with portidList := subsys.portidList.erase ptr }

def Subsys.addHost (host : String) (subsys : Subsys) : Subsys := { subsys with hostList := subsys.hostList ++ [host] }

def Subsys.removeHost (host : String) (subsys : Subsys) : Subsys := { subsys with hostList := subsys.hostList.erase host }

theorem unlinkPort_snd {id : Int} {portid : Portid} {subsys : Subsys} (hp : s.findPortid id = some portid)
    (hs : s.findSubsys nqn = some subsys) :
    (spdkUnlinkPortFromSubsys net nqn id s).2 =
      if (s.rpc net nqn (.removeListener portid.listener)).1 ≠ 0 then (s.rpc net nqn (.removeListener portid.listener)).2
      else (s.rpc net nqn (.removeListener portid.listener)).2.onSubsys nqn (Subsys.unlink portid.ptr) := by
  unfold spdkUnlinkPortFromSubsys
  rw [hp, hs]
  dsimp only
  rw [findSubsys_nqn hs]
  split <;> rfl

theorem unlinkPort_eq (net : Nat → Int) {id : Int} {portid : Portid} {subsys : Subsys} (hp : s.findPortid id = some portid)
    (hs : s.findSubsys nqn = some subsys) :
    let s' := (spdkUnlinkPortFromSubsys net nqn id s).2
    let ans := answer (net s.sent) (.removeListener portid.listener) (s.server nqn)
    Touches nqn s s' ∧ s'.sent = s.sent + 1 ∧ s'.server nqn = ans.2 ∧
      s'.findSubsys nqn = some (if ans.1 = 0 then subsys.unlink portid.ptr else subsys) := by
  dsimp only
  rw [unlinkPort_snd hp hs]
  exact callThen_eq net (.removeListener portid.listener) (Subsys.unlink portid.ptr) (fun _ => rfl) hs

theorem linkPort_eq (net : Nat → Int) {id : Int} {portid : Portid} {subsys : Subsys} (hp : s.findPortid id = some portid)
    (hs : s.findSubsys nqn = some subsys) (hl : portid.ptr ∉ subsys.portidList) :
    let s' := (spdkLinkPortToSubsys net nqn id s).2
    let ans := answer (net s.sent) (.addListener portid.listener) (s.server nqn)
    Touches nqn s s' ∧ s'.sent = s.sent + 1 ∧ s'.server nqn = ans.2 ∧
      s'.findSubsys nqn = some (if ans.1 = 0 then subsys.link portid.ptr else subsys) := by
  have heq : (spdkLinkPortToSubsys net nqn id s).2 =
      if (s.rpc net nqn (.addListener portid.listener)).1 ≠ 0 then (s.rpc net nqn (.addListener portid.listener)).2
      else (s.rpc net nqn (.addListener portid.listener)).2.onSubsys nqn (Subsys.link portid.ptr) := by
    unfold spdkLinkPortToSubsys
    rw [hp, hs]
    dsimp only
    rw [if_neg hl, findSubsys_nqn hs]
    split <;> rfl
  dsimp only
  rw [heq]
  exact callThen_eq net (.addListener portid.listener) (Subsys.link portid.ptr) (fun _ => rfl) hs

/-- The host leaves the table whether or not SPDK takes it away. -/
theorem unlinkHost_eq (net : Nat → Int) {host : String} {subsys : Subsys} (hs : s.findSubsys nqn = some subsys) (hh : host ∈ subsys.hostList) :
    let s' := (spdkUnlinkHostFromSubsys net nqn host s).2
    Touches nqn s s' ∧ s'.server nqn = (answer (net s.sent) (.removeHost host) (s.server nqn)).2 ∧
      s'.findSubsys nqn = some (subsys.removeHost host) := by
  have heq : (spdkUnlinkHostFromSubsys net nqn host s).2 =
      (s.rpc net nqn (.removeHost host)).2.onSubsys nqn (Subsys.removeHost host) := by
    unfold spdkUnlinkHostFromSubsys
    rw [hs]
    dsimp only
    rw [if_pos hh, findSubsys_nqn hs]
    rfl
  dsimp only
  rw [heq]
  refine ⟨(touches_rpc _).trans (touches_onSubsys (fun _ => rfl)), ?_, ?_⟩
  · have h := rpc_server net nqn (.removeHost host) s nqn
    rw [if_pos rfl] at h
    exact h
  · rw [findSubsys_onSubsys (f := Subsys.removeHost host) (fun _ => rfl)]
    unfold State.findSubsys at hs ⊢
    rw [rpc_subsysList, hs]
    rfl

/-- A host that is new, while the listeners of `ports` are taken away. -/
theorem linkHost_eq (net : Nat → Int) {host : String} {subsys : Subsys} {ports : List Portid} (hv : validNqn host = true)
    (hs : s.findSubsys nqn = some subsys) (hh : host ∉ subsys.hostList)
    (hports : reconnected s subsys = .ok ports) :
    ∃ ret s', spdkLinkHostToSubsys net nqn host s = .ok (ret, s') ∧ Touches nqn s s' ∧
      let ls := ports.map Portid.listener
      let p := answers net s.sent (ls.map .removeListener) (s.server nqn)
      let ans := answer (net (s.sent + ls.length)) (.addHost host) p
      s'.findSubsys nqn = some (if ans.1 = 0 then subsys.addHost host else subsys) ∧
      s'.server nqn = if ans.1 = 0 then answers net (s.sent + ls.length + 1) (ls.map .addListener) ans.2 else ans.2 := by
  generalize hls : ports.map Portid.listener = ls
  generalize hs₁ : s.rpcs net nqn (ls.map .removeListener) = s₁
  have hsent : s₁.sent = s.sent + ls.length := by rw [← hs₁, rpcs_sent, List.length_map]
  have hserver : s₁.server nqn = answers net s.sent (ls.map .removeListener) (s.server nqn) := by
    rw [← hs₁, rpcs_server, if_pos rfl]
  have hfind : s₁.findSubsys nqn = some subsys := by
    rw [← hs₁]
    unfold State.findSubsys
    rw [rpcs_subsysList]
    exact hs
  have htouch : Touches nqn s s₁ := hs₁ ▸ touches_rpcs _
  have hfst := rpc_fst net nqn (.addHost host) s₁
  have hrm : ports.map (fun p => Method.removeListener p.listener) = ls.map .removeListener := by
    rw [← hls, List.map_map]
    rfl
  have hadd : ports.map (fun p => Method.addListener p.listener) = ls.map .addListener := by
    rw [← hls, List.map_map]
    rfl
  have heq : spdkLinkHostToSubsys net nqn host s =
      if (s₁.rpc net nqn (.addHost host)).1 ≠ 0 then .ok (s₁.rpc net nqn (.addHost host))
      else .ok (0, ((s₁.rpc net nqn (.addHost host)).2.onSubsys nqn (Subsys.addHost host)).rpcs net nqn
        (ls.map .addListener)) := by
    unfold spdkLinkHostToSubsys
    rw [hv, hs]
    dsimp only
    rw [if_neg (by simp), if_neg hh, hports, findSubsys_nqn hs]
    dsimp only [bind, Except.bind]
    rw [hrm, hadd, hs₁]
    rfl
  obtain ⟨h1, h2, h3, h4⟩ := callThen_eq net (.addHost host) (Subsys.addHost host) (fun _ => rfl) hfind
  rw [hsent, hserver] at hfst h3 h4
  dsimp only
  by_cases hrc : (s₁.rpc net nqn (.addHost host)).1 = 0
  · rw [if_neg (not_not.mpr hrc)] at heq h1 h2 h3 h4
    refine ⟨_, _, heq, htouch.trans (h1.trans (touches_rpcs _)), ?_, ?_⟩
    · unfold State.findSubsys at h4 ⊢
      rw [rpcs_subsysList, h4]
    · rw [hfst] at hrc
      rw [rpcs_server, if_pos rfl, h2, h3, hsent, if_pos hrc]
  · rw [if_pos hrc] at heq h1 h2 h3 h4
    refine ⟨_, (s₁.rpc net nqn (.addHost host)).2, heq, htouch.trans h1, h4, ?_⟩
    rw [hfst] at hrc
    rw [h3, if_neg hrc]

end

/-! ## Creating and deleting a subsystem -/

section

variable {s : State}

/-- A subsystem that is new is in the table, whatever SPDK answers. -/
theorem createSubsys_eq (net : Nat → Int) {subnqn : String} (hv : validNqn subnqn = true) (hfind : s.findSubsys subnqn = none)
    (allowany : Int) :
    let s' := (spdkCreateSubsys net subnqn allowany s).2
    s'.portidList = s.portidList ∧
      (∀ x, s'.findSubsys x =
        if x = subnqn then some { nqn := subnqn, allowany := decide (allowany ≠ 0) } else s.findSubsys x) ∧
      ∀ x, s'.server x =
        if x = subnqn then (answer (net s.sent) (.subsystemCreate (decide (allowany ≠ 0))) (s.server subnqn)).2
        else s.server x := by
  unfold spdkCreateSubsys
  rw [hv, hfind, if_neg (by simp), if_neg (by simp)]
  dsimp only
  refine ⟨rpc_portidList _ _ _ _, fun x => ?_, fun x => rpc_server _ _ _ _ x⟩
  unfold State.findSubsys
  rw [rpc_subsysList, List.find?_cons]
  by_cases hx : x = subnqn
  · subst hx
    simp
  · rw [if_neg hx, beq_false_of_ne (Ne.symm hx)]

/-- A subsystem is off the table, whatever SPDK answers. -/
theorem deleteSubsys_eq (net : Nat → Int) (h : Tables s) {nqn : String} {subsys : Subsys}
    (hfind : s.findSubsys nqn = some subsys) :
    let s' := (spdkDeleteSubsys net nqn s).2
    s'.portidList = s.portidList ∧ (∀ x, s'.findSubsys x = if x = nqn then none else s.findSubsys x) ∧
      ∀ x, s'.server x = if x = nqn then (answer (net s.sent) .deleteSubsystem (s.server nqn)).2 else s.server x := by
  unfold spdkDeleteSubsys
  rw [hfind]
  dsimp only
  rw [findSubsys_nqn hfind]
  refine ⟨rpc_portidList _ _ _ _, fun x => ?_, fun x => rpc_server _ _ _ _ x⟩
  unfold State.findSubsys
  dsimp only
  rw [rpc_subsysList]
  by_cases hx : x = nqn
  · subst hx
    rw [if_pos rfl]
    exact List.find?_eq_none.mpr (fun y hy heq => (Keyed.mem_eraseP_of_nodup h.nqns hy).2 (beq_iff_eq.mp heq))
  · rw [if_neg hx]
    exact Keyed.find?_eraseP_of_not (fun y _ hy => by rw [beq_iff_eq.mp hy]; simpa using Ne.symm hx)

end

/-! ## Deleting a port -/

section

variable {s : State}

theorem Subsys.Listed.unlink {next : Nat} {subsys : Subsys} (h : subsys.Listed next) (ptr : Nat) :
    (subsys.unlink ptr).Listed next where
  hosts := h.hosts
  links := h.links.erase ptr
  bound := fun p hp => h.bound p (List.mem_of_mem_erase hp)

theorem Tables.unlinkPort (h : Tables s) (nqn : String) (id : Int) : Tables (spdkUnlinkPortFromSubsys net nqn id s).2 := by
  cases hp : s.findPortid id with
  | none =>
    unfold spdkUnlinkPortFromSubsys
    rw [hp]
    exact h
  | some portid =>
    cases hs : s.findSubsys nqn with
    | none =>
      unfold spdkUnlinkPortFromSubsys
      rw [hp, hs]
      exact h
    | some subsys =>
      rw [unlinkPort_snd hp hs]
      split
      · exact h.rpc nqn _
      · refine (h.rpc nqn _).onSubsys (fun _ => rfl) (fun subsys _ hl => hl.unlink portid.ptr)

/-- What a subsystem is after a port was unlinked that fared as `v`. -/
def unlinked (v : Int) (portid : Portid) (subsys : Subsys) (p : Option Provided) : Option Subsys × Option Provided :=
  let ans := answer v (.removeListener portid.listener) p
  (some (if ans.1 = 0 then subsys.unlink portid.ptr else subsys), ans.2)

/-- A port is unlinked from one subsystem after the other. -/
theorem unlinkAll_eq (net : Nat → Int) {portid : Portid} (subs : List Subsys) (h : Tables s) (hp : s.findPortid portid.portid = some portid)
    (hd : (subs.map Subsys.nqn).Nodup) (hs : ∀ subsys ∈ subs, s.findSubsys subsys.nqn = some subsys) :
    let s' := subs.foldl (fun s subsys => (spdkUnlinkPortFromSubsys net subsys.nqn portid.portid s).2) s
    Tables s' ∧ s'.portidList = s.portidList ∧ s'.next = s.next ∧
      s'.subsysList.map Subsys.nqn = s.subsysList.map Subsys.nqn ∧ s'.sent = s.sent + subs.length ∧
      (∀ x, x ∉ subs.map Subsys.nqn → s'.findSubsys x = s.findSubsys x ∧ s'.server x = s.server x) ∧
      ∀ (j : Nat) subsys, subs[j]? = some subsys →
        (s'.findSubsys subsys.nqn, s'.server subsys.nqn) =
          unlinked (net (s.sent + j)) portid subsys (s.server subsys.nqn) := by
  induction subs generalizing s with
  | nil => exact ⟨h, rfl, rfl, rfl, rfl, fun _ _ => ⟨rfl, rfl⟩, fun j subsys hj => by simp at hj⟩
  | cons subsys₀ subs ih =>
    rw [List.map_cons, List.nodup_cons] at hd
    obtain ⟨ht, hsent, hserver, hfind⟩ := unlinkPort_eq net hp (hs subsys₀ List.mem_cons_self)
    generalize hs₁ : (spdkUnlinkPortFromSubsys net subsys₀.nqn portid.portid s).2 = s₁ at ht hsent hserver hfind
    have hne : ∀ subsys ∈ subs, subsys.nqn ≠ subsys₀.nqn :=
      fun subsys hm heq => hd.1 (List.mem_map.mpr ⟨subsys, hm, heq⟩)
    have hp₁ : s₁.findPortid portid.portid = some portid := by
      unfold State.findPortid
      rw [ht.portidList]
      exact hp
    have hs₁' : ∀ subsys ∈ subs, s₁.findSubsys subsys.nqn = some subsys := fun subsys hm => by
      rw [ht.find _ (hne subsys hm)]
      exact hs subsys (List.mem_cons_of_mem _ hm)
    obtain ⟨h1, h2, h3, h4, h5, h6, h7⟩ := ih (hs₁ ▸ h.unlinkPort subsys₀.nqn portid.portid) hp₁ hd.2 hs₁'
    dsimp only
    rw [List.foldl_cons, hs₁]
    refine ⟨h1, h2.trans ht.portidList, h3.trans ht.next, h4.trans ht.names, ?_, fun x hx => ?_, fun j subsys hj => ?_⟩
    · rw [h5, hsent, List.length_cons]
      omega
    · rw [List.map_cons, List.mem_cons, not_or] at hx
      obtain ⟨hf, hv⟩ := h6 x hx.2
      exact ⟨hf.trans (ht.find x hx.1), hv.trans (ht.server x hx.1)⟩
    · cases j with
      | zero =>
        obtain rfl : subsys₀ = subsys := Option.some.inj hj
        obtain ⟨hf, hv⟩ := h6 subsys₀.nqn hd.1
        rw [hf, hv, hfind, hserver]
        rfl
      | succ j =>
        have hm : subsys ∈ subs := List.mem_of_getElem? hj
        rw [h7 j subsys hj, hsent, ht.server _ (hne subsys hm), Nat.add_assoc, Nat.add_comm 1 j]

/-- What is left when a port is deleted. -/
structure PortDeleted (net : Nat → Int) (portid : Portid) (s s' : State) : Prop where
  tables : Tables s'
  portidList : s'.portidList = s.portidList.eraseP (fun p => p.ptr == portid.ptr)
  names : s'.subsysList.map Subsys.nqn = s.subsysList.map Subsys.nqn
  sent : s'.sent = s.sent + s.subsysList.length
  others : ∀ x, x ∉ s.subsysList.map Subsys.nqn → s'.findSubsys x = s.findSubsys x ∧ s'.server x = s.server x
  subsys : ∀ (j : Nat) subsys, s.subsysList[j]? = some subsys →
    (s'.findSubsys subsys.nqn, s'.server subsys.nqn) = unlinked (net (s.sent + j)) portid subsys (s.server subsys.nqn)

theorem portDeleted (net : Nat → Int) (h : Tables s) {portid : Portid} (hp : portid ∈ s.portidList) :
    PortDeleted net portid s (deletePortid net portid s) := by
  obtain ⟨h1, h2, -, h4, h5, h6, h7⟩ :=
    unlinkAll_eq net s.subsysList h (h.findPortid hp) h.nqns (fun subsys hs => h.findSubsys hs)
  unfold deletePortid
  dsimp only
  exact ⟨h1.erasePortid _, by rw [h2], h4, h5, h6, h7⟩

/-- Without the port its address leads nowhere, and the others lead where they did. -/
theorem portAt_erase (h : Tables s) {portid : Portid} (ptr : Nat) {s' : State}
    (hs' : s'.portidList = s.portidList.eraseP (fun p => p.ptr == portid.ptr)) :
    s'.portAt ptr = if ptr = portid.ptr then none else s.portAt ptr := by
  unfold State.portAt
  rw [hs']
  split
  · rename_i heq
    subst heq
    refine List.find?_eq_none.mpr (fun p hp heq => ?_)
    exact (Keyed.mem_eraseP_of_nodup h.ptrs hp).2 (beq_iff_eq.mp heq)
  · rename_i hne
    refine Keyed.find?_eraseP_of_not (fun p _ hp => ?_)
    rw [beq_iff_eq.mp hp]
    simpa using Ne.symm hne

end

/-! ## Resetting -/

section

variable {s : State}

theorem Tables.deleteSubsys (h : Tables s) (net : Nat → Int) (nqn : String) : Tables (spdkDeleteSubsys net nqn s).2 := by
  unfold spdkDeleteSubsys
  cases s.findSubsys nqn with
  | none => exact h
  | some subsys => exact (h.rpc subsys.nqn .deleteSubsystem).eraseSubsys _

/-- A port is deleted: SPDK goes on to provide the same subsystems. -/
theorem unlinked_isSome (v : Int) (portid : Portid) (subsys : Subsys) (p : Option Provided) :
    (unlinked v portid subsys p).2.isSome = p.isSome := by
  unfold unlinked answer Method.act
  cases p with
  | none => by_cases hv : v = 0 <;> simp [hv]
  | some p => by_cases hv : v = 0 <;> by_cases hl : portid.listener ∈ p.listeners <;> simp [hv, hl]

theorem deletePorts_eq (net : Nat → Int) (ports : List Portid) (h : Tables s) (hports : s.portidList = ports) :
    let s' := ports.foldl (fun s portid => deletePortid net portid s) s
    Tables s' ∧ s'.portidList = [] ∧ s'.subsysList.map Subsys.nqn = s.subsysList.map Subsys.nqn ∧
      s'.sent = s.sent + ports.length * s.subsysList.length ∧ ∀ x, (s'.server x).isSome = (s.server x).isSome := by
  induction ports generalizing s with
  | nil => exact ⟨h, hports, rfl, by simp, fun _ => rfl⟩
  | cons portid ports ih =>
    have hd := portDeleted net h (hports ▸ List.mem_cons_self)
    generalize hs₁ : deletePortid net portid s = s₁ at hd
    have hrest : s₁.portidList = ports := by
      rw [hd.portidList, hports]
      exact List.eraseP_cons_of_pos (beq_self_eq_true portid.ptr)
    have hlen : s₁.subsysList.length = s.subsysList.length := by
      rw [← List.length_map Subsys.nqn, hd.names, List.length_map]
    obtain ⟨h1, h2, h3, h4, h5⟩ := ih hd.tables hrest
    dsimp only
    rw [List.foldl_cons, hs₁]
    refine ⟨h1, h2, h3.trans hd.names, ?_, fun x => (h5 x).trans ?_⟩
    · rw [h4, hd.sent, hlen, List.length_cons, Nat.succ_mul]
      omega
    · by_cases hx : x ∈ s.subsysList.map Subsys.nqn
      · obtain ⟨subsys, hs, rfl⟩ := List.mem_map.mp hx
        obtain ⟨j, hj⟩ := List.getElem?_of_mem hs
        have hsub := congrArg Prod.snd (hd.subsys j subsys hj)
        rw [show s₁.server subsys.nqn = _ from hsub, unlinked_isSome]
      · rw [(hd.others x hx).2]

theorem deleteSubsystems_eq (net : Nat → Int) (subs : List Subsys) (h : Tables s) (hsubs : s.subsysList = subs) :
    let s' := subs.foldl (fun s subsys => (spdkDeleteSubsys net subsys.nqn s).2) s
    Tables s' ∧ s'.subsysList = [] ∧ s'.portidList = s.portidList ∧
      (∀ x, x ∉ subs.map Subsys.nqn → s'.server x = s.server x) ∧
      ∀ (j : Nat) subsys, subs[j]? = some subsys →
        s'.server subsys.nqn = (answer (net (s.sent + j)) .deleteSubsystem (s.server subsys.nqn)).2 := by
  induction subs generalizing s with
  | nil => exact ⟨h, hsubs, rfl, fun _ _ => rfl, fun j subsys hj => by simp at hj⟩
  | cons subsys₀ subs ih =>
    have hfind : s.findSubsys subsys₀.nqn = some subsys₀ := h.findSubsys (hsubs ▸ List.mem_cons_self)
    have hnames := h.nqns
    rw [hsubs, List.map_cons, List.nodup_cons] at hnames
    have hrest : (subsys₀ :: subs).eraseP (fun subsys => subsys.nqn == subsys₀.nqn) = subs :=
      List.eraseP_cons_of_pos (beq_self_eq_true subsys₀.nqn)
    have ht := h.deleteSubsys net subsys₀.nqn
    have heq : (spdkDeleteSubsys net subsys₀.nqn s).2 =
        { (s.rpc net subsys₀.nqn .deleteSubsystem).2 with subsysList := subs } := by
      unfold spdkDeleteSubsys
      rw [hfind]
      dsimp only
      rw [rpc_subsysList, hsubs, hrest]
    generalize hs₁ : (spdkDeleteSubsys net subsys₀.nqn s).2 = s₁ at ht heq
    have hserver : ∀ x, s₁.server x =
        if x = subsys₀.nqn then (answer (net s.sent) .deleteSubsystem (s.server subsys₀.nqn)).2 else s.server x := by
      intro x
      rw [heq]
      exact rpc_server net subsys₀.nqn .deleteSubsystem s x
    have hsent : s₁.sent = s.sent + 1 := by
      rw [heq]
      exact rpc_sent net subsys₀.nqn .deleteSubsystem s
    have hports : s₁.portidList = s.portidList := by
      rw [heq]
      exact rpc_portidList net subsys₀.nqn .deleteSubsystem s
    obtain ⟨h1, h2, h3, h4, h5⟩ := ih ht (by rw [heq])
    dsimp only
    rw [List.foldl_cons, hs₁]
    refine ⟨h1, h2, h3.trans hports, fun x hx => ?_, fun j subsys hj => ?_⟩
    · rw [List.map_cons, List.mem_cons, not_or] at hx
      rw [h4 x hx.2, hserver, if_neg hx.1]
    · cases j with
      | zero =>
        obtain rfl : subsys₀ = subsys := Option.some.inj hj
        rw [h4 _ hnames.1, hserver, if_pos rfl]
        rfl
      | succ j =>
        have hne : subsys.nqn ≠ subsys₀.nqn := fun heq =>
          hnames.1 (List.mem_map.mpr ⟨subsys, List.mem_of_getElem? hj, heq⟩)
        rw [h5 j subsys hj, hserver, if_neg hne, hsent, Nat.add_assoc, Nat.add_comm 1 j]

/-- After a reset the tables are empty, and at SPDK a subsystem is gone when the call that deletes it went well. -/
theorem resetConfig_eq (net : Nat → Int) (h : Tables s) :
    let s' := spdkResetConfig net s
    Tables s' ∧ s'.subsysList = [] ∧ s'.portidList = [] ∧
      (∀ x, x ∉ s.subsysList.map Subsys.nqn → (s'.server x).isSome = (s.server x).isSome) ∧
      ∀ (j : Nat) subsys, s.subsysList[j]? = some subsys → (s.server subsys.nqn).isSome →
        ((s'.server subsys.nqn).isSome ↔ net (s.sent + s.portidList.length * s.subsysList.length + j) ≠ 0) := by
  obtain ⟨h1, h2, h3, h4, h5⟩ := deletePorts_eq net s.portidList h rfl
  unfold spdkResetConfig
  dsimp only
  generalize s.portidList.foldl (fun s portid => deletePortid net portid s) s = s₁ at h1 h2 h3 h4 h5
  obtain ⟨g1, g2, g3, g4, g5⟩ := deleteSubsystems_eq net s₁.subsysList h1 rfl
  refine ⟨g1, g2, g3.trans h2, fun x hx => ?_, fun j subsys hj hsome => ?_⟩
  · rw [g4 x (by rw [h3]; exact hx), h5]
  · obtain ⟨subsys₁, hj₁, hname⟩ : ∃ subsys₁, s₁.subsysList[j]? = some subsys₁ ∧ subsys₁.nqn = subsys.nqn := by
      have hmap := congrArg (fun l => l[j]?) h3
      simp only [List.getElem?_map, hj, Option.map_some] at hmap
      exact Option.map_eq_some_iff.mp hmap
    have hg := g5 j subsys₁ hj₁
    rw [← h5 subsys.nqn, ← hname] at hsome
    obtain ⟨p, hp⟩ := Option.isSome_iff_exists.mp hsome
    rw [hname, h4] at hg
    rw [hg, ← hname, hp]
    by_cases hv : net (s.sent + s.portidList.length * s.subsysList.length + j) = 0
    · simp [answer, Method.act, hv]
    · rw [answer_of_ne hv]
      simp [hv]

end

/-! ## Every operation keeps the tables in order -/

theorem Tables.createPortid {s : State} (h : Tables s) {portid : Portid} (hid : s.findPortid portid.portid = none)
    (hptr : portid.ptr = s.next) : Tables { s with portidList := portid :: s.portidList, next := s.next + 1 } where
  nqns := h.nqns
  ids := by
    rw [List.map_cons, List.nodup_cons]
    refine ⟨fun hm => ?_, h.ids⟩
    obtain ⟨q, hq, heq⟩ := List.mem_map.mp hm
    exact List.find?_eq_none.mp hid q hq (beq_iff_eq.mpr heq)
  ptrs := by
    rw [List.map_cons, List.nodup_cons]
    refine ⟨fun hm => ?_, h.ptrs⟩
    obtain ⟨q, hq, heq⟩ := List.mem_map.mp hm
    have hlt := h.fresh q hq
    omega
  fresh := by
    intro q hq
    dsimp only
    rcases List.mem_cons.mp hq with rfl | hq
    · omega
    · have hlt := h.fresh q hq
      omega
  listed := fun subsys hs =>
    ⟨(h.listed subsys hs).hosts, (h.listed subsys hs).links, fun ptr hptr => by
      have hlt := (h.listed subsys hs).bound ptr hptr
      dsimp only
      omega⟩

theorem Tables.createSubsys {s : State} (h : Tables s) {subsys : Subsys} (hfind : s.findSubsys subsys.nqn = none)
    (hl : subsys.Listed s.next) : Tables { s with subsysList := subsys :: s.subsysList } where
  nqns := by
    rw [List.map_cons, List.nodup_cons]
    refine ⟨fun hm => ?_, h.nqns⟩
    obtain ⟨q, hq, heq⟩ := List.mem_map.mp hm
    exact List.find?_eq_none.mp hfind q hq (beq_iff_eq.mpr heq)
  ids := h.ids
  ptrs := h.ptrs
  fresh := h.fresh
  listed := by
    intro q hq
    rcases List.mem_cons.mp hq with rfl | hq
    · exact hl
    · exact h.listed q hq

theorem Subsys.Listed.addHost {next : Nat} {subsys : Subsys} (h : subsys.Listed next) {host : String}
    (hnot : host ∉ subsys.hostList) : (subsys.addHost host).Listed next where
  hosts := List.nodup_append.mpr ⟨h.hosts, List.nodup_singleton host, fun _ hx _ hy heq =>
    hnot (List.mem_singleton.mp hy ▸ heq ▸ hx)⟩
  links := h.links
  bound := h.bound

theorem Subsys.Listed.removeHost {next : Nat} {subsys : Subsys} (h : subsys.Listed next) (host : String) :
    (subsys.removeHost host).Listed next where
  hosts := h.hosts.erase host
  links := h.links
  bound := h.bound

theorem Subsys.Listed.link {next : Nat} {subsys : Subsys} (h : subsys.Listed next) {ptr : Nat} (hnot : ptr ∉ subsys.portidList)
    (hlt : ptr < next) : (subsys.link ptr).Listed next where
  hosts := h.hosts
  links := List.nodup_cons.mpr ⟨hnot, h.links⟩
  bound := by
    intro p hp
    rcases List.mem_cons.mp hp with rfl | hp
    · exact hlt
    · exact h.bound p hp

section

variable {s : State}

theorem Tables.linkHost (h : Tables s) {subnqn hostnqn : String} {ret : Int} {s' : State}
    (hs : spdkLinkHostToSubsys net subnqn hostnqn s = .ok (ret, s')) : Tables s' := by
  unfold spdkLinkHostToSubsys at hs
  split at hs
  · obtain ⟨-, rfl⟩ := Prod.mk.inj (Except.ok.inj hs)
    exact h
  · cases hfind : s.findSubsys subnqn with
    | none =>
      rw [hfind] at hs
      obtain ⟨-, rfl⟩ := Prod.mk.inj (Except.ok.inj hs)
      exact h
    | some subsys =>
      rw [hfind] at hs
      dsimp only at hs
      split at hs
      · obtain ⟨-, rfl⟩ := Prod.mk.inj (Except.ok.inj hs)
        exact h
      · rename_i hnot
        cases hports : reconnected s subsys with
        | error f =>
          rw [hports] at hs
          cases hs
        | ok ports =>
          rw [hports] at hs
          dsimp only [bind, Except.bind] at hs
          generalize ports.map (fun p => Method.removeListener p.listener) = removals at hs
          have hrpc : Tables ((s.rpcs net subsys.nqn removals).rpc net subsys.nqn (.addHost hostnqn)).2 :=
            (h.rpcs subsys.nqn removals).rpc subsys.nqn _
          split at hs
          · obtain ⟨-, rfl⟩ := Prod.mk.inj (Except.ok.inj hs)
            exact hrpc
          · obtain ⟨-, rfl⟩ := Prod.mk.inj (Except.ok.inj hs)
            refine Tables.rpcs (hrpc.onSubsys (f := Subsys.addHost hostnqn) (fun _ => rfl) (fun subsys' hfind' hl => ?_)) _ _
            -- The subsystem that is changed is the one that was looked for.
            have hsame : subsys' = subsys := by
              unfold State.findSubsys at hfind hfind'
              rw [rpc_subsysList, rpcs_subsysList, hfind] at hfind'
              exact (Option.some.inj hfind').symm
            subst hsame
            exact hl.addHost hnot

theorem Tables.linkPort (h : Tables s) (net : Nat → Int) (nqn : String) (id : Int) :
    Tables (spdkLinkPortToSubsys net nqn id s).2 := by
  unfold spdkLinkPortToSubsys
  cases hp : s.findPortid id with
  | none => exact h
  | some portid =>
    cases hs : s.findSubsys nqn with
    | none => exact h
    | some subsys =>
      dsimp only
      split
      · exact h
      · rename_i hnot
        have hrpc : Tables (s.rpc net subsys.nqn (.addListener portid.listener)).2 := h.rpc subsys.nqn _
        split
        · exact hrpc
        · refine hrpc.onSubsys (f := Subsys.link portid.ptr) (fun _ => rfl) (fun subsys' hfind' hl => ?_)
          have hsame : subsys' = subsys := by
            unfold State.findSubsys at hs hfind'
            rw [rpc_subsysList, hs] at hfind'
            exact (Option.some.inj hfind').symm
          subst hsame
          refine hl.link hnot ?_
          rw [rpc_next]
          exact h.fresh portid (findPortid_mem hp)

theorem Tables.unlinkHost (h : Tables s) (net : Nat → Int) (subnqn hostnqn : String) :
    Tables (spdkUnlinkHostFromSubsys net subnqn hostnqn s).2 := by
  unfold spdkUnlinkHostFromSubsys
  cases s.findSubsys subnqn with
  | none => exact h
  | some subsys =>
    dsimp only
    split
    · exact Tables.onSubsys (h.rpc subsys.nqn _) (fun _ => rfl) (fun _ _ hl => hl.removeHost hostnqn)
    · exact h

theorem Tables.create (h : Tables s) (net : Nat → Int) (subnqn : String) (allowany : Int) :
    Tables (spdkCreateSubsys net subnqn allowany s).2 := by
  unfold spdkCreateSubsys
  split
  · exact h
  · split
    · exact h
    · rename_i hfind
      refine Tables.rpc (h.createSubsys ?_ ⟨List.nodup_nil, List.nodup_nil, fun _ hp => by cases hp⟩) _ _
      simpa using hfind

/-- What a new port is. -/
theorem createPortid_eq {id : Int} {fam typ : String} {req : Int} {addr : String} {trsvcid ret : Int} {s' : State}
    (hs : spdkCreatePortid id fam typ req addr trsvcid s = .ok (ret, s')) :
    s' = s ∨ ∃ portid : Portid, portid.ptr = s.next ∧ s.findPortid portid.portid = none ∧
      s' = { s with portidList := portid :: s.portidList, next := s.next + 1 } := by
  unfold spdkCreatePortid at hs
  split at hs
  · obtain ⟨-, rfl⟩ := Prod.mk.inj (Except.ok.inj hs)
    exact Or.inl rfl
  · rename_i hnone
    cases hfam : strcpy configFamilySize (some fam) with
    | error f =>
      rw [hfam] at hs
      cases hs
    | ok family =>
      cases htyp : strcpy configTypeSize (some typ) with
      | error f =>
        rw [hfam, htyp] at hs
        cases hs
      | ok type =>
        cases haddr : strcpy configAddressSize (some addr) with
        | error f =>
          rw [hfam, htyp, haddr] at hs
          cases hs
        | ok address =>
          cases hport : strcpy configPortSize (some (toString trsvcid)) with
          | error f =>
            rw [hfam, htyp, haddr, hport] at hs
            cases hs
          | ok port =>
            rw [hfam, htyp, haddr, hport] at hs
            obtain ⟨-, rfl⟩ := Prod.mk.inj (Except.ok.inj hs)
            exact Or.inr ⟨_, rfl, by simpa using hnone, rfl⟩

theorem Tables.step (h : Tables s) {op : Op} {s' : State} (hs : Step net op s s') : Tables s' := by
  obtain ⟨ret, hs⟩ := hs
  cases op with
  | createSubsys subnqn allowany =>
    rw [← (Prod.mk.inj (Except.ok.inj hs)).2]
    exact h.create net subnqn allowany
  | deleteSubsys nqn =>
    rw [← (Prod.mk.inj (Except.ok.inj hs)).2]
    exact h.deleteSubsys net nqn
  | linkHostToSubsys subnqn hostnqn => exact h.linkHost hs
  | unlinkHostFromSubsys subnqn hostnqn =>
    rw [← (Prod.mk.inj (Except.ok.inj hs)).2]
    exact h.unlinkHost net subnqn hostnqn
  | createPortid id fam typ req addr trsvcid =>
    have hs : spdkCreatePortid id fam typ req addr trsvcid s = .ok (ret, s') := hs
    obtain rfl | ⟨portid, hptr, hid, rfl⟩ := createPortid_eq hs
    · exact h
    · exact h.createPortid hid hptr
  | deletePortid id =>
    have hs : spdkDeletePortid net id s = (ret, s') := Except.ok.inj hs
    unfold spdkDeletePortid at hs
    cases hp : s.findPortid id with
    | none =>
      rw [hp] at hs
      rw [← (Prod.mk.inj hs).2]
      exact h
    | some portid =>
      rw [hp] at hs
      rw [← (Prod.mk.inj hs).2]
      exact (portDeleted net h (findPortid_mem hp)).tables
  | linkPortToSubsys nqn id =>
    rw [← (Prod.mk.inj (Except.ok.inj hs)).2]
    exact h.linkPort net nqn id
  | unlinkPortFromSubsys nqn id =>
    rw [← (Prod.mk.inj (Except.ok.inj hs)).2]
    exact h.unlinkPort nqn id
  | resetConfig =>
    rw [← (Prod.mk.inj (Except.ok.inj hs)).2]
    exact (resetConfig_eq net h).1

end

end NvmeDem.Spdk
