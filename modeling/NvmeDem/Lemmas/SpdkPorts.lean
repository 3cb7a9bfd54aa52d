import NvmeDem.Theorems.Spdk

/-!
# Ports on SPDK when every call goes well

What unlinking, deleting and linking a port leave when SPDK does what it is asked to. A port that has its address for itself is
unlinked whether or not it was linked (`Unlinked`), and linked wherever no other port listens at its address (`Linked`).
-/

namespace NvmeDem.Spdk

variable {net : Nat → Int} {s s₀ s' : State} {nqn : String} {id : Int} {portid : Portid} {subsys : Subsys}

/-- The tables are in order and say what SPDK provides. -/
structure Sound (s : State) : Prop where
  tables : Tables s
  mirrors : Mirrors s

/-- No subsystem is linked to another port with the address of this one. -/
def Alone (s : State) (portid : Portid) : Prop :=
  ∀ nqn subsys, s.findSubsys nqn = some subsys → ∀ ptr ∈ subsys.portidList, ∀ q, s.portAt ptr = some q →
    q.listener = portid.listener → ptr = portid.ptr

/-- SPDK listens where a link leads to. -/
theorem Sound.listens_iff (h : Sound s) (hs : s.findSubsys nqn = some subsys) (portid : Portid) :
    s.Listens nqn portid ↔ ∃ ptr ∈ subsys.portidList, ∃ q, s.portAt ptr = some q ∧ q.listener = portid.listener := by
  obtain ⟨p, hp, ha⟩ := h.mirrors.agrees hs
  rw [Spdk.listens_iff hp]
  exact ha.listeners portid.listener

theorem Sound.listens (h : Sound s) (hs : s.findSubsys nqn = some subsys) (hp : portid ∈ s.portidList)
    (hl : portid.ptr ∈ subsys.portidList) : s.Listens nqn portid :=
  (h.listens_iff hs portid).mpr ⟨portid.ptr, hl, portid, h.tables.portAt hp, rfl⟩

theorem Alone.linked_or (halone : Alone s portid) (h : Sound s) (hs : s.findSubsys nqn = some subsys) :
    portid.ptr ∈ subsys.portidList ∨ ¬s.Listens nqn portid := by
  by_contra hno
  obtain ⟨hnot, hlis⟩ := not_or.mp hno
  obtain ⟨ptr, hptr, q, hq, heq⟩ := (h.listens_iff hs portid).mp (not_not.mp hlis)
  exact hnot (halone nqn subsys hs ptr hptr q hq heq ▸ hptr)

theorem unlink_of_not_mem (h : portid.ptr ∉ subsys.portidList) : subsys.unlink portid.ptr = subsys := by
  unfold Subsys.unlink
  rw [List.erase_of_not_mem h]

/-! ## Unlinking -/

/-- A port that has its address for itself is unlinked; the call is refused where it was not linked. -/
theorem unlinkPort_sound (hnet : ∀ n, net n = 0) (h : Sound s) (hp : s.findPortid id = some portid)
    (hs : s.findSubsys nqn = some subsys) (halone : Alone s portid) :
    let out := spdkUnlinkPortFromSubsys net nqn id s
    Sound out.2 ∧ Touches nqn s out.2 ∧ out.2.findSubsys nqn = some (subsys.unlink portid.ptr) ∧
      (out.1 ≠ 0 → portid.ptr ∉ subsys.portidList) := by
  have hmem := findPortid_mem hp
  obtain ⟨htouch, -, -, hfind⟩ := unlinkPort_eq net hp hs
  obtain ⟨p, hserv, -⟩ := h.mirrors.agrees hs
  have hlisten := listens_iff hserv portid
  have hrc : (spdkUnlinkPortFromSubsys net nqn id s).1 = (answer 0 (.removeListener portid.listener) (s.server nqn)).1 := by
    rw [← hnet s.sent, ← rpc_fst]
    unfold spdkUnlinkPortFromSubsys
    rw [hp, hs]
    dsimp only
    rw [findSubsys_nqn hs]
    split
    · rfl
    · rename_i hzero
      exact (not_not.mp hzero).symm
  have hsound : Sound (spdkUnlinkPortFromSubsys net nqn id s).2 := by
    refine ⟨h.tables.unlinkPort nqn id, (mirrors_unlinkPort h.tables h.mirrors nqn id).mpr ?_⟩
    intro portid' subsys' hp' hs'
    rw [hp] at hp'
    rw [hs] at hs'
    cases hp'
    cases hs'
    exact Or.inr (halone.linked_or h hs)
  have hans := answer_removeListener p portid.listener
  rw [hnet, hserv, hans] at hfind
  rw [hserv, hans] at hrc
  by_cases hl : portid.listener ∈ p.listeners
  · rw [if_pos hl] at hfind hrc
    exact ⟨hsound, htouch, hfind, fun hne => absurd hrc hne⟩
  · rw [if_neg hl] at hfind hrc
    have hnot : portid.ptr ∉ subsys.portidList := fun hm => hl (hlisten.mp (h.listens hs hmem hm))
    refine ⟨hsound, htouch, ?_, fun _ => hnot⟩
    rw [hfind, unlink_of_not_mem hnot]
    rfl

/-- What is left when a port was unlinked from some subsystems. -/
structure Unlinked (portid : Portid) (nqns : List String) (s₀ s : State) : Prop where
  sound : Sound s
  portidList : s.portidList = s₀.portidList
  find : ∀ x, s.findSubsys x =
    (s₀.findSubsys x).map (fun subsys => if x ∈ nqns then subsys.unlink portid.ptr else subsys)

theorem Unlinked.refl (portid : Portid) (h : Sound s) : Unlinked portid [] s s where
  sound := h
  portidList := rfl
  find := by
    intro x
    cases s.findSubsys x with
    | none => rfl
    | some subsys => exact congrArg some (if_neg (List.not_mem_nil)).symm

theorem findPortid_of_eq (h : s.portidList = s₀.portidList) (id : Int) : s.findPortid id = s₀.findPortid id := by
  unfold State.findPortid
  rw [h]

theorem Unlinked.alone {nqns : List String} (h : Unlinked portid nqns s₀ s) (halone : Alone s₀ portid) : Alone s portid := by
  intro x subsys hs ptr hptr q hq
  rw [portAt_of_eq h.portidList] at hq
  rw [h.find x] at hs
  obtain ⟨subsys₀, hs₀, rfl⟩ := Option.map_eq_some_iff.mp hs
  refine halone x subsys₀ hs₀ ptr ?_ q hq
  split at hptr
  · exact List.mem_of_mem_erase hptr
  · exact hptr

theorem Unlinked.step {nqns : List String} (hnet : ∀ n, net n = 0) (h₀ : Sound s₀) (h : Unlinked portid nqns s₀ s)
    (hp : s₀.findPortid id = some portid) (hs₀ : s₀.findSubsys nqn = some subsys) (halone : Alone s₀ portid) :
    let out := spdkUnlinkPortFromSubsys net nqn id s
    Unlinked portid (nqns ++ [nqn]) s₀ out.2 ∧ (out.1 ≠ 0 → Unlinked portid nqns s₀ out.2) := by
  have hfind : s.findSubsys nqn = some (if nqn ∈ nqns then subsys.unlink portid.ptr else subsys) := by rw [h.find, hs₀]; rfl
  obtain ⟨hsound, htouch, hout, hrefused⟩ :=
    unlinkPort_sound hnet h.sound ((findPortid_of_eq h.portidList id).trans hp) hfind (h.alone halone)
  have hnodup := (h₀.tables.listed _ (findSubsys_mem hs₀)).links
  dsimp only
  refine ⟨⟨hsound, htouch.portidList.trans h.portidList, ?_⟩, fun hne => ⟨hsound, htouch.portidList.trans h.portidList, ?_⟩⟩
  · intro x
    by_cases hx : x = nqn
    · subst hx
      have hmem : x ∈ nqns ++ [x] := List.mem_append_right _ (List.mem_singleton_self x)
      rw [hout, hs₀, Option.map_some, if_pos hmem]
      by_cases hin : x ∈ nqns
      · -- It was unlinked before.
        have hnot : portid.ptr ∉ (subsys.unlink portid.ptr).portidList := hnodup.not_mem_erase
        rw [if_pos hin, unlink_of_not_mem hnot]
      · rw [if_neg hin]
    · rw [htouch.find x hx, h.find x]
      have hiff : x ∈ nqns ++ [nqn] ↔ x ∈ nqns := by
        rw [List.mem_append, List.mem_singleton]
        exact or_iff_left hx
      simp only [hiff]
  · intro x
    by_cases hx : x = nqn
    · subst hx
      rw [hout, unlink_of_not_mem (hrefused hne), hs₀]
      rfl
    · rw [htouch.find x hx, h.find x]

/-! ## Deleting -/

/-- A port that was unlinked from every subsystem is deleted. -/
theorem Unlinked.delete {nqns : List String} (hnet : ∀ n, net n = 0) (h₀ : Sound s₀) (h : Unlinked portid nqns s₀ s)
    (hp : s₀.findPortid id = some portid) (halone : Alone s₀ portid) (hall : ∀ x, s₀.findSubsys x ≠ none → x ∈ nqns) :
    let s' := (spdkDeletePortid net id s).2
    Sound s' ∧ s'.portidList = s₀.portidList.eraseP (fun p => p.ptr == portid.ptr) ∧
      ∀ x, s'.findSubsys x = (s₀.findSubsys x).map (Subsys.unlink portid.ptr) := by
  have hp' : s.findPortid id = some portid := (findPortid_of_eq h.portidList id).trans hp
  have hmirrors : Mirrors (spdkDeletePortid net id s).2 := by
    refine (mirrors_deletePortid h.sound.tables h.sound.mirrors id).mpr ?_
    intro q hq j subsys hj
    rw [hp'] at hq
    cases hq
    have hs := h.sound.tables.findSubsys (List.mem_of_getElem? hj)
    split
    · exact hnet _
    · rename_i hnot
      exact Or.inr ((h.alone halone).linked_or h.sound hs |>.resolve_left hnot)
  have hrun : (spdkDeletePortid net id s).2 = deletePortid net portid s := by
    unfold spdkDeletePortid
    rw [hp']
  have hd := portDeleted net h.sound.tables (findPortid_mem hp')
  rw [hrun] at hmirrors
  dsimp only
  rw [hrun]
  generalize deletePortid net portid s = s' at hd hmirrors
  refine ⟨⟨hd.tables, hmirrors⟩, by rw [hd.portidList, h.portidList], fun x => ?_⟩
  by_cases hx : x ∈ s.subsysList.map Subsys.nqn
  · obtain ⟨subsys, hs, rfl⟩ := List.mem_map.mp hx
    obtain ⟨j, hj⟩ := List.getElem?_of_mem hs
    have hfind := h.sound.tables.findSubsys hs
    have hafter := congrArg Prod.fst (hd.subsys j subsys hj)
    rw [h.find] at hfind
    obtain ⟨subsys₀, hs₀, heq⟩ := Option.map_eq_some_iff.mp hfind
    have hin : subsys.nqn ∈ nqns := hall subsys.nqn (by rw [hs₀]; exact Option.some_ne_none subsys₀)
    rw [if_pos hin] at heq
    have hnot : portid.ptr ∉ subsys.portidList := by
      rw [← heq]
      exact (h₀.tables.listed _ (findSubsys_mem hs₀)).links.not_mem_erase
    have hsame : s'.findSubsys subsys.nqn = some subsys := by
      refine hafter.trans ?_
      show some (if _ then subsys.unlink portid.ptr else subsys) = some subsys
      rw [unlink_of_not_mem hnot, ite_self]
    rw [hsame, hs₀, Option.map_some, heq]
  · have hnone : s.findSubsys x = none :=
      List.find?_eq_none.mpr (fun y hy heq => hx (List.mem_map.mpr ⟨y, hy, beq_iff_eq.mp heq⟩))
    rw [(hd.others x hx).1, hnone]
    rw [h.find, Option.map_eq_none_iff] at hnone
    rw [hnone]
    rfl

/-! ## Linking -/

/-- A port is linked unless another one listens at its address. -/
theorem linkPort_sound (hnet : ∀ n, net n = 0) (h : Sound s) (hp : s.findPortid id = some portid)
    (hs : s.findSubsys nqn = some subsys) :
    let out := spdkLinkPortToSubsys net nqn id s
    Sound out.2 ∧ Touches nqn s out.2 ∧
      (portid.ptr ∈ subsys.portidList → out = (0, s)) ∧
      (portid.ptr ∉ subsys.portidList → ¬s.Listens nqn portid →
        out.1 = 0 ∧ out.2.findSubsys nqn = some (subsys.link portid.ptr)) ∧
      (portid.ptr ∉ subsys.portidList → s.Listens nqn portid → out.2.findSubsys nqn = some subsys) := by
  have hsound : Sound (spdkLinkPortToSubsys net nqn id s).2 :=
    ⟨h.tables.linkPort net nqn id, mirrors_linkPort h.tables h.mirrors nqn id⟩
  by_cases hl : portid.ptr ∈ subsys.portidList
  · have hsame : spdkLinkPortToSubsys net nqn id s = (0, s) := by
      unfold spdkLinkPortToSubsys
      rw [hp, hs]
      exact if_pos hl
    dsimp only
    rw [hsame]
    exact ⟨h, Touches.refl nqn s, fun _ => rfl, fun hnot => absurd hl hnot, fun hnot => absurd hl hnot⟩
  · obtain ⟨htouch, -, -, hfind⟩ := linkPort_eq net hp hs hl
    obtain ⟨p, hserv, -⟩ := h.mirrors.agrees hs
    have hrc : (spdkLinkPortToSubsys net nqn id s).1 = (answer 0 (.addListener portid.listener) (s.server nqn)).1 := by
      rw [← hnet s.sent, ← rpc_fst]
      unfold spdkLinkPortToSubsys
      rw [hp, hs]
      dsimp only
      rw [if_neg hl, findSubsys_nqn hs]
      split
      · rfl
      · rename_i hzero
        exact (not_not.mp hzero).symm
    have hans := answer_addListener p portid.listener
    rw [hnet, hserv, hans] at hfind
    rw [hserv, hans] at hrc
    have hlisten := listens_iff hserv portid
    refine ⟨hsound, htouch, fun hin => absurd hin hl, fun _ hnot => ?_, fun _ hlis => ?_⟩
    · rw [if_neg (fun hin => hnot (hlisten.mpr hin))] at hrc hfind
      exact ⟨hrc, hfind⟩
    · rw [if_pos (hlisten.mp hlis)] at hfind
      exact hfind

/-- What is left when a port was linked to some subsystems. -/
structure Linked (portid : Portid) (nqns : List String) (s₀ s : State) : Prop where
  sound : Sound s
  portidList : s.portidList = s₀.portidList
  find : ∀ x, s.findSubsys x =
    (s₀.findSubsys x).map (fun subsys => if x ∈ nqns then subsys.link portid.ptr else subsys)

theorem Linked.refl (portid : Portid) (h : Sound s) : Linked portid [] s s where
  sound := h
  portidList := rfl
  find := by
    intro x
    cases s.findSubsys x with
    | none => rfl
    | some subsys => exact congrArg some (if_neg (List.not_mem_nil)).symm

/-- A port of which nothing else has the address is linked to one more subsystem. -/
theorem Linked.step {nqns : List String} (hnet : ∀ n, net n = 0) (h : Linked portid nqns s₀ s)
    (hp : s₀.findPortid id = some portid) (hs₀ : s₀.findSubsys nqn = some subsys)
    (hfresh : portid.ptr ∉ subsys.portidList) (hown : ∀ q ∈ s₀.portidList, q.listener = portid.listener → q = portid) :
    let out := spdkLinkPortToSubsys net nqn id s
    out.1 = 0 ∧ Linked portid (nqns ++ [nqn]) s₀ out.2 := by
  have hfind : s.findSubsys nqn = some (if nqn ∈ nqns then subsys.link portid.ptr else subsys) := by rw [h.find, hs₀]; rfl
  obtain ⟨hsound, htouch, hsame, hlinked, -⟩ :=
    linkPort_sound hnet h.sound ((findPortid_of_eq h.portidList id).trans hp) hfind
  have hmem : ∀ x, x ≠ nqn → (x ∈ nqns ++ [nqn] ↔ x ∈ nqns) := by
    intro x hx
    rw [List.mem_append, List.mem_singleton]
    exact or_iff_left hx
  by_cases hin : nqn ∈ nqns
  · -- It is linked already.
    rw [if_pos hin] at hsame
    dsimp only
    rw [hsame List.mem_cons_self]
    refine ⟨rfl, h.sound, h.portidList, fun x => ?_⟩
    rw [h.find x]
    by_cases hx : x = nqn
    · subst hx
      simp only [hin, List.mem_append_left]
    · simp only [hmem x hx]
  · rw [if_neg hin] at hfind hlinked
    have hnot : ¬s.Listens nqn portid := by
      intro hlis
      obtain ⟨ptr, hptr, q, hq, heq⟩ := (h.sound.listens_iff hfind portid).mp hlis
      have hqmem := portAt_mem hq
      rw [h.portidList] at hqmem
      obtain rfl := hown q hqmem heq
      exact hfresh (portAt_ptr hq ▸ hptr)
    obtain ⟨hzero, hout⟩ := hlinked hfresh hnot
    refine ⟨hzero, hsound, htouch.portidList.trans h.portidList, fun x => ?_⟩
    by_cases hx : x = nqn
    · subst hx
      rw [hout, hs₀, Option.map_some, if_pos (List.mem_append_right _ (List.mem_singleton_self x))]
    · rw [htouch.find x hx, h.find x]
      simp only [hmem x hx]

/-- A subsystem is linked to another port with the address of this one. -/
structure Blocked (portid q : Portid) (nqn : String) (s₀ s : State) : Prop where
  sound : Sound s
  portidList : s.portidList = s₀.portidList
  linked : ∃ subsys, s.findSubsys nqn = some subsys ∧ q.ptr ∈ subsys.portidList ∧ portid.ptr ∉ subsys.portidList

/-- It is not linked to this one then. -/
theorem Blocked.step {q : Portid} {x : String} (hnet : ∀ n, net n = 0) (h : Blocked portid q nqn s₀ s)
    (hp : s₀.findPortid id = some portid) (hq : q ∈ s₀.portidList) (heq : q.listener = portid.listener) :
    Blocked portid q nqn s₀ (spdkLinkPortToSubsys net x id s).2 := by
  have hp' := (findPortid_of_eq h.portidList id).trans hp
  cases hs : s.findSubsys x with
  | none =>
    unfold spdkLinkPortToSubsys
    rw [hp', hs]
    exact h
  | some subsys =>
    obtain ⟨hsound, htouch, -, -, hrefused⟩ := linkPort_sound hnet h.sound hp' hs
    refine ⟨hsound, htouch.portidList.trans h.portidList, ?_⟩
    obtain ⟨subsys', hs', hlinked, hnot⟩ := h.linked
    by_cases hx : x = nqn
    · subst hx
      rw [hs] at hs'
      cases hs'
      have hlis : s.Listens x portid :=
        (h.sound.listens_iff hs portid).mpr ⟨q.ptr, hlinked, q, h.sound.tables.portAt (h.portidList ▸ hq), heq⟩
      exact ⟨subsys, hrefused hnot hlis, hlinked, hnot⟩
    · exact ⟨subsys', (htouch.find nqn (Ne.symm hx)).trans hs', hlinked, hnot⟩

end NvmeDem.Spdk
