import NvmeDem.Lemmas.ReconfigOob

/-!
# What a reconfiguration leaves at a manager

A target that is reconfigured, with every attempt to reach its manager going well, should leave the manager with the projection
of the target and nothing else, and the same in band and out of band. In band the numbers of a message are narrower than those of
the lists, and types and families are sent as numbers that not every name has; out of band a URI is written into a buffer of 128
bytes. Where what is sent comes back as it was, both ways leave the projection (`reconfig_exact_iff`), but for one attribute that
the lists do not keep: the transport requirement of a port is set in band and left open out of band.
-/

namespace NvmeDem

open Jansson Link Upsert

namespace Push

/-! ## What a reconfiguration is meant to leave -/

/-- A port without the attribute that is not kept in the lists. -/
def withoutTreq : Item → Item
  | .port portid fam typ _ addr svcid => .port portid fam typ 0 addr svcid
  | .subsys nqn allowany => .subsys nqn allowany
  | .ns subnqn nsid devid devnsid => .ns subnqn nsid devid devnsid
  | .host nqn => .host nqn
  | .hostLink subnqn hostnqn => .hostLink subnqn hostnqn
  | .portLink subnqn portid => .portLink subnqn portid

def view (config : Finset Item) : Finset Item := config.image withoutTreq

/-- Names and identifiers are distinct. -/
structure Distinct (target : Target) : Prop where
  portid : (target.portidList.map Portid.portid).Nodup
  nqn : (target.subsysList.map Subsystem.nqn).Nodup
  nsid : ∀ subsys ∈ target.subsysList, (subsys.nsList.map Ns.nsid).Nodup

/-- A subsystem that is not restricted keeps no hosts. -/
def OpenWithoutHosts (target : Target) : Prop :=
  ∀ subsys ∈ target.subsysList, subsys.isRestricted = false → subsys.hostList = []

instance (target : Target) : Decidable (OpenWithoutHosts target) :=
  inferInstanceAs (Decidable (∀ subsys ∈ target.subsysList, _))

/-- The reconfiguration of a target in a mode returns, and leaves the projection when every attempt went well. -/
def ExactIn (http : HttpLib) (json : JsonLib) (mode : MgmtMode) (target : Target) : Prop :=
  ∀ (lists : Lists) (tgt : String), findTarget lists tgt = some { target with mgmtMode := mode } →
    ∀ (net : Nat → Int) (s : Session (Finset Item)), ∃ ret s',
      targetReconfig { net := net, http := http, json := json } lists tgt s = .ok (ret, s') ∧
        (s'.Quiet → view s'.far = (projection target).toFinset)

/-- A configuration that a reconfiguration in a mode may leave when every attempt went well. -/
def Leaves (http : HttpLib) (json : JsonLib) (mode : MgmtMode) (target : Target) (config : Finset Item) : Prop :=
  ∃ (lists : Lists) (tgt : String) (net : Nat → Int) (s : Session (Finset Item)) (ret : Int) (s' : Session (Finset Item)),
    findTarget lists tgt = some { target with mgmtMode := mode } ∧
      targetReconfig { net := net, http := http, json := json } lists tgt s = .ok (ret, s') ∧ s'.Quiet ∧ s'.far = config

/-! ## When it does -/

/-- A port whose fields come back from a message as they were. -/
structure PortFaithful (portid : Portid) : Prop where
  id : 0 ≤ portid.portid ∧ portid.portid < 2 ^ 16
  type : trtypeStr (toTrtype portid.type) = portid.type
  family : adrfamStr (toAdrfam portid.family) = portid.family

/-- A subsystem whose fields, and those of its namespaces and hosts, come back as they were. -/
structure SubsysFaithful (subsys : Subsystem) : Prop where
  nqns : NqnsFit subsys
  access : subsys.access % 2 ^ 8 = 0 → subsys.access = 0
  devid : ∀ ns ∈ subsys.nsList, ns.devid ≠ nvmfNullbDevid

structure InbFaithful (target : Target) : Prop where
  port : ∀ portid ∈ target.portidList, PortFaithful portid
  subsys : ∀ subsys ∈ target.subsysList, SubsysFaithful subsys

/-- A port that the manager refuses ends a reconfiguration before any subsystem is sent. -/
def OobFits (target : Target) : Prop :=
  (∀ portid ∈ target.portidList, PortidAllowed portid) → ∀ subsys ∈ target.subsysList, UrisFit target subsys

/-! ## The projection -/

section

variable {target : Target}

theorem mem_projection {a : Item} :
    a ∈ projection target ↔ (∃ p ∈ target.portidList, a = portItem p) ∨ ∃ s ∈ target.subsysList, a = subsysItem s ∨
      (∃ n ∈ s.nsList, a = nsItem s n) ∨ (∃ h ∈ s.hostList, a ∈ hostItems s h) ∨
        (isHidden s = false ∧ ∃ p ∈ target.portidList, a = portLinkItem s p) := by
  have hparts : ∀ s, a ∈ subsysParts target s ↔ a = subsysItem s ∨
      (∃ n ∈ s.nsList, a = nsItem s n) ∨ (∃ h ∈ s.hostList, a ∈ hostItems s h) ∨
        (isHidden s = false ∧ ∃ p ∈ target.portidList, a = portLinkItem s p) := by
    intro s
    cases hh : isHidden s
    · simp [subsysParts, hh, eq_comm]
    · simp [subsysParts, hh, eq_comm]
  rw [projection, List.mem_append, List.mem_map, List.mem_flatMap]
  exact or_congr (exists_congr fun p => and_congr_right fun _ => eq_comm)
    (exists_congr fun s => and_congr_right fun _ => hparts s)

theorem port_mem_projection {portid : Int} {fam typ : String} {treq : Int} {addr : String} {svcid : Int} :
    Item.port portid fam typ treq addr svcid ∈ projection target ↔
      ∃ p ∈ target.portidList, Item.port portid fam typ treq addr svcid = portItem p := by
  simp [mem_projection, subsysItem, nsItem, hostItems, portLinkItem]

theorem subsys_mem_projection {nqn : String} {allowany : Bool} :
    Item.subsys nqn allowany ∈ projection target ↔ ∃ s ∈ target.subsysList, Item.subsys nqn allowany = subsysItem s := by
  simp [mem_projection, portItem, nsItem, hostItems, portLinkItem]

theorem ns_mem_projection {subnqn : String} {nsid devid devnsid : Int} :
    Item.ns subnqn nsid devid devnsid ∈ projection target ↔
      ∃ s ∈ target.subsysList, ∃ n ∈ s.nsList, Item.ns subnqn nsid devid devnsid = nsItem s n := by
  simp [mem_projection, portItem, subsysItem, hostItems, portLinkItem]

/-- No key of a projection has two items. -/
theorem consistent_projection (hd : Distinct target) : Consistent Item.key (projection target) := by
  intro a ha b hb hkey
  cases a <;> cases b <;> simp only [Item.key, Item.port.injEq, Item.subsys.injEq, Item.ns.injEq, reduceCtorEq] at hkey
  · obtain ⟨rfl, -⟩ := hkey
    obtain ⟨p, hp, hpa⟩ := port_mem_projection.1 ha
    obtain ⟨q, hq, hqb⟩ := port_mem_projection.1 hb
    have hid : p.portid = q.portid := by
      simp only [portItem, Item.port.injEq] at hpa hqb
      rw [← hpa.1, ← hqb.1]
    have hpq : p = q := List.inj_on_of_nodup_map hd.portid hp hq hid
    rw [hpa, hqb, hpq]
  · obtain ⟨rfl, -⟩ := hkey
    obtain ⟨s, hs, hsa⟩ := subsys_mem_projection.1 ha
    obtain ⟨t, ht, htb⟩ := subsys_mem_projection.1 hb
    have hnqn : s.nqn = t.nqn := by
      simp only [subsysItem, Item.subsys.injEq] at hsa htb
      rw [← hsa.1, ← htb.1]
    have hst : s = t := List.inj_on_of_nodup_map hd.nqn hs ht hnqn
    rw [hsa, htb, hst]
  · obtain ⟨rfl, rfl, -⟩ := hkey
    obtain ⟨s, hs, n, hn, hsa⟩ := ns_mem_projection.1 ha
    obtain ⟨t, ht, m, hm, htb⟩ := ns_mem_projection.1 hb
    simp only [nsItem, Item.ns.injEq] at hsa htb
    obtain ⟨hs₁, hn₁, hn₂, hn₃⟩ := hsa
    obtain ⟨ht₁, hm₁, hm₂, hm₃⟩ := htb
    have hst : s = t := List.inj_on_of_nodup_map hd.nqn hs ht (hs₁.symm.trans ht₁)
    subst hst
    have hnm : n = m := List.inj_on_of_nodup_map (hd.nsid s hs) hn hm (hn₁.symm.trans hm₁)
    rw [hn₂, hn₃, hm₂, hm₃, hnm]
  · exact hkey
  · exact hkey
  · exact hkey

/-! ## What is sent in band -/

theorem mem_sentView {a : Item} :
    a ∈ (sentTarget target).map withoutTreq ↔ (∃ p ∈ target.portidList, a = withoutTreq (sentPort p)) ∨
      ∃ s ∈ target.subsysList, a = sentSubsys s ∨ (∃ n ∈ s.nsList, a = sentNs s n) ∨
        (s.isRestricted = true ∧ ∃ h ∈ s.hostList, a ∈ hostItems s h) ∨
          (isHidden s = false ∧ ∃ p ∈ target.portidList, a = sentPortLink s p) := by
  have hparts : ∀ s, a ∈ (sentSubsysParts target s).map withoutTreq ↔ a = sentSubsys s ∨ (∃ n ∈ s.nsList, a = sentNs s n) ∨
      (s.isRestricted = true ∧ ∃ h ∈ s.hostList, a ∈ hostItems s h) ∨
        (isHidden s = false ∧ ∃ p ∈ target.portidList, a = sentPortLink s p) := by
    intro s
    have hsubsys : withoutTreq (sentSubsys s) = sentSubsys s := rfl
    have hns : ∀ n, withoutTreq (sentNs s n) = sentNs s n := fun n => rfl
    have hlink : ∀ p, withoutTreq (sentPortLink s p) = sentPortLink s p := fun p => rfl
    have hhosts : a ∈ (s.hostList.flatMap (fun h => [Item.host h.nqn, Item.hostLink s.nqn h.nqn])).map withoutTreq ↔
        ∃ h ∈ s.hostList, a ∈ hostItems s h := by
      rw [List.map_flatMap, List.mem_flatMap]
      exact exists_congr fun h => and_congr_right fun _ => Iff.rfl
    have hmap : ∀ {α : Type} (l : List α) (f : α → Item), (∀ x, withoutTreq (f x) = f x) →
        (a ∈ (l.map f).map withoutTreq ↔ ∃ x ∈ l, a = f x) := by
      intro α l f hf
      rw [List.map_map, List.mem_map]
      exact exists_congr fun x => and_congr_right fun _ => by rw [Function.comp, hf, eq_comm]
    simp only [sentSubsysParts, List.map_append, List.mem_append, hmap _ _ hns, List.map_cons, List.map_nil,
      List.mem_singleton, hsubsys]
    cases hh : isHidden s <;> cases hr : s.isRestricted <;>
      simp only [hmap _ _ hlink, hhosts, if_true, if_false, Bool.false_eq_true, reduceCtorEq, List.map_nil, List.not_mem_nil,
        true_and, false_and, false_or, or_false] <;>
      simp only [or_left_comm, or_comm]
  rw [sentTarget, List.map_append, List.mem_append, List.map_map, List.mem_map, List.map_flatMap, List.mem_flatMap]
  exact or_congr (exists_congr fun p => and_congr_right fun _ => eq_comm)
    (exists_congr fun s => and_congr_right fun _ => hparts s)

theorem emod_of_range {x : Int} (h : 0 ≤ x ∧ x < 2 ^ 16) : ((BitVec.ofInt 16 x).toNat : Int) = x := by
  rw [BitVec.toNat_ofInt, Int.toNat_of_nonneg (Int.emod_nonneg _ (by decide))]
  exact Int.emod_eq_of_lt h.1 h.2

theorem toInt_of_isInt {x : Int} (h : IsInt x) : (BitVec.ofInt 32 x).toInt = x := by
  rw [BitVec.toInt_ofInt]
  exact cInt_of_isInt h

/-- A port that is faithful is sent as it is. -/
theorem sentPort_of_faithful {p : Portid} (hf : PortFaithful p) (hport : IsInt p.portNum) :
    withoutTreq (sentPort p) = portItem p := by
  simp only [sentPort, withoutTreq, portItem, emod_of_range hf.id, hf.family, hf.type, atoi_toString hport]

/-- What is sent for a port is a port that is faithful. -/
theorem faithful_of_sentPort {p q : Portid} (h : portItem p = withoutTreq (sentPort q)) : PortFaithful p := by
  simp only [portItem, sentPort, withoutTreq, Item.port.injEq] at h
  obtain ⟨hid, hfam, htyp, -⟩ := h
  have htypes : ∀ str : String, trtypeStr (toTrtype (trtypeStr (toTrtype str))) = trtypeStr (toTrtype str) := by
    intro str
    have hcases : toTrtype str = 1 ∨ toTrtype str = 2 ∨ toTrtype str = 3 ∨ toTrtype str = 0 := by
      unfold toTrtype
      split_ifs <;> simp
    rcases hcases with h | h | h | h <;> rw [h] <;> decide
  have hfamilies : ∀ str : String, adrfamStr (toAdrfam (adrfamStr (toAdrfam str))) = adrfamStr (toAdrfam str) := by
    intro str
    have hcases : toAdrfam str = 1 ∨ toAdrfam str = 2 ∨ toAdrfam str = 4 ∨ toAdrfam str = 0 := by
      unfold toAdrfam
      split_ifs <;> simp
    rcases hcases with h | h | h | h <;> rw [h] <;> decide
  refine ⟨?_, by rw [htyp, htypes], by rw [hfam, hfamilies]⟩
  have hlt := (BitVec.ofInt 16 q.portid).isLt
  omega

theorem sentSubsys_eq (subsys : Subsystem) : sentSubsys subsys = .subsys subsys.nqn (subsys.access % 2 ^ 8 ≠ 0) := by
  have hnonneg : 0 ≤ subsys.access % ((2 ^ 8 : Nat) : Int) := Int.emod_nonneg _ (by decide)
  rw [sentSubsys, BitVec.toNat_ofInt, Int.toNat_of_nonneg hnonneg]
  rfl

theorem subsysItem_eq (subsys : Subsystem) : subsysItem subsys = .subsys subsys.nqn (subsys.access ≠ 0) := by
  simp [subsysItem, Subsystem.isRestricted, restricted]
  rfl

theorem sentSubsys_eq_iff {subsys : Subsystem} :
    sentSubsys subsys = subsysItem subsys ↔ (subsys.access % 2 ^ 8 = 0 → subsys.access = 0) := by
  rw [sentSubsys_eq, subsysItem_eq, Item.subsys.injEq]
  simp only [true_and, decide_eq_decide, ne_eq, not_iff_not]
  constructor
  · exact fun h => h.1
  · exact fun h => ⟨h, fun hz => by rw [hz]; rfl⟩

theorem entryDevid_ne (subsys : Subsystem) (ns : Ns) : entryDevid (buildNsConfigInb subsys ns) ≠ nvmfNullbDevid := by
  unfold entryDevid
  split
  · decide
  · rename_i hne
    intro h
    apply hne
    apply BitVec.eq_of_toInt_eq
    rw [h]
    rfl

theorem sentNs_of_faithful {subsys : Subsystem} {ns : Ns} (hheld : IsInt ns.nsid ∧ IsInt ns.devid ∧ IsInt ns.devns)
    (h : ns.devid ≠ nvmfNullbDevid) : sentNs subsys ns = nsItem subsys ns := by
  have hdevid : entryDevid (buildNsConfigInb subsys ns) = ns.devid := by
    unfold entryDevid buildNsConfigInb
    by_cases hn : ns.devid = nullbDevid
    · rw [if_pos hn, hn]
      rfl
    · simp only [if_neg hn]
      rw [if_neg, toInt_of_isInt hheld.2.1]
      intro heq
      have hint := congrArg BitVec.toInt heq
      rw [toInt_of_isInt hheld.2.1] at hint
      exact h hint
  simp only [sentNs, nsItem, hdevid, toInt_of_isInt hheld.1, toInt_of_isInt hheld.2.2]

/-- What is sent for a faithful target is the projection. -/
theorem mem_sentView_of_faithful (hheld : Held target) (hopen : OpenWithoutHosts target) (hf : InbFaithful target) (a : Item) :
    a ∈ (sentTarget target).map withoutTreq ↔ a ∈ projection target := by
  rw [mem_sentView, mem_projection]
  refine or_congr (exists_congr fun p => and_congr_right fun hp => ?_) (exists_congr fun s => and_congr_right fun hs => ?_)
  · rw [sentPort_of_faithful (hf.port p hp) (hheld.portid p hp).2]
  · have hns : (∃ n ∈ s.nsList, a = sentNs s n) ↔ ∃ n ∈ s.nsList, a = nsItem s n :=
      exists_congr fun n => and_congr_right fun hn => by
        rw [sentNs_of_faithful (hheld.ns s hs n hn) ((hf.subsys s hs).devid n hn)]
    have hlinks : (∃ p ∈ target.portidList, a = sentPortLink s p) ↔ ∃ p ∈ target.portidList, a = portLinkItem s p :=
      exists_congr fun p => and_congr_right fun hp => by
        rw [sentPortLink, portLinkItem, emod_of_range (hf.port p hp).id]
    have hhosts : (s.isRestricted = true ∧ ∃ h ∈ s.hostList, a ∈ hostItems s h) ↔ ∃ h ∈ s.hostList, a ∈ hostItems s h := by
      cases hr : s.isRestricted
      · simp [hopen s hs hr]
      · simp
    rw [sentSubsys_eq_iff.2 (hf.subsys s hs).access, hns, hlinks, hhosts]

/-- A target whose projection is among what is sent is faithful. -/
theorem faithful_of_mem_sentView (hd : Distinct target) (hnqns : ∀ subsys ∈ target.subsysList, NqnsFit subsys)
    (h : ∀ a ∈ projection target, a ∈ (sentTarget target).map withoutTreq) : InbFaithful target where
  port := by
    intro p hp
    have hmem := h (portItem p) (mem_projection.2 (Or.inl ⟨p, hp, rfl⟩))
    rcases mem_sentView.1 hmem with ⟨q, -, hq⟩ | ⟨s, -, hs⟩
    · exact faithful_of_sentPort hq
    · simp [portItem, sentSubsys, sentNs, hostItems, sentPortLink] at hs
  subsys := by
    intro s hs
    refine ⟨hnqns s hs, ?_, ?_⟩
    · have hmem := h (subsysItem s) (mem_projection.2 (Or.inr ⟨s, hs, Or.inl rfl⟩))
      rcases mem_sentView.1 hmem with ⟨q, -, hq⟩ | ⟨t, ht, hq | hq⟩
      · simp [subsysItem, sentPort, withoutTreq] at hq
      · have hnqn : s.nqn = t.nqn := by
          rw [sentSubsys_eq, subsysItem_eq, Item.subsys.injEq] at hq
          exact hq.1
        have hst : s = t := List.inj_on_of_nodup_map hd.nqn hs ht hnqn
        subst hst
        exact sentSubsys_eq_iff.1 hq.symm
      · simp [subsysItem, sentNs, hostItems, sentPortLink] at hq
    · intro n hn hdevid
      have hmem := h (nsItem s n) (mem_projection.2 (Or.inr ⟨s, hs, Or.inr (Or.inl ⟨n, hn, rfl⟩)⟩))
      rcases mem_sentView.1 hmem with ⟨q, -, hq⟩ | ⟨t, -, hq | ⟨m, -, hq⟩ | hq⟩
      · simp [nsItem, sentPort, withoutTreq] at hq
      · simp [nsItem, sentSubsys] at hq
      · simp only [nsItem, sentNs, Item.ns.injEq] at hq
        exact entryDevid_ne t m (hq.2.2.1.symm.trans hdevid)
      · simp [nsItem, hostItems, sentPortLink] at hq

/-- In band the projection is left exactly if the target is faithful. -/
theorem view_sent_eq_iff (hheld : Held target) (hd : Distinct target) (hopen : OpenWithoutHosts target)
    (hnqns : ∀ subsys ∈ target.subsysList, NqnsFit subsys) :
    view (upserts Item.key ∅ (sentTarget target)) = (projection target).toFinset ↔ InbFaithful target := by
  have hkey : ∀ a, Item.key (withoutTreq a) = Item.key a := by
    intro a
    cases a <;> rfl
  rw [view, image_upserts hkey, Finset.image_empty]
  constructor
  · intro heq
    refine faithful_of_mem_sentView hd hnqns (fun a ha => ?_)
    rw [← List.mem_toFinset, ← heq] at ha
    exact (mem_of_mem_upserts ha).resolve_right (Finset.notMem_empty a)
  · intro hf
    exact upserts_of_mem_iff (consistent_projection hd) (mem_sentView_of_faithful hheld hopen hf)

theorem view_projection (target : Target) : view (projection target).toFinset = (projection target).toFinset := by
  have hid : ∀ a ∈ projection target, withoutTreq a = a := by
    intro a ha
    cases a with
    | port portid fam typ treq addr svcid =>
      obtain ⟨p, -, hp⟩ := port_mem_projection.1 ha
      rw [hp]
      rfl
    | subsys nqn allowany => rfl
    | ns subnqn nsid devid devnsid => rfl
    | host nqn => rfl
    | hostLink subnqn hostnqn => rfl
    | portLink subnqn portid => rfl
  ext a
  rw [view, Finset.mem_image]
  constructor
  · rintro ⟨b, hb, rfl⟩
    rwa [hid b (List.mem_toFinset.1 hb)]
  · exact fun ha => ⟨a, ha, hid a (List.mem_toFinset.1 ha)⟩

/-! ## Runs -/

theorem foldl_changes (items : List Item) (config : Finset Item) :
    (Change.reset :: items.map Change.put).foldl applyChange config = upserts Item.key ∅ items := by
  rw [List.foldl_cons, List.foldl_map]
  rfl

variable {http : HttpLib} {json : JsonLib} {w : Wire} {lists : Lists} {tgt : String}

theorem does_reconfigInb (hfind : findTarget lists tgt = some { target with mgmtMode := .inBandMgmt }) :
    Does w (targetReconfig w lists tgt) (∀ subsys ∈ target.subsysList, NqnsFit subsys) True
      (Change.reset :: (sentTarget target).map Change.put) := by
  have hprog : targetReconfig w lists tgt =
      regardless (sendSetConfig w .resetConfig) (configTargetInb w { target with mgmtMode := .inBandMgmt }) := by
    unfold targetReconfig
    rw [hfind]
    rfl
  rw [hprog]
  exact ((does_sendSetConfig takes_reset).regardless (does_configTargetInb { target with mgmtMode := .inBandMgmt })).congr
    (iff_of_eq (true_and _)) (by simp) rfl

theorem oobProgram_eq (hfind : findTarget lists tgt = some { target with mgmtMode := .outOfBandMgmt }) :
    targetReconfig w lists tgt = regardless (execDelete w target uriConfig) (configTargetOob w target) := by
  unfold targetReconfig
  rw [hfind]
  rfl

theorem does_reconfigOob (hw : ReadsAsWritten w.http w.json target) (hheld : Held target) (hplain : NamesPlain target)
    (hfind : findTarget lists tgt = some { target with mgmtMode := .outOfBandMgmt }) :
    Does w (targetReconfig w lists tgt) (∀ subsys ∈ target.subsysList, UrisFit target subsys)
      (∀ portid ∈ target.portidList, PortidAllowed portid) (Change.reset :: (projection target).map Change.put) := by
  rw [oobProgram_eq hfind]
  refine ((does_deleteConfig hw).regardless (does_configTargetOob hw hheld hplain)).congr ?_ (iff_of_eq (true_and _)) rfl
  exact and_iff_right (uriFits_of_length hheld (by decide))

/-- Lists with one target, in a mode. -/
theorem findTarget_only (target : Target) (mode : MgmtMode) :
    findTarget { targetList := [{ target with mgmtMode := mode }] } target.name = some { target with mgmtMode := mode } := by
  simp [findTarget]

/-- A manager before anything was sent to it. -/
def idle : Session (Finset Item) := { far := ∅, connected := false, results := [] }

/-- A program that returns whenever what it needs fits is exact if what it writes is. -/
theorem exact_of_does {p : Sends} {fits taken : Prop} {items : List Item} {goal : Finset Item}
    (hdoes : Does w p fits taken (Change.reset :: items.map Change.put)) (hf : fits)
    (hgoal : view (upserts Item.key ∅ items) = goal) (s : Session (Finset Item)) :
    ∃ ret s', p s = .ok (ret, s') ∧ (s'.Quiet → view s'.far = goal) := by
  obtain ⟨ret, s', hs⟩ := hdoes.returns hf s
  refine ⟨ret, s', hs, fun hq => ?_⟩
  rw [(hdoes.quiet hs hq).2.2.2.2, foldl_changes, hgoal]

/-- A program that is exact over a link that never fails had what it needs, and writes what it should. -/
theorem does_of_exact {p : Sends} {fits taken : Prop} {items : List Item} {goal : Finset Item}
    (hdoes : Does w p fits taken (Change.reset :: items.map Change.put)) (hcalm : ∀ n, w.net n = 0) (ht : taken)
    (h : ∃ ret s', p idle = .ok (ret, s') ∧ (s'.Quiet → view s'.far = goal)) :
    fits ∧ view (upserts Item.key ∅ items) = goal := by
  obtain ⟨ret, s', hs, hview⟩ := h
  have hq : s'.Quiet := hdoes.calm hcalm ht hs (by simp [idle, Session.Quiet])
  have hrun := hdoes.quiet hs hq
  refine ⟨hrun.2.1, ?_⟩
  rw [← hview hq, hrun.2.2.2.2, foldl_changes]

theorem exactInBand_iff (hheld : Held target) (hd : Distinct target) (hopen : OpenWithoutHosts target) :
    ExactIn http json .inBandMgmt target ↔ InbFaithful target := by
  constructor
  · intro h
    have hfind := findTarget_only target .inBandMgmt
    have hrun := does_of_exact (w := { net := fun _ => 0, http := http, json := json }) (does_reconfigInb hfind)
      (fun _ => rfl) trivial (h _ _ hfind (fun _ => 0) idle)
    exact (view_sent_eq_iff hheld hd hopen hrun.1).1 hrun.2
  · intro hf lists tgt hfind net s
    have hnqns : ∀ subsys ∈ target.subsysList, NqnsFit subsys := fun subsys hs => (hf.subsys subsys hs).nqns
    exact exact_of_does (does_reconfigInb hfind) hnqns ((view_sent_eq_iff hheld hd hopen hnqns).2 hf) s

theorem view_upserts_projection (hd : Distinct target) :
    view (upserts Item.key ∅ (projection target)) = (projection target).toFinset := by
  rw [upserts_of_consistent (consistent_projection hd), view_projection]

/-- A port that the manager refuses ends the reconfiguration. -/
theorem refused_oob (hw : ReadsAsWritten w.http w.json target) (hheld : Held target)
    (hrefused : ¬∀ portid ∈ target.portidList, PortidAllowed portid) (s : Session (Finset Item)) :
    ∃ ret s', regardless (execDelete w target uriConfig) (configTargetOob w target) s = .ok (ret, s') ∧ ¬s'.Quiet := by
  obtain ⟨ret₁, s₁, hs₁⟩ := (does_deleteConfig hw).returns (uriFits_of_length hheld (by decide)) s
  obtain ⟨ret₂, s₂, hs₂⟩ := (does_portsOob hw hheld).returns trivial s₁
  have hne : ret₂ ≠ 0 := by
    rintro rfl
    exact hrefused (allowed_of_portsOob_zero hw hheld hs₂)
  refine ⟨ret₂, s₂, ?_, fun hq => hrefused ((does_portsOob hw hheld).quiet hs₂ hq).2.2.1⟩
  unfold regardless configTargetOob andThen
  rw [hs₁]
  simp only [hs₂, if_neg hne]

theorem exactOutOfBand_iff (hheld : Held target) (hd : Distinct target) (hplain : NamesPlain target)
    (hw : ReadsAsWritten http json target) : ExactIn http json .outOfBandMgmt target ↔ OobFits target := by
  constructor
  · intro h hallowed
    have hfind := findTarget_only target .outOfBandMgmt
    have hdoes : Does { net := fun _ => 0, http := http, json := json } _ _ _ _ := does_reconfigOob hw hheld hplain hfind
    exact (does_of_exact hdoes (fun _ => rfl) hallowed (h _ _ hfind (fun _ => 0) idle)).1
  · intro hf lists tgt hfind net s
    by_cases hallowed : ∀ portid ∈ target.portidList, PortidAllowed portid
    · have hdoes : Does { net := net, http := http, json := json } _ _ _ _ := does_reconfigOob hw hheld hplain hfind
      exact exact_of_does hdoes (hf hallowed) (view_upserts_projection hd) s
    · rw [oobProgram_eq hfind]
      have hwire : ReadsAsWritten (Wire.mk net http json).http (Wire.mk net http json).json target := hw
      obtain ⟨ret, s', hs, hq⟩ := refused_oob hwire hheld hallowed s
      exact ⟨ret, s', hs, fun hquiet => absurd hquiet hq⟩

/-! ## The two ways -/

theorem treq_of_sentTarget {a : Item} (ha : a ∈ sentTarget target) :
    (∃ p ∈ target.portidList, a = sentPort p) ∨ withoutTreq a = a := by
  rcases List.mem_append.1 ha with ha | ha
  · obtain ⟨p, hp, rfl⟩ := List.mem_map.1 ha
    exact Or.inl ⟨p, hp, rfl⟩
  · obtain ⟨s, -, hs⟩ := List.mem_flatMap.1 ha
    right
    cases a with
    | port portid fam typ treq addr svcid => simp [sentSubsysParts, sentSubsys, sentNs, sentPortLink] at hs
    | subsys nqn allowany => rfl
    | ns subnqn nsid devid devnsid => rfl
    | host nqn => rfl
    | hostLink subnqn hostnqn => rfl
    | portLink subnqn portid => rfl

/-- What is left in band is the projection exactly if there is no port. -/
theorem sent_eq_projection_iff (hview : view (upserts Item.key ∅ (sentTarget target)) = (projection target).toFinset) :
    upserts Item.key ∅ (sentTarget target) = (projection target).toFinset ↔ target.portidList = [] := by
  constructor
  · intro heq
    by_contra hne
    obtain ⟨p, hp⟩ := List.exists_mem_of_ne_nil _ hne
    have hmem : portItem p ∈ upserts Item.key ∅ (sentTarget target) := by
      rw [heq, List.mem_toFinset]
      exact mem_projection.2 (Or.inl ⟨p, hp, rfl⟩)
    have hsent := (mem_of_mem_upserts hmem).resolve_right (Finset.notMem_empty _)
    rcases List.mem_append.1 hsent with hs | hs
    · obtain ⟨q, -, hq⟩ := List.mem_map.1 hs
      simp [sentPort, portItem, nvmfTreqNotRequired] at hq
    · obtain ⟨s, -, hs⟩ := List.mem_flatMap.1 hs
      simp [portItem, sentSubsysParts, sentSubsys, sentNs, sentPortLink] at hs
  · intro hnil
    rw [← hview, view]
    have hid : ∀ a ∈ upserts Item.key ∅ (sentTarget target), withoutTreq a = a := by
      intro a ha
      have hsent := (mem_of_mem_upserts ha).resolve_right (Finset.notMem_empty a)
      rcases treq_of_sentTarget hsent with ⟨p, hp, -⟩ | h
      · rw [hnil] at hp
        exact absurd hp List.not_mem_nil
      · exact h
    ext a
    rw [Finset.mem_image]
    constructor
    · exact fun ha => ⟨a, ha, hid a ha⟩
    · rintro ⟨b, hb, rfl⟩
      rwa [hid b hb]

/-- A reconfiguration leaves the projection of a target in band exactly if the target comes back from the messages as it was, and
out of band exactly if its URIs fit. The two then differ in the transport requirement of each port. -/
theorem reconfig_exact_iff (http : HttpLib) (json : JsonLib) (target : Target) (hheld : Held target) (hd : Distinct target)
    (hopen : OpenWithoutHosts target) (hreads : NamesPlain target → ReadsAsWritten http json target) :
    (ExactIn http json .inBandMgmt target ↔ InbFaithful target) ∧
      (NamesPlain target → (ExactIn http json .outOfBandMgmt target ↔ OobFits target)) ∧
      (NamesPlain target → InbFaithful target → ∀ config config',
        Leaves http json .inBandMgmt target config → Leaves http json .outOfBandMgmt target config' →
          view config = view config' ∧ (config = config' ↔ target.portidList = [])) := by
  refine ⟨exactInBand_iff hheld hd hopen, fun hplain => exactOutOfBand_iff hheld hd hplain (hreads hplain), ?_⟩
  rintro hplain hf config config' ⟨lists, tgt, net, s, ret, s', hfind, hrun, hq, rfl⟩
    ⟨lists', tgt', net', t, ret', t', hfind', hrun', hq', rfl⟩
  have hinb : Does { net := net, http := http, json := json } _ _ _ _ := does_reconfigInb hfind
  have hw : ReadsAsWritten (Wire.mk net' http json).http (Wire.mk net' http json).json target := hreads hplain
  have hfar := (hinb.quiet hrun hq).2.2.2.2
  have hfar' := ((does_reconfigOob hw hheld hplain hfind').quiet hrun' hq').2.2.2.2
  have hnqns : ∀ subsys ∈ target.subsysList, NqnsFit subsys := fun subsys hs => (hf.subsys subsys hs).nqns
  have hview := (view_sent_eq_iff hheld hd hopen hnqns).2 hf
  rw [foldl_changes] at hfar hfar'
  rw [upserts_of_consistent (consistent_projection hd)] at hfar'
  rw [hfar, hfar']
  exact ⟨by rw [hview, view_projection], sent_eq_projection_iff hview⟩

end

/-! A target with a port and a restricted subsystem. -/

def demoPort : Portid where
  ptr := 1
  portid := 1
  type := "rdma"
  family := "ipv4"
  address := "10.0.0.1"
  portNum := 4420

def demoHost : Host := { name := "h", nqn := "nqn.host" }

def demoNs : Ns := { nsid := 1, devid := -1, devns := 0 }

def demoSubsys : Subsystem := { nqn := "nqn.subsys", access := 0, hostList := [demoHost], nsList := [demoNs] }

def demoTarget : Target where
  ptr := 0
  name := "t"
  oob := { address := "10.0.0.1", port := 22345 }
  subsysList := [demoSubsys]
  portidList := [demoPort]

/-- A web server that hands over what is behind the address of a URL. -/
def httpOf (target : Target) : HttpLib where
  uri := fun url =>
    if (getUri target).toList.isPrefixOf url.toList then
      some (String.ofList ('/' :: url.toList.drop (getUri target).toList.length))
    else none

theorem httpOf_uri (target : Target) (path : String) : (httpOf target).uri (getUri target ++ path) = some ("/" ++ path) := by
  have hprefix : (getUri target).toList.isPrefixOf (getUri target ++ path).toList = true := by
    rw [String.toList_append]
    exact List.isPrefixOf_iff_prefix.2 (List.prefix_append _ _)
  simp only [httpOf, hprefix, if_true]
  rw [String.toList_append, List.drop_left]
  congr 1
  rw [← String.toList_inj, String.toList_append, String.toList_ofList]
  rfl

def demoJson : JsonLib := JsonLib.ofTexts
  [(buildSetPortOob demoPort, portValue demoPort), (buildSetPortidOob 1, portidValue demoPort),
    (buildSetSubsysOob demoSubsys, subsysValue demoSubsys), (buildSetNsOob demoNs, nsValue demoNs),
    (buildSetHostOob demoHost.nqn, hostValue demoHost)]

theorem reads_demo : ReadsAsWritten (httpOf demoTarget) demoJson demoTarget where
  uri := fun path _ => httpOf_uri demoTarget path
  port := by
    intro portid hp
    rw [List.mem_singleton.1 hp]
    rfl
  portid := by
    intro portid hp
    rw [List.mem_singleton.1 hp]
    rfl
  subsys := by
    intro subsys hs
    rw [List.mem_singleton.1 hs]
    rfl
  ns := by
    intro subsys hs ns hn
    rw [List.mem_singleton.1 hs] at hn
    rw [List.mem_singleton.1 hn]
    rfl
  host := by
    intro subsys hs host hh
    rw [List.mem_singleton.1 hs] at hh
    rw [List.mem_singleton.1 hh]
    rfl

theorem reconfig_exact_demo :
    ExactIn (httpOf demoTarget) demoJson .inBandMgmt demoTarget ∧ ExactIn (httpOf demoTarget) demoJson .outOfBandMgmt demoTarget := by
  have hheld : Held demoTarget := ⟨by decide, by decide, by decide, by decide, by decide⟩
  have hd : Distinct demoTarget := ⟨by decide, by decide, by decide⟩
  have hplain : NamesPlain demoTarget := ⟨by decide +kernel, by decide +kernel, by decide +kernel⟩
  obtain ⟨hinb, hoob, -⟩ := reconfig_exact_iff (httpOf demoTarget) demoJson demoTarget hheld hd (by decide) (fun _ => reads_demo)
  refine ⟨hinb.2 ⟨?_, ?_⟩, (hoob hplain).2 ?_⟩
  · intro p hp
    rw [List.mem_singleton.1 hp]
    exact ⟨by decide, by decide, by decide⟩
  · intro s hs
    rw [List.mem_singleton.1 hs]
    exact ⟨⟨by decide, by decide⟩, by decide, by decide⟩
  · intro _ s hs
    rw [List.mem_singleton.1 hs]
    exact ⟨fun _ => by decide, fun _ => by decide, fun _ _ => by decide⟩

/-! A port whose identifier needs more than sixteen bits, and a namespace of a subsystem with a long NQN. -/

def wideTarget : Target := { demoTarget with portidList := [{ demoPort with portid := 65537 }] }

def longSubsys : Subsystem := { nqn := String.ofList (List.replicate 100 'q'), access := 1, nsList := [demoNs] }

def longTarget : Target := { demoTarget with subsysList := [longSubsys], portidList := [] }

def longJson : JsonLib := JsonLib.ofTexts
  [(buildSetSubsysOob longSubsys, subsysValue longSubsys), (buildSetNsOob demoNs, nsValue demoNs)]

theorem reads_long : ReadsAsWritten (httpOf longTarget) longJson longTarget where
  uri := fun path _ => httpOf_uri longTarget path
  port := fun portid hp => absurd hp List.not_mem_nil
  portid := fun portid hp => absurd hp List.not_mem_nil
  subsys := by
    intro subsys hs
    rw [List.mem_singleton.1 hs]
    rfl
  ns := by
    intro subsys hs ns hn
    rw [List.mem_singleton.1 hs] at hn
    rw [List.mem_singleton.1 hn]
    rfl
  host := by
    intro subsys hs host hh
    rw [List.mem_singleton.1 hs] at hh
    exact absurd hh List.not_mem_nil

theorem reconfig_not_exact :
    (Held wideTarget ∧ Distinct wideTarget ∧ OpenWithoutHosts wideTarget ∧
      ¬ExactIn (httpOf demoTarget) demoJson .inBandMgmt wideTarget) ∧
    (Held longTarget ∧ Distinct longTarget ∧ OpenWithoutHosts longTarget ∧
      ¬ExactIn (httpOf longTarget) longJson .outOfBandMgmt longTarget) := by
  have hwide : Held wideTarget := ⟨by decide, by decide, by decide, by decide, by decide⟩
  have hwide' : Distinct wideTarget := ⟨by decide, by decide, by decide⟩
  have hlong : Held longTarget := ⟨by decide, by decide, by decide, by decide, by decide⟩
  have hlong' : Distinct longTarget := ⟨by decide, by decide, by decide⟩
  refine ⟨⟨hwide, hwide', by decide, ?_⟩, hlong, hlong', by decide, ?_⟩
  · intro hexact
    have hf := (exactInBand_iff hwide hwide' (by decide)).1 hexact
    exact absurd (hf.port { demoPort with portid := 65537 } (by decide)).id (by decide)
  · intro hexact
    have hf := (exactOutOfBand_iff hlong hlong' ⟨by decide +kernel, by decide +kernel, by decide +kernel⟩ reads_long).1 hexact
    have hfits := (hf (fun portid hp => absurd hp List.not_mem_nil) longSubsys (by decide)).ns (by decide)
    exact absurd hfits (by decide +kernel)

end Push

end NvmeDem
