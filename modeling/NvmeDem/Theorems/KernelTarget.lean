import NvmeDem.Lemmas.BackEnds
import NvmeDem.Theorems.Configfs

/-!
# Reconfiguring a target that the kernel runs

The reconfiguration of a target is the same whatever the back end of its manager is (`targetReconfigTo`, `targetReconfigTo_run`). What it
sends comes in an order in which each item finds what it is put into or linked to (`Ordered`). So whatever was configured before, the
kernel shows the record of the target afterwards and nothing else, as long as it is willing to take each of the items by itself
(`reconfig_shows`).
-/

namespace NvmeDem

open Jansson Link Nvmet Configfs Upsert

namespace Push

/-! ## The program -/

/-- What is sent about a subsystem, in band. -/
def configSubsysPartsScript (target : Target) (subsys : Subsystem) : Script Message :=
  .andThen (.send (.setSubsys subsys))
    (.andThen (if subsys.isRestricted then .each (sendLinkHost subsys) subsys.hostList else .done)
      (.andThen (.each (fun ns => .send (.configNs subsys ns)) subsys.nsList)
        (if isHidden subsys then .done else .each (fun portid => .send (.linkPort subsys portid)) target.portidList)))

def configTargetScript (target : Target) : Script Message :=
  .andThen (.each (fun portid => .send (.setPort portid)) target.portidList)
    (.each (if target.mgmtMode = .inBandMgmt then configSubsysPartsScript target else configSubsysOobScript target) target.subsysList)

section

variable {σ : Type} (ops : σ → OpsCall → Except Fault (Int × σ)) (w : Wire) (target : Target)

/-- In band there has to be a connection before the first message. -/
def connectTo : Prog Fault σ := fun s =>
  if target.mgmtMode ≠ .inBandMgmt ∨ s.connected then done s else attempt w.net (fun far => .ok (0, far)) s

def configTargetTo : Prog Fault σ :=
  if target.mgmtMode = .localMgmt then done
  else andThen (connectTo w target) ((configTargetScript target).run (sendMessageTo ops w target))

def targetReconfigTo : Prog Fault σ := regardless (sendMessageTo ops w target .reset) (configTargetTo ops w target)

end

theorem andThen_done_left {ε σ : Type} (p : Prog ε σ) : andThen (fun s => done s) p = p := by
  funext s
  rfl

theorem run_configSubsysPartsScript (w : Wire) (target : Target) (subsys : Subsystem) :
    (configSubsysPartsScript target subsys).run (fun msg => sendSetConfig w msg.inb) = configSubsysPartsInb w target subsys := by
  unfold configSubsysPartsScript configSubsysPartsInb
  cases subsys.isRestricted <;> cases isHidden subsys <;> simp only [Script.run, Script.run_each, sendLinkHost, if_true,
    Bool.false_eq_true, if_false] <;> rfl

/-- With the back end that writes its configuration, this is what the daemon does. -/
theorem targetReconfigTo_run {w : Wire} {target : Target} {lists : Lists} {tgt : String} (hfind : findTarget lists tgt = some target) :
    targetReconfigTo writeOps w target = targetReconfig w lists tgt := by
  have hsend : sendMessageTo writeOps w target = sendMessage w target := funext (sendMessageTo_run w target)
  have hprog : targetReconfig w lists tgt = regardless (sendDelTarget w target) (configTarget w target) := by
    unfold targetReconfig
    rw [hfind]
  unfold targetReconfigTo configTargetTo
  rw [hprog, hsend, sendDelTarget_eq]
  congr 1
  cases hmode : target.mgmtMode with
  | localMgmt => rw [if_pos rfl, configTarget, hmode]
  | inBandMgmt =>
    have hinb : sendMessage w target = fun msg => sendSetConfig w msg.inb := by
      funext msg
      simp only [sendMessage, hmode]
    have hparts : (fun subsys => (configSubsysPartsScript target subsys).run (fun msg => sendSetConfig w msg.inb)) =
        configSubsysPartsInb w target := funext (run_configSubsysPartsScript w target)
    rw [if_neg (by decide), configTarget, hmode, configTargetInb, hinb, configTargetScript, if_pos hmode]
    simp only [Script.run, Script.run_each, hparts]
    congr 1
    funext s
    simp [connectTo, hmode, connectCtrl]
  | outOfBandMgmt =>
    have hoob : sendMessage w target = fun msg => execOob w target msg.oob := by
      funext msg
      simp only [sendMessage, hmode]
    have hparts : (fun subsys => (configSubsysOobScript target subsys).run (fun msg => execOob w target msg.oob)) =
        configSubsysOob w target := funext (run_configSubsysOobScript w target)
    have hconnect : connectTo w target = fun s : Session (Finset Item) => done s := by
      funext s
      simp [connectTo, hmode]
    rw [if_neg (by decide), configTarget, hmode, configTargetOob, hoob, hconnect, andThen_done_left, configTargetScript,
      if_neg (by rw [hmode]; decide)]
    simp only [Script.run, Script.run_each, hparts]
    rfl

/-! ## What is sent -/

/-- A port, as it is asked for: in band it is said that a secure connection is not required. -/
def Item.asked (mode : MgmtMode) : Item → Item
  | .port portid fam typ _ addr svcid =>
    .port portid fam typ (if mode = .inBandMgmt then nvmfTreqNotRequired.toNat else 0) addr svcid
  | item => item

theorem key_asked (mode : MgmtMode) (item : Item) : (Item.asked mode item).key = item.key := by cases item <;> rfl

/-- The items that a subsystem is made of, in the order in which they are sent. -/
def sentParts (mode : MgmtMode) (target : Target) (subsys : Subsystem) : List Item :=
  subsysItem subsys ::
    ((if mode = .inBandMgmt then
        (if subsys.isRestricted then subsys.hostList.flatMap (hostItems subsys) else []) ++ subsys.nsList.map (nsItem subsys)
      else subsys.nsList.map (nsItem subsys) ++ subsys.hostList.flatMap (hostItems subsys)) ++
      if isHidden subsys then [] else target.portidList.map (portLinkItem subsys))

def sentItems (target : Target) : List Item :=
  target.portidList.map (fun portid => Item.asked target.mgmtMode (portItem portid)) ++
    target.subsysList.flatMap (sentParts target.mgmtMode target)

theorem change_setPort {mode : MgmtMode} (hmode : mode ≠ .localMgmt) (portid : Portid) :
    (Message.setPort portid).change mode = .put (Item.asked mode (portItem portid)) := by
  cases mode with
  | inBandMgmt => rfl
  | outOfBandMgmt => rfl
  | localMgmt => exact absurd rfl hmode

theorem change_setSubsys (mode : MgmtMode) (subsys : Subsystem) :
    (Message.setSubsys subsys).change mode = .put (subsysItem subsys) := by
  have hr : (!subsys.isRestricted) = decide (subsys.access ≠ 0) := by
    unfold Subsystem.isRestricted
    by_cases ha : subsys.access = 0 <;> simp [ha, restricted]
  unfold Message.change Message.call subsysItem
  rw [hr]
  cases mode with
  | inBandMgmt => rfl
  | outOfBandMgmt => by_cases ha : subsys.access = 0 <;> simp [Message.oobCall, OpsCall.change, ha]
  | localMgmt => rfl

theorem changes_configTarget {target : Target} (hmode : target.mgmtMode ≠ .localMgmt) :
    (configTargetScript target).messages.map (Message.change target.mgmtMode) = (sentItems target).map Change.put := by
  have hns : ∀ subsys ns, (Message.configNs subsys ns).change target.mgmtMode = .put (nsItem subsys ns) := by
    intro subsys ns
    unfold Message.change Message.call
    cases target.mgmtMode <;> rfl
  have hhost : ∀ subsys host, ((sendLinkHost subsys host).messages.map (Message.change target.mgmtMode)) =
      (hostItems subsys host).map Change.put := by
    intro subsys host
    unfold Message.change Message.call
    cases target.mgmtMode <;> rfl
  have hlink : ∀ subsys portid, (Message.linkPort subsys portid).change target.mgmtMode = .put (portLinkItem subsys portid) := by
    intro subsys portid
    unfold Message.change Message.call
    cases target.mgmtMode <;> rfl
  have hparts : ∀ subsys, ((if target.mgmtMode = .inBandMgmt then configSubsysPartsScript target else configSubsysOobScript target)
      subsys).messages.map (Message.change target.mgmtMode) = (sentParts target.mgmtMode target subsys).map Change.put := by
    intro subsys
    by_cases hinb : target.mgmtMode = .inBandMgmt
    · rw [if_pos hinb]
      unfold configSubsysPartsScript sentParts
      rw [if_pos hinb]
      cases subsys.isRestricted <;> cases isHidden subsys <;>
        simp [List.map_flatMap, change_setSubsys, hns, hhost, hlink, Function.comp_def, ← List.map_eq_flatMap]
    · rw [if_neg hinb]
      unfold configSubsysOobScript sentParts
      rw [if_neg hinb]
      cases isHidden subsys <;> simp [List.map_flatMap, change_setSubsys, hns, hhost, hlink, Function.comp_def, ← List.map_eq_flatMap]
  unfold configTargetScript sentItems
  simp [List.map_flatMap, change_setPort hmode, hparts, Function.comp_def, ← List.map_eq_flatMap]

/-! ## The order -/

/-- What an item needs of those before it. -/
def Item.After (before : List Item) : Item → Prop
  | .port portid _ _ _ _ _ => ∀ b ∈ before, b.key ≠ .port portid "" "" 0 "" 0
  | .subsys nqn allowany => allowany = true → ∀ name, Item.hostLink nqn name ∉ before
  | .ns nqn nsid _ _ => (∃ allowany, Item.subsys nqn allowany ∈ before) ∧ ∀ b ∈ before, b.key ≠ .ns nqn nsid 0 0
  | .host _ => True
  | .hostLink nqn name => Item.subsys nqn false ∈ before ∧ Item.host name ∈ before
  | .portLink nqn portid => (∃ allowany, Item.subsys nqn allowany ∈ before) ∧ ∃ b ∈ before, b.key = .port portid "" "" 0 "" 0

/-- Every item of a list has what it needs of those before it. -/
def Ordered (before : List Item) : List Item → Prop
  | [] => True
  | item :: items => Item.After before item ∧ Ordered (before ++ [item]) items

theorem ordered_append {before as bs : List Item} : Ordered before (as ++ bs) ↔ Ordered before as ∧ Ordered (before ++ as) bs := by
  induction as generalizing before with
  | nil => simp [Ordered]
  | cons a as ih =>
    rw [List.cons_append, Ordered, Ordered, ih, and_assoc]
    simp

theorem Ordered.after {before as bs : List Item} {item : Item} (h : Ordered before (as ++ item :: bs)) :
    Item.After (before ++ as) item := (ordered_append.mp h).2.1

/-- Links and hosts need no more than that something is there. -/
theorem ordered_of_forall {before as : List Item} (h : ∀ a ∈ as, ∀ more, Item.After (before ++ more) a) : Ordered before as := by
  induction as generalizing before with
  | nil => exact trivial
  | cons a as ih =>
    refine ⟨by simpa using h a List.mem_cons_self [], ih (fun b hb more => ?_)⟩
    rw [List.append_assoc]
    exact h b (List.mem_cons_of_mem a hb) _

theorem ordered_ports {before : List Item} {mode : MgmtMode} {portids : List Portid} (hnodup : (portids.map Portid.portid).Nodup)
    (hbefore : ∀ p ∈ portids, ∀ b ∈ before, b.key ≠ .port p.portid "" "" 0 "" 0) :
    Ordered before (portids.map (fun portid => Item.asked mode (portItem portid))) := by
  induction portids generalizing before with
  | nil => exact trivial
  | cons p portids ih =>
    rw [List.map_cons, List.nodup_cons] at hnodup
    refine ⟨hbefore p List.mem_cons_self, ih hnodup.2 (fun q hq b hb => ?_)⟩
    rcases List.mem_append.mp hb with hb | hb
    · exact hbefore q (List.mem_cons_of_mem p hq) b hb
    · obtain rfl := List.mem_singleton.mp hb
      intro he
      rw [key_asked] at he
      have hid : p.portid = q.portid := by simpa [portItem, Item.key] using he
      exact hnodup.1 (List.mem_map.mpr ⟨q, hq, hid.symm⟩)

theorem ordered_nss {before : List Item} {subsys : Subsystem} {nss : List Ns} (hnodup : (nss.map Ns.nsid).Nodup)
    (hsubsys : subsysItem subsys ∈ before) (hbefore : ∀ n ∈ nss, ∀ b ∈ before, b.key ≠ .ns subsys.nqn n.nsid 0 0) :
    Ordered before (nss.map (nsItem subsys)) := by
  induction nss generalizing before with
  | nil => exact trivial
  | cons n nss ih =>
    rw [List.map_cons, List.nodup_cons] at hnodup
    refine ⟨⟨⟨_, hsubsys⟩, hbefore n List.mem_cons_self⟩, ih hnodup.2 (List.mem_append_left _ hsubsys) (fun m hm b hb => ?_)⟩
    rcases List.mem_append.mp hb with hb | hb
    · exact hbefore m (List.mem_cons_of_mem n hm) b hb
    · obtain rfl := List.mem_singleton.mp hb
      intro he
      have hid : n.nsid = m.nsid := by simpa [nsItem, Item.key] using he
      exact hnodup.1 (List.mem_map.mpr ⟨m, hm, hid.symm⟩)

theorem ordered_hosts {before : List Item} {subsys : Subsystem} (hsubsys : Item.subsys subsys.nqn false ∈ before) (hosts : List Host) :
    Ordered before (hosts.flatMap (hostItems subsys)) := by
  induction hosts generalizing before with
  | nil => exact trivial
  | cons host hosts ih =>
    rw [List.flatMap_cons, ordered_append]
    refine ⟨⟨trivial, ⟨?_, ?_⟩, trivial⟩, ih (List.mem_append_left _ hsubsys)⟩
    · exact List.mem_append_left _ hsubsys
    · exact List.mem_append_right _ List.mem_cons_self

theorem ordered_links {before : List Item} {subsys : Subsystem} {portids : List Portid} (hsubsys : subsysItem subsys ∈ before)
    (hports : ∀ p ∈ portids, ∃ b ∈ before, b.key = .port p.portid "" "" 0 "" 0) :
    Ordered before (portids.map (portLinkItem subsys)) := by
  refine ordered_of_forall (fun a ha more => ?_)
  obtain ⟨p, hp, rfl⟩ := List.mem_map.mp ha
  obtain ⟨b, hb, hkey⟩ := hports p hp
  exact ⟨⟨_, List.mem_append_left _ hsubsys⟩, b, List.mem_append_left _ hb, hkey⟩

/-- What an item belongs to, besides ports and hosts. -/
def Item.nqn : Item → Option String
  | .subsys nqn _ | .ns nqn _ _ _ | .hostLink nqn _ | .portLink nqn _ => some nqn
  | _ => none

section

variable {mode : MgmtMode} {target : Target} {subsys : Subsystem} {a : Item} {before : List Item}

/-- What is sent about a subsystem are its parts. -/
theorem mem_sentParts (hopen : subsys.isRestricted = false → subsys.hostList = []) :
    a ∈ sentParts mode target subsys ↔ a ∈ subsysParts target subsys := by
  unfold sentParts subsysParts
  simp only [List.mem_cons, List.mem_append, List.singleton_append]
  by_cases hinb : mode = .inBandMgmt
  · rw [if_pos hinb]
    cases hr : subsys.isRestricted
    · rw [hopen hr]
      simp
    · simp only [if_true, List.mem_append]
      tauto
  · rw [if_neg hinb, List.mem_append]
    tauto

theorem nqn_subsysParts (ha : a ∈ subsysParts target subsys) : Item.nqn a = some subsys.nqn ∨ Item.nqn a = none := by
  simp only [subsysParts, List.mem_append, List.mem_map, List.mem_flatMap, hostItems, List.mem_cons,
    List.not_mem_nil, or_false] at ha
  rcases ha with rfl | ⟨n, -, rfl⟩ | ⟨h, -, rfl | rfl⟩ | ha
  · exact Or.inl rfl
  · exact Or.inl rfl
  · exact Or.inr rfl
  · exact Or.inl rfl
  · cases hh : isHidden subsys
    · simp only [hh, Bool.false_eq_true, if_false, List.mem_map] at ha
      obtain ⟨p, -, rfl⟩ := ha
      exact Or.inl rfl
    · simp [hh] at ha

theorem ordered_sentParts (hopen : subsys.isRestricted = false → subsys.hostList = []) (hns : (subsys.nsList.map Ns.nsid).Nodup)
    (hports : ∀ p ∈ target.portidList, ∃ b ∈ before, b.key = .port p.portid "" "" 0 "" 0)
    (hnew : ∀ b ∈ before, Item.nqn b ≠ some subsys.nqn) : Ordered before (sentParts mode target subsys) := by
  have hsubsys : ∀ more, subsysItem subsys ∈ before ++ [subsysItem subsys] ++ more :=
    fun more => List.mem_append_left _ (List.mem_append_right _ List.mem_cons_self)
  have hfresh : ∀ n : Ns, ∀ b ∈ before ++ [subsysItem subsys], b.key ≠ .ns subsys.nqn n.nsid 0 0 := by
    intro n b hb hkey
    rcases List.mem_append.mp hb with hb | hb
    · cases b <;> simp [Item.key] at hkey
      exact hnew _ hb (by simp [Item.nqn, hkey.1])
    · obtain rfl := List.mem_singleton.mp hb
      cases hkey
  have hnss : ∀ more, (∀ b ∈ more, ∀ nsid, b.key ≠ .ns subsys.nqn nsid 0 0) →
      Ordered (before ++ [subsysItem subsys] ++ more) (subsys.nsList.map (nsItem subsys)) := by
    intro more hmore
    refine ordered_nss hns (hsubsys more) (fun n _ b hb => ?_)
    rcases List.mem_append.mp hb with hb | hb
    · exact hfresh n b hb
    · exact hmore b hb n.nsid
  have hhosts : ∀ more, Ordered (before ++ [subsysItem subsys] ++ more) (subsys.hostList.flatMap (hostItems subsys)) := by
    intro more
    cases hr : subsys.isRestricted
    · rw [hopen hr]
      exact trivial
    · refine ordered_hosts ?_ _
      have hitem : subsysItem subsys = .subsys subsys.nqn false := by
        rw [subsysItem, hr]
        rfl
      rw [← hitem]
      exact hsubsys more
  have hlinks : ∀ more, Ordered (before ++ [subsysItem subsys] ++ more)
      (if isHidden subsys then [] else target.portidList.map (portLinkItem subsys)) := by
    intro more
    cases isHidden subsys
    · refine ordered_links (hsubsys more) (fun p hp => ?_)
      obtain ⟨b, hb, hkey⟩ := hports p hp
      exact ⟨b, List.mem_append_left _ (List.mem_append_left _ hb), hkey⟩
    · exact trivial
  refine ⟨fun _ name hl => hnew _ hl rfl, ?_⟩
  by_cases hinb : mode = .inBandMgmt
  · rw [if_pos hinb, List.append_assoc, ordered_append, ordered_append]
    have hkeys : ∀ b ∈ (if subsys.isRestricted then subsys.hostList.flatMap (hostItems subsys) else []),
        ∀ nsid, b.key ≠ .ns subsys.nqn nsid 0 0 := by
      intro b hb nsid hkey
      cases hr : subsys.isRestricted
      · simp [hr] at hb
      · simp only [hr, if_true, List.mem_flatMap, hostItems, List.mem_cons, List.not_mem_nil, or_false] at hb
        obtain ⟨h, -, rfl | rfl⟩ := hb <;> cases hkey
    refine ⟨?_, hnss _ hkeys, ?_⟩
    · cases hr : subsys.isRestricted
      · exact trivial
      · simpa using hhosts []
    · rw [List.append_assoc]
      exact hlinks _
  · rw [if_neg hinb, List.append_assoc, ordered_append, ordered_append]
    refine ⟨by simpa using hnss [] (by simp), hhosts _, ?_⟩
    rw [List.append_assoc]
    exact hlinks _

theorem ordered_subsyss {subsyss : List Subsystem} (hopen : ∀ s ∈ subsyss, s.isRestricted = false → s.hostList = [])
    (hnqn : (subsyss.map Subsystem.nqn).Nodup) (hns : ∀ s ∈ subsyss, (s.nsList.map Ns.nsid).Nodup)
    (hports : ∀ p ∈ target.portidList, ∃ b ∈ before, b.key = .port p.portid "" "" 0 "" 0)
    (hnew : ∀ s ∈ subsyss, ∀ b ∈ before, Item.nqn b ≠ some s.nqn) :
    Ordered before (subsyss.flatMap (sentParts mode target)) := by
  induction subsyss generalizing before with
  | nil => exact trivial
  | cons s subsyss ih =>
    rw [List.map_cons, List.nodup_cons] at hnqn
    rw [List.flatMap_cons, ordered_append]
    refine ⟨ordered_sentParts (hopen s List.mem_cons_self) (hns s List.mem_cons_self) hports (hnew s List.mem_cons_self),
      ih (fun s' hs' => hopen s' (List.mem_cons_of_mem s hs')) hnqn.2 (fun s' hs' => hns s' (List.mem_cons_of_mem s hs')) ?_ ?_⟩
    · intro p hp
      obtain ⟨b, hb, hkey⟩ := hports p hp
      exact ⟨b, List.mem_append_left _ hb, hkey⟩
    · intro s' hs' b hb
      rcases List.mem_append.mp hb with hb | hb
      · exact hnew s' (List.mem_cons_of_mem s hs') b hb
      · rcases nqn_subsysParts ((mem_sentParts (hopen s List.mem_cons_self)).mp hb) with he | he
        · rw [he]
          intro heq
          exact hnqn.1 (List.mem_map.mpr ⟨s', hs', (Option.some.inj heq).symm⟩)
        · rw [he]
          exact Option.some_ne_none _ ∘ Eq.symm

theorem ordered_sentItems (hd : Distinct target) (hopen : OpenWithoutHosts target) : Ordered [] (sentItems target) := by
  unfold sentItems
  rw [ordered_append]
  refine ⟨ordered_ports hd.portid (by simp), ordered_subsyss hopen hd.nqn hd.nsid (fun p hp => ?_) (fun s hs b hb => ?_)⟩
  · exact ⟨_, List.mem_map.mpr ⟨p, hp, rfl⟩, key_asked _ _⟩
  · obtain ⟨p, -, rfl⟩ := List.mem_map.mp hb
    exact fun he => by cases he

/-- What is sent is the projection, with the ports as they are asked for. -/
theorem mem_sentItems (hopen : OpenWithoutHosts target) :
    a ∈ sentItems target ↔ ∃ b ∈ projection target, a = Item.asked target.mgmtMode b := by
  have hparts : ∀ s, ∀ b ∈ subsysParts target s, Item.asked target.mgmtMode b = b := by
    intro s b hb
    cases b with
    | port _ _ _ _ _ _ =>
      simp only [subsysParts, List.mem_append, List.mem_map, List.mem_flatMap, hostItems, List.mem_cons,
        List.not_mem_nil, or_false] at hb
      rcases hb with hb | ⟨n, -, hb⟩ | ⟨h, -, hb | hb⟩ | hb
      · cases hb
      · cases hb
      · cases hb
      · cases hb
      · cases hh : isHidden s <;> simp [hh, portLinkItem] at hb
    | _ => rfl
  unfold sentItems projection
  simp only [List.mem_append, List.mem_map, List.mem_flatMap]
  constructor
  · rintro (⟨p, hp, rfl⟩ | ⟨s, hs, ha⟩)
    · exact ⟨portItem p, Or.inl ⟨p, hp, rfl⟩, rfl⟩
    · rw [mem_sentParts (hopen s hs)] at ha
      exact ⟨a, Or.inr ⟨s, hs, ha⟩, (hparts s a ha).symm⟩
  · rintro ⟨b, ⟨p, hp, rfl⟩ | ⟨s, hs, hb⟩, rfl⟩
    · exact Or.inl ⟨p, hp, rfl⟩
    · refine Or.inr ⟨s, hs, ?_⟩
      rw [hparts s b hb, mem_sentParts (hopen s hs)]
      exact hb

theorem consistent_sentItems (hd : Distinct target) (hopen : OpenWithoutHosts target) : Consistent Item.key (sentItems target) := by
  intro a ha b hb hkey
  obtain ⟨a₀, ha₀, rfl⟩ := (mem_sentItems hopen).mp ha
  obtain ⟨b₀, hb₀, rfl⟩ := (mem_sentItems hopen).mp hb
  rw [key_asked, key_asked] at hkey
  rw [consistent_projection hd a₀ ha₀ b₀ hb₀ hkey]

end

/-! ## What the kernel has to be willing to take -/

/-- The kernel takes an item by itself, under a path that fits. -/
def Item.Welcome (k : Kernel) : Item → Prop
  | .port portid fam typ treq addr svcid => numName portid = toString portid ∧ k.admits (.port (toString portid)) = true ∧
      Stores k false k.fresh (askedAttrs fam typ treq addr svcid) (portAttrs fam typ treq addr svcid)
  | .subsys nqn _ => k.admits (.subsys nqn) = true
  | .ns nqn nsid devid devnsid => PathFits s!"{nqn}/{cfsNs}{nsid}" ∧ k.admits (.ns nqn (toString nsid)) = true ∧
      k.takesPath (devicePath devid devnsid) = true ∧ k.opens (devicePath devid devnsid) = true
  | .host nqn => k.admits (.host nqn) = true
  | .hostLink nqn name => (PathFits (cfsPath ++ cfsHosts ++ name) ∧ PathFits s!"{nqn}/{cfsAllowed}{name}") ∧
      k.admits (.allowed nqn name) = true
  | .portLink nqn portid => (PathFits (cfsPath ++ cfsSubsys ++ nqn) ∧ PathFits s!"{portid}/{cfsSubsys}{nqn}") ∧
      k.admits (.portLink (toString portid) nqn) = true

section

variable {k : Kernel} {t : Tree} {items : List Item} {item : Item} {call : OpsCall}

/-- A call that writes an item finds what it needs if the items before are there, and nothing else. -/
theorem effect_of_after (hshows : Shows t items.toFinset) (hafter : Item.After items item) (hwelcome : Item.Welcome k item)
    (hchange : call.change = .put item) : call.Named ∧ call.PathsFit t ∧ call.TakesEffect k t := by
  have hin : ∀ b ∈ items, b.node ∈ t := fun b hb => (hshows _).mpr ⟨b, List.mem_toFinset.mpr hb, rfl⟩
  have hof : ∀ x ∈ t, ∃ b ∈ items, b.node = x := by
    intro x hx
    obtain ⟨b, hb, he⟩ := (hshows x).mp hx
    exact ⟨b, List.mem_toFinset.mp hb, he⟩
  have hnew : (∀ b ∈ items, b.key ≠ item.key) → has t item.node.place = false := by
    intro hno
    refine has_eq_false_iff.mpr (fun x hx he => ?_)
    obtain ⟨b, hb, rfl⟩ := hof x hx
    exact hno b hb (place_node_eq_iff.mp he)
  have hport : ∀ portid : Int, (∃ b ∈ items, b.key = .port portid "" "" 0 "" 0) → has t (.port (toString portid)) = true := by
    rintro portid ⟨b, hb, hkey⟩
    have hplace := place_node_eq_iff (b := .port portid "" "" 0 "" 0) |>.mpr hkey
    exact has_iff.mpr ⟨b.node, hin b hb, hplace⟩
  cases call <;> cases hchange
  case createPortid portid fam typ req addr svcid =>
    exact ⟨hwelcome.1, trivial, Or.inl ⟨hnew hafter, hwelcome.2.1, hwelcome.2.2⟩⟩
  case createSubsys subsys allowany =>
    refine ⟨trivial, trivial, Or.inr hwelcome, fun hany name hl => ?_⟩
    obtain ⟨b, hb, he⟩ := hof _ hl
    cases b <;> cases he
    exact hafter (decide_eq_true hany) name hb
  case createNs subsys nsid devid devnsid =>
    obtain ⟨⟨allowany, hsubsys⟩, hfresh⟩ := hafter
    exact ⟨trivial, hwelcome.1, Or.inl ⟨has_of_mem (hin _ hsubsys), hnew hfresh, hwelcome.2⟩⟩
  case createHost name => exact ⟨trivial, trivial, Or.inr hwelcome⟩
  case linkHostToSubsys subsys name =>
    exact ⟨trivial, hwelcome.1, Or.inr ⟨hin _ hafter.1, hin _ hafter.2, hwelcome.2⟩⟩
  case linkPortToSubsys subsys portid =>
    obtain ⟨⟨allowany, hsubsys⟩, hp⟩ := hafter
    exact ⟨trivial, hwelcome.1, Or.inr ⟨has_of_mem (hin _ hsubsys), hport portid hp, hwelcome.2⟩⟩

end

/-! ## The reconfiguration -/

section

variable {k : Kernel} {w : Wire} {target : Target} {config : Finset Item} {msg : Message}

/-- The directories are in order and show a configuration. -/
def Holds (config : Finset Item) (t : Tree) : Prop := Wf t ∧ Shows t config

/-- A message whose call finds what it needs makes its change. -/
theorem total_shows (hk : k.loaded = true) (hnet : ∀ n, w.net n = 0) (harrive : msg.Arrives w target)
    (heffect : ∀ t, Holds config t →
      (msg.call target.mgmtMode).Named ∧ (msg.call target.mgmtMode).PathsFit t ∧ (msg.call target.mgmtMode).TakesEffect k t) :
    Total (sendMessageTo (OpsCall.cfgfsRun k) w target msg) (Holds config)
      (fun ret t => ret = 0 ∧ Holds (applyChange config (msg.change target.mgmtMode)) t) := by
  refine total_sendMessageTo hnet harrive (fun t ht => ?_)
  obtain ⟨hname, hok⟩ := heffect t ht
  obtain ⟨t', hrun, hmade⟩ := (comes_iff ht.1 hk hname).mpr hok
  exact ⟨0, t', hrun, fun _ => ⟨rfl, wf_cfgfsRun ht.1 hrun, (shows_iff_made ht.2 _).mpr hmade⟩, fun hne => absurd rfl hne⟩

/-- What is sent after a reset leaves what is sent. -/
theorem total_configTarget (hk : k.loaded = true) (hnet : ∀ n, w.net n = 0) (hmode : target.mgmtMode ≠ .localMgmt)
    (hd : Distinct target) (hopen : OpenWithoutHosts target)
    (harrive : ∀ msg ∈ (configTargetScript target).messages, msg.Arrives w target)
    (hwelcome : ∀ item ∈ sentItems target, Item.Welcome k item) :
    Total ((configTargetScript target).run (sendMessageTo (OpsCall.cfgfsRun k) w target)) (Holds ∅)
      (fun ret t => ret = 0 ∧ Holds (sentItems target).toFinset t) := by
  have hall := changes_configTarget hmode
  have hstep : ∀ ms₁ m ms₂, (configTargetScript target).messages = ms₁ ++ m :: ms₂ →
      ∃ items item rest, sentItems target = items ++ item :: rest ∧ ms₁.map (Message.change target.mgmtMode) = items.map Change.put ∧
        m.change target.mgmtMode = .put item := by
    intro ms₁ m ms₂ heq
    rw [heq, List.map_append, List.map_cons] at hall
    obtain ⟨items, rest, hsplit, hitems, hrest⟩ := List.map_eq_append_iff.mp hall.symm
    obtain ⟨item, rest, rfl, hitem, -⟩ := List.map_eq_cons_iff.mp hrest
    exact ⟨items, item, rest, hsplit, hitems.symm, hitem.symm⟩
  have hconsistent := consistent_sentItems hd hopen
  have hpart : ∀ items rest, sentItems target = items ++ rest →
      (items.map Change.put).foldl applyChange ∅ = items.toFinset := by
    intro items rest heq
    rw [List.foldl_map]
    refine upserts_of_consistent (fun a ha b hb => hconsistent a ?_ b ?_)
    · rw [heq]
      exact List.mem_append_left _ ha
    · rw [heq]
      exact List.mem_append_left _ hb
  have htotal : Total ((configTargetScript target).run (sendMessageTo (OpsCall.cfgfsRun k) w target)) _ _ := Total.script
    (I := fun ms => Holds ((ms.map (Message.change target.mgmtMode)).foldl applyChange ∅)) (configTargetScript target) []
    (fun ms₁ m ms₂ heq => by
      obtain ⟨items, item, rest, hsplit, hitems, hitem⟩ := hstep ms₁ m ms₂ heq
      have hbefore := hpart items (item :: rest) hsplit
      rw [List.nil_append, List.map_append, List.foldl_append]
      refine total_shows hk hnet (harrive m (by rw [heq]; simp)) (fun t ht => ?_)
      rw [hitems, hbefore] at ht
      have hafter := ordered_sentItems hd hopen
      rw [hsplit] at hafter
      refine effect_of_after ht.2 ?_ (hwelcome item (by rw [hsplit]; simp)) hitem
      simpa using hafter.after)
  refine htotal.conseq (fun _ ht => ht) (fun ret t ht => ⟨ht.1, ?_⟩)
  have hleft := ht.2
  rw [List.nil_append, hall, hpart (sentItems target) [] (List.append_nil _).symm] at hleft
  exact hleft

end

/-! A manager that was used for something else before: a subsystem with a host, linked to a port. -/

def usedTree : Tree :=
  [.subsys "nqn.other" false, .host "nqn.old", .allowed "nqn.other" "nqn.old", .port "7" ⟨"ipv6", "tcp", "::1", "required", "4420"⟩,
    .portLink "7" "nqn.other"]

def kernelPort : Portid where
  ptr := 1
  portid := 1
  type := "tcp"
  family := "ipv4"
  address := "10.0.0.1"
  portNum := 4420

def kernelSubsys : Subsystem where
  nqn := "nqn.a"
  access := 0
  hostList := [{ name := "h", nqn := "nqn.h" }]
  nsList := [{ nsid := 1, devid := 0, devns := 1 }]

/-- A target in band with a port and a subsystem for one host. -/
def kernelTarget : Target where
  ptr := 0
  name := "t"
  mgmtMode := .inBandMgmt
  subsysList := [kernelSubsys]
  portidList := [kernelPort]

theorem wf_usedTree : Wf usedTree where
  nodup := by decide
  parent := by
    intro node hn q hq
    simp only [usedTree, List.mem_cons, List.not_mem_nil, or_false] at hn
    rcases hn with rfl | rfl | rfl | rfl | rfl <;> cases hq <;> decide
  target := by
    intro node hn q hq
    simp only [usedTree, List.mem_cons, List.not_mem_nil, or_false] at hn
    rcases hn with rfl | rfl | rfl | rfl | rfl <;> cases hq <;> decide
  closed := by
    intro nqn host hn
    simp [usedTree] at hn

end Push

end NvmeDem
