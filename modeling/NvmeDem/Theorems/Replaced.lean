import NvmeDem.Theorems.PortLinks

/-!
# A subsystem that is replaced

An update that renames a subsystem or changes its access takes it away from the target and sets it again, and with it went its
namespaces, the links of its hosts and the links of its ports. Out of band everything is sent again; in band the subsystem and its
links to ports are, and the namespaces and the hosts are lost.
-/

namespace NvmeDem

open Upsert

namespace Push

/-! ## The parts of a subsystem -/

def isNsOf (nqn : String) : Item → Bool
  | .ns subnqn _ _ _ => subnqn == nqn
  | _ => false

def isHostLinkOf (nqn : String) : Item → Bool
  | .hostLink subnqn _ => subnqn == nqn
  | _ => false

/-- The namespaces under an NQN. -/
def nsOf (nqn : String) (config : Finset Item) : Finset Item := config.filter (fun a => isNsOf nqn a = true)

/-- The hosts that are allowed under an NQN. -/
def hostLinksOf (nqn : String) (config : Finset Item) : Finset Item := config.filter (fun a => isHostLinkOf nqn a = true)

def hostLinkItem (subsys : Subsystem) (host : Host) : Item := .hostLink subsys.nqn host.nqn

/-- The manager has the namespaces of a subsystem and, if it is restricted, its hosts. -/
structure HasParts (subsys : Subsystem) (config : Finset Item) : Prop where
  ns : nsOf subsys.nqn config = (subsys.nsList.map (nsItem subsys)).toFinset
  hosts : subsys.isRestricted = true → hostLinksOf subsys.nqn config = (subsys.hostList.map (hostLinkItem subsys)).toFinset

/-- Nothing stands under an NQN. -/
def NoParts (nqn : String) (config : Finset Item) : Prop := nsOf nqn config = ∅ ∧ hostLinksOf nqn config = ∅

theorem isNsOf_key (nqn : String) (a b : Item) (h : Item.key a = Item.key b) : isNsOf nqn a = isNsOf nqn b := by
  cases a <;> cases b <;> cases h <;> rfl

theorem isHostLinkOf_key (nqn : String) (a b : Item) (h : Item.key a = Item.key b) : isHostLinkOf nqn a = isHostLinkOf nqn b := by
  cases a <;> cases b <;> cases h <;> rfl

section

variable {target : Target} {subsys : Subsystem} {out : SubsysArg} {config : Finset Item} {mode : MgmtMode} {nqn : String}

/-! ## Taking it away -/

theorem noParts_iff : NoParts nqn config ↔ ∀ a ∈ config, isNsOf nqn a = false ∧ isHostLinkOf nqn a = false := by
  simp only [NoParts, nsOf, hostLinksOf, Finset.filter_eq_empty_iff, Bool.not_eq_true]
  exact ⟨fun h a ha => ⟨h.1 ha, h.2 ha⟩, fun h => ⟨fun a ha => (h a ha).1, fun a ha => (h a ha).2⟩⟩

/-- The messages that replace a subsystem put nothing. -/
theorem not_put_replaceSubsysScript (a : Item) :
    Change.put a ∉ (replaceSubsysScript out subsys).messages.map (Message.change mode) := by
  unfold replaceSubsysScript
  split
  · split <;> cases mode <;> simp [Message.change, Message.call, Message.oobCall, Message.given, OpsCall.change]
  · simp

theorem noParts_replaceSubsysScript (hrep : isReplaced out subsys = true) (hclean : nqn ≠ subsys.nqn → NoParts nqn config) :
    NoParts nqn (((replaceSubsysScript out subsys).messages.map (Message.change mode)).foldl applyChange config) := by
  have hdel : Change.delete (.subsys subsys.nqn) ∈ (replaceSubsysScript out subsys).messages.map (Message.change mode) := by
    refine List.mem_map.2 ⟨.delSubsys subsys, ?_, by cases mode <;> rfl⟩
    rw [replaceSubsysScript, if_pos hrep]
    exact List.mem_cons_self
  rw [noParts_iff]
  intro a ha
  by_contra hpart
  refine absurd ha ?_
  by_cases hnqn : nqn = subsys.nqn
  · refine not_mem_foldl_of_taken (not_put_replaceSubsysScript a) hdel ?_
    rw [← hnqn]
    cases a <;> simp_all [isNsOf, isHostLinkOf, Deleted.takes]
  · exact not_mem_foldl_of_not_put (not_put_replaceSubsysScript a) (fun hmem => hpart (noParts_iff.1 (hclean hnqn) a hmem))

/-! ## Setting it again -/

/-- What the messages of a script put. -/
def puts (mode : MgmtMode) (p : Link.Script Message) : List Item := (p.messages.map (Message.change mode)).filterMap Change.item?

@[simp] theorem puts_done : puts mode .done = [] := rfl

@[simp] theorem puts_andThen (p q : Link.Script Message) : puts mode (.andThen p q) = puts mode p ++ puts mode q := by simp [puts]

@[simp] theorem puts_regardless (p q : Link.Script Message) : puts mode (.regardless p q) = puts mode p ++ puts mode q := by
  simp [puts]

@[simp] theorem puts_followedBy (p q : Link.Script Message) : puts mode (.followedBy p q) = puts mode p ++ puts mode q := by
  simp [puts]

@[simp] theorem puts_eachRegardless {α : Type} (p : α → Link.Script Message) (as : List α) :
    puts mode (.eachRegardless p as) = as.flatMap (fun a => puts mode (p a)) := by
  induction as with
  | nil => rfl
  | cons a as ih => rw [Link.Script.eachRegardless, puts_regardless, ih, List.flatMap_cons]

theorem puts_setSubsys : puts mode (.send (.setSubsys subsys)) = [subsysItem subsys] := by
  have hflag : ∀ access : Int, decide ((if access = 0 then (0 : Int) else 1) ≠ 0) = !(access == restricted) := by
    intro access
    split <;> simp_all [restricted]
  cases mode with
  | outOfBandMgmt => exact congrArg (fun allowany => [Item.subsys subsys.nqn allowany]) (hflag subsys.access)
  | _ => rw [subsysItem_eq]; rfl

theorem puts_sendLinkHost (host : Host) : puts mode (sendLinkHost subsys host) = hostItems subsys host := by cases mode <;> rfl

theorem puts_configNs (ns : Ns) : puts mode (.send (.configNs subsys ns)) = [nsItem subsys ns] := by cases mode <;> rfl

theorem puts_linkPort (portid : Portid) : puts mode (.send (.linkPort subsys portid)) = [portLinkItem subsys portid] := by
  cases mode <;> rfl

/-- Out of band a subsystem is set with all its parts. -/
theorem puts_configSubsysOobScript : puts mode (configSubsysOobScript target subsys) = subsysParts target subsys := by
  unfold configSubsysOobScript subsysParts
  rw [puts_andThen, puts_regardless, puts_regardless, puts_setSubsys, puts_eachRegardless, puts_eachRegardless]
  simp only [puts_configNs, puts_sendLinkHost, ← List.map_eq_flatMap]
  cases isHidden subsys
  · simp only [Bool.false_eq_true, if_false, puts_eachRegardless, puts_linkPort, ← List.map_eq_flatMap]
  · rfl

theorem puts_unlinkHost (host : Host) : puts mode (.send (.unlinkHost subsys host)) = [] := by cases mode <;> rfl

/-- What is put when a subsystem is set, before its links to ports. -/
theorem puts_sendConfigSubsys :
    puts mode (sendConfigSubsys target subsys) =
      if target.mgmtMode = .inBandMgmt then [subsysItem subsys]
      else if target.mgmtMode = .outOfBandMgmt then subsysParts target subsys else [] := by
  cases hmode : target.mgmtMode <;> cases hr : subsys.isRestricted <;>
    simp [sendConfigSubsys, hmode, hr, puts_setSubsys, puts_configSubsysOobScript, puts_unlinkHost]

theorem puts_links {portids : List Portid} {a : Item} (ha : a ∈ puts mode (.eachRegardless (sendLinkPortid subsys) portids)) :
    isNsOf nqn a = false ∧ isHostLinkOf nqn a = false := by
  rw [puts_eachRegardless] at ha
  obtain ⟨portid, -, ha⟩ := List.mem_flatMap.1 ha
  unfold sendLinkPortid at ha
  split at ha
  · cases ha
  · rw [puts_linkPort] at ha
    rw [List.mem_singleton.1 ha]
    exact ⟨rfl, rfl⟩

/-- Of the parts of a subsystem, those of a kind that are put when it is set. -/
theorem filter_puts_setSubsysScript {p : Item → Bool} (hlinks : ∀ a, p a = true → isNsOf nqn a = true ∨ isHostLinkOf nqn a = true)
    (hsubsys : p (subsysItem subsys) = false) :
    (puts mode (setSubsysScript target subsys)).filter p =
      if target.mgmtMode = .outOfBandMgmt then (subsysParts target subsys).filter p else [] := by
  have hnone : (puts mode (.eachRegardless (sendLinkPortid (configSubsys subsys)) target.portidList)).filter p = [] := by
    rw [List.filter_eq_nil_iff]
    intro a ha hpa
    have hlink : isNsOf nqn a = false ∧ isHostLinkOf nqn a = false := puts_links ha
    rcases hlinks a hpa with h | h
    · exact absurd h (by simp [hlink.1])
    · exact absurd h (by simp [hlink.2])
  rw [setSubsysScript, puts_andThen, List.filter_append, hnone, List.append_nil, puts_sendConfigSubsys]
  cases target.mgmtMode <;> simp [hsubsys]

theorem filter_subsysParts_ns : (subsysParts target subsys).filter (isNsOf subsys.nqn) = subsys.nsList.map (nsItem subsys) := by
  have hns : (subsys.nsList.map (nsItem subsys)).filter (isNsOf subsys.nqn) = subsys.nsList.map (nsItem subsys) := by
    rw [List.filter_eq_self]
    intro a ha
    obtain ⟨ns, -, rfl⟩ := List.mem_map.1 ha
    simp [isNsOf, nsItem]
  have hhosts : (subsys.hostList.flatMap (hostItems subsys)).filter (isNsOf subsys.nqn) = [] := by
    rw [List.filter_eq_nil_iff]
    intro a ha
    obtain ⟨host, -, ha⟩ := List.mem_flatMap.1 ha
    rcases List.mem_cons.1 ha with rfl | ha
    · simp [isNsOf]
    · rw [List.mem_singleton.1 ha]
      simp [isNsOf]
  have hports : (if isHidden subsys = true then [] else target.portidList.map (portLinkItem subsys)).filter (isNsOf subsys.nqn) = [] := by
    split
    · rfl
    · simp [isNsOf, portLinkItem]
  rw [subsysParts, List.filter_append, List.filter_append, List.filter_append, hns, hhosts, hports]
  simp [isNsOf, subsysItem]

theorem filter_subsysParts_hosts :
    (subsysParts target subsys).filter (isHostLinkOf subsys.nqn) = subsys.hostList.map (hostLinkItem subsys) := by
  have hns : (subsys.nsList.map (nsItem subsys)).filter (isHostLinkOf subsys.nqn) = [] := by
    simp [isHostLinkOf, nsItem]
  have hhosts : (subsys.hostList.flatMap (hostItems subsys)).filter (isHostLinkOf subsys.nqn) =
      subsys.hostList.map (hostLinkItem subsys) := by
    induction subsys.hostList with
    | nil => rfl
    | cons host hosts ih =>
      rw [List.flatMap_cons, List.filter_append, ih]
      simp [hostItems, isHostLinkOf, hostLinkItem]
  have hports : (if isHidden subsys = true then [] else target.portidList.map (portLinkItem subsys)).filter
      (isHostLinkOf subsys.nqn) = [] := by
    split
    · rfl
    · simp [isHostLinkOf, portLinkItem]
  rw [subsysParts, List.filter_append, List.filter_append, List.filter_append, hns, hhosts, hports]
  simp [isHostLinkOf, subsysItem]

/-- A message that takes nothing of a kind. -/
def Message.LeavesAll (mode : MgmtMode) (p : Item → Bool) (msg : Message) : Prop := (msg.change mode).Leaves p

theorem leavesAll_setSubsysScript {p : Item → Bool}
    (hunlink : subsys.isRestricted = false → ∀ host, (Message.unlinkHost subsys host).LeavesAll mode p) :
    (setSubsysScript target subsys).All (Message.LeavesAll mode p) := by
  have hset : (Message.setSubsys subsys).LeavesAll mode p := by cases mode <;> trivial
  have hns : ∀ ns, (Message.configNs subsys ns).LeavesAll mode p := fun _ => by cases mode <;> trivial
  have hhost : ∀ host, (Message.setHost host).LeavesAll mode p := fun _ => by cases mode <;> trivial
  have hlink : ∀ host, (Message.linkHost subsys host).LeavesAll mode p := fun _ => by cases mode <;> trivial
  have hport : ∀ s portid, (Message.linkPort s portid).LeavesAll mode p := fun _ _ => by cases mode <;> trivial
  have hoob : (configSubsysOobScript target subsys).All (Message.LeavesAll mode p) := by
    unfold configSubsysOobScript
    split <;> simp [sendLinkHost, hset, hns, hhost, hlink, hport]
  have hlinks : ∀ portid, (sendLinkPortid (configSubsys subsys) portid).All (Message.LeavesAll mode p) := by
    intro portid
    unfold sendLinkPortid
    split <;> simp [hport]
  have hconfig : (sendConfigSubsys target subsys).All (Message.LeavesAll mode p) := by
    cases hmode : target.mgmtMode <;> cases hr : subsys.isRestricted <;> simp [sendConfigSubsys, hmode, hr, hset, hoob] <;>
      exact fun host _ => hunlink hr host
  simp [setSubsysScript, hconfig, hlinks]

/-! ## The two ways -/

/-- The configuration after a subsystem was set. -/
def afterSet (mode : MgmtMode) (target : Target) (subsys : Subsystem) (config : Finset Item) : Finset Item :=
  ((setSubsysScript target subsys).messages.map (Message.change mode)).foldl applyChange config

/-- Of a kind that no message takes: what is put of it. -/
theorem filter_afterSet {p : Item → Bool} (hkey : ∀ a b, Item.key a = Item.key b → p a = p b)
    (hkind : ∀ a, p a = true → isNsOf nqn a = true ∨ isHostLinkOf nqn a = true) (hsubsys : p (subsysItem subsys) = false)
    (hunlink : subsys.isRestricted = false → ∀ host, (Message.unlinkHost subsys host).LeavesAll mode p)
    (hnone : config.filter (fun a => p a = true) = ∅) :
    (afterSet mode target subsys config).filter (fun a => p a = true) =
      upserts Item.key ∅ (if target.mgmtMode = .outOfBandMgmt then (subsysParts target subsys).filter p else []) := by
  have hleaves : (setSubsysScript target subsys).All (Message.LeavesAll mode p) := leavesAll_setSubsysScript hunlink
  have hfilter := filter_foldl_changes config hkey (fun c hc => by
    obtain ⟨msg, hm, rfl⟩ := List.mem_map.1 hc
    exact hleaves msg hm)
  have hputs : (puts mode (setSubsysScript target subsys)).filter p = _ := filter_puts_setSubsysScript hkind hsubsys
  rw [afterSet, hfilter, hnone]
  exact congrArg (upserts Item.key ∅) hputs

theorem nsOf_afterSet (h : NoParts subsys.nqn config) :
    nsOf subsys.nqn (afterSet mode target subsys config) =
      upserts Item.key ∅ (if target.mgmtMode = .outOfBandMgmt then subsys.nsList.map (nsItem subsys) else []) := by
  rw [← filter_subsysParts_ns]
  refine filter_afterSet (isNsOf_key subsys.nqn) (fun _ => Or.inl) rfl (fun _ host => ?_) h.1
  have hspared : ∀ a, isNsOf subsys.nqn a = true → (Deleted.hostLink subsys.nqn host.nqn).takes a = false := by
    intro a ha
    cases a <;> first | rfl | cases ha
  cases mode <;> exact hspared

theorem hostLinksOf_afterSet (h : NoParts subsys.nqn config) (hr : subsys.isRestricted = true) :
    hostLinksOf subsys.nqn (afterSet mode target subsys config) =
      upserts Item.key ∅ (if target.mgmtMode = .outOfBandMgmt then subsys.hostList.map (hostLinkItem subsys) else []) := by
  rw [← filter_subsysParts_hosts]
  refine filter_afterSet (isHostLinkOf_key subsys.nqn) (fun _ => Or.inr) rfl (fun hopen => ?_) h.2
  rw [hr] at hopen
  cases hopen

theorem mem_puts_of_put {p : Link.Script Message} {a : Item} (h : Change.put a ∈ p.messages.map (Message.change mode)) :
    a ∈ puts mode p := List.mem_filterMap.2 ⟨.put a, h, rfl⟩

/-- A subsystem that is open to all keeps no link of a host: each that was put is taken again. -/
theorem hostLinksOf_afterSet_open (h : NoParts subsys.nqn config) (hr : subsys.isRestricted = false) :
    hostLinksOf subsys.nqn (afterSet mode target subsys config) = ∅ := by
  rw [hostLinksOf, Finset.filter_eq_empty_iff]
  intro a ha hkind
  have hputs : (puts mode (setSubsysScript target subsys)).filter (isHostLinkOf subsys.nqn) = _ :=
    filter_puts_setSubsysScript (fun _ => Or.inr) rfl
  rw [filter_subsysParts_hosts] at hputs
  by_cases hhost : ∃ host ∈ subsys.hostList, hostLinkItem subsys host = a
  · obtain ⟨host, hmem, rfl⟩ := hhost
    obtain ⟨config', hconfig⟩ : ∃ first : Link.Script Message, sendConfigSubsys target subsys =
        .followedBy first (.eachRegardless (fun host => .send (.unlinkHost subsys host)) subsys.hostList) :=
      ⟨_, if_neg (by simp [hr])⟩
    rw [afterSet, setSubsysScript, hconfig] at ha
    simp only [Link.Script.messages_andThen, Link.Script.messages_followedBy, List.append_assoc, List.map_append,
      List.foldl_append] at ha
    rw [← List.foldl_append, ← List.map_append] at ha
    have htakes : (Deleted.hostLink subsys.nqn host.nqn).takes (hostLinkItem subsys host) = true := by
      simp [hostLinkItem, Deleted.takes]
    refine absurd ha (not_mem_foldl_of_taken ?_ ?_ htakes)
    · rintro hput
      rw [List.map_append, List.mem_append] at hput
      rcases hput with hput | hput
      · have hnone := mem_puts_of_put hput
        simp [puts_unlinkHost] at hnone
      · have hlink : isNsOf subsys.nqn (hostLinkItem subsys host) = false ∧ isHostLinkOf subsys.nqn (hostLinkItem subsys host) = false :=
          puts_links (mem_puts_of_put hput)
        exact absurd hkind (by simp [hlink.2])
    · refine List.mem_map.2 ⟨.unlinkHost subsys host, List.mem_append_left _ ?_, by cases mode <;> rfl⟩
      simpa using hmem
  · refine not_mem_foldl_of_not_put (fun hput => hhost ?_) (fun hmem => ?_) ha
    · have hmem : a ∈ (puts mode (setSubsysScript target subsys)).filter (isHostLinkOf subsys.nqn) :=
        List.mem_filter.2 ⟨mem_puts_of_put hput, hkind⟩
      rw [hputs] at hmem
      split at hmem
      · exact List.mem_map.1 hmem
      · cases hmem
    · exact absurd hkind (by simp [(noParts_iff.1 h a hmem).2])

theorem consistent_hostLinks (hosts : List Host) : Consistent Item.key (hosts.map (hostLinkItem subsys)) := by
  intro a ha b hb hk
  obtain ⟨host, -, rfl⟩ := List.mem_map.1 ha
  obtain ⟨host', -, rfl⟩ := List.mem_map.1 hb
  exact hk

/-- A subsystem with nothing below it. -/
def Bare (subsys : Subsystem) : Prop := subsys.nsList = [] ∧ subsys.hostList = []

/-- No two namespaces of a subsystem share an identifier and differ. -/
def NsConsistent (subsys : Subsystem) : Prop := Consistent Item.key (subsys.nsList.map (nsItem subsys))

theorem nsItem_configSubsys : nsItem (configSubsys subsys) = nsItem subsys := by
  funext ns
  simp only [nsItem, nqn_configSubsys]

theorem bare_configSubsys_iff :
    Bare (configSubsys subsys) ↔ subsys.nsList = [] ∧ (subsys.isRestricted = true → subsys.hostList = []) := by
  rw [Bare, nsList_configSubsys]
  cases hr : subsys.isRestricted <;> simp [configSubsys, hr]

/-- In band everything below a subsystem is lost. -/
theorem hasParts_inb_iff (h : NoParts subsys.nqn config) (hmode : target.mgmtMode = .inBandMgmt) :
    HasParts (configSubsys subsys) (afterSet mode target subsys config) ↔ Bare (configSubsys subsys) := by
  have hns : nsOf subsys.nqn (afterSet mode target subsys config) = _ := nsOf_afterSet h
  rw [if_neg (by simp [hmode])] at hns
  have hempty : ∀ {α : Type} (xs : List α) (f : α → Item), (upserts Item.key ∅ [] = (xs.map f).toFinset) ↔ xs = [] := by
    intro α xs f
    rw [eq_comm, show upserts Item.key ∅ [] = ∅ from rfl, List.toFinset_eq_empty_iff, List.map_eq_nil_iff]
  rw [bare_configSubsys_iff]
  constructor
  · rintro ⟨hn, hh⟩
    rw [nqn_configSubsys, hns, nsItem_configSubsys, nsList_configSubsys, hempty] at hn
    refine ⟨hn, fun hr => ?_⟩
    have hhosts : hostLinksOf subsys.nqn (afterSet mode target subsys config) = _ := hostLinksOf_afterSet h hr
    rw [if_neg (by simp [hmode])] at hhosts
    have hlinks := hh (isRestricted_configSubsys.trans hr)
    rwa [configSubsys, if_pos hr, hhosts, hempty] at hlinks
  · rintro ⟨hn, hh⟩
    refine ⟨by rw [nqn_configSubsys, hns, nsList_configSubsys, hn]; rfl, fun hr => ?_⟩
    have hr : subsys.isRestricted = true := isRestricted_configSubsys.symm.trans hr
    have hhosts : hostLinksOf subsys.nqn (afterSet mode target subsys config) = _ := hostLinksOf_afterSet h hr
    rw [if_neg (by simp [hmode])] at hhosts
    rw [configSubsys, if_pos hr, hhosts, hh hr]
    rfl

/-- Out of band everything is there again. -/
theorem hasParts_oob_iff (h : NoParts subsys.nqn config) (hmode : target.mgmtMode = .outOfBandMgmt) :
    HasParts (configSubsys subsys) (afterSet mode target subsys config) ↔ NsConsistent (configSubsys subsys) := by
  have hns : nsOf subsys.nqn (afterSet mode target subsys config) = _ := nsOf_afterSet h
  rw [if_pos hmode] at hns
  rw [NsConsistent, ← upserts_eq_iff]
  constructor
  · rintro ⟨hn, -⟩
    rwa [nqn_configSubsys, hns, ← nsItem_configSubsys, ← nsList_configSubsys] at hn
  · intro hn
    refine ⟨by rw [nqn_configSubsys, hns, ← nsItem_configSubsys, ← nsList_configSubsys, hn], fun hr => ?_⟩
    have hr : subsys.isRestricted = true := isRestricted_configSubsys.symm.trans hr
    have hhosts : hostLinksOf subsys.nqn (afterSet mode target subsys config) = _ := hostLinksOf_afterSet h hr
    rw [if_pos hmode] at hhosts
    rw [configSubsys, if_pos hr, hhosts]
    exact upserts_of_consistent (consistent_hostLinks _)

/-- The two ways leave the same only if there was nothing. -/
theorem same_parts_iff {config' : Finset Item} {target' : Target} {mode' : MgmtMode} (h : NoParts subsys.nqn config)
    (h' : NoParts subsys.nqn config') (hmode : target.mgmtMode = .inBandMgmt) (hmode' : target'.mgmtMode = .outOfBandMgmt) :
    (nsOf subsys.nqn (afterSet mode target subsys config) = nsOf subsys.nqn (afterSet mode' target' subsys config') ∧
      hostLinksOf subsys.nqn (afterSet mode target subsys config) = hostLinksOf subsys.nqn (afterSet mode' target' subsys config')) ↔
      Bare (configSubsys subsys) := by
  have hns : nsOf subsys.nqn (afterSet mode target subsys config) = _ := nsOf_afterSet h
  have hns' : nsOf subsys.nqn (afterSet mode' target' subsys config') = _ := nsOf_afterSet h'
  rw [if_neg (by simp [hmode])] at hns
  rw [if_pos hmode'] at hns'
  have hempty : ∀ {α : Type} (xs : List α) (f : α → Item), (upserts Item.key ∅ [] = upserts Item.key ∅ (xs.map f)) ↔ xs = [] := by
    intro α xs f
    rw [eq_comm, show upserts Item.key ∅ [] = ∅ from rfl, upserts_eq_empty_iff, List.map_eq_nil_iff]
  rw [bare_configSubsys_iff, hns, hns', hempty]
  refine and_congr_right (fun _ => ?_)
  cases hr : subsys.isRestricted
  · have hopen : hostLinksOf subsys.nqn (afterSet mode target subsys config) = ∅ := hostLinksOf_afterSet_open h hr
    have hopen' : hostLinksOf subsys.nqn (afterSet mode' target' subsys config') = ∅ := hostLinksOf_afterSet_open h' hr
    simp [hopen, hopen']
  · have hhosts : hostLinksOf subsys.nqn (afterSet mode target subsys config) = _ := hostLinksOf_afterSet h hr
    have hhosts' : hostLinksOf subsys.nqn (afterSet mode' target' subsys config') = _ := hostLinksOf_afterSet h' hr
    rw [if_neg (by simp [hmode])] at hhosts
    rw [if_pos hmode'] at hhosts'
    rw [hhosts, hhosts', hempty]
    simp

/-! ## Requests -/

variable {J : JsonLib} {w : Wire} {op : World × Request} {s s' : Watch}

/-- A step in which a subsystem of the target is replaced. Nothing stands under its NQN then that does not already. -/
structure Replaces (J : JsonLib) (w : Wire) (op : World × Request) (target : Target) (subsys : Subsystem) (out : SubsysArg)
    (s s' : Watch) : Prop where
  step : watchStep J w op s s'
  watched : s.target = some target
  errand : s.errand J op = some (.updateSubsys subsys.nqn out)
  found : findSubsys target subsys.nqn = some subsys
  replaced : isReplaced out subsys = true
  arrive : Arrive w target (.updateSubsys subsys.nqn out)
  clean : (subsys.updateTo out).nqn ≠ subsys.nqn → NoParts (subsys.updateTo out).nqn s.session.far

/-- The subsystem is taken away, then set. -/
theorem Replaces.far (h : Replaces J w op target subsys out s s') :
    ∃ config, NoParts (subsys.updateTo out).nqn config ∧
      s'.session.far = afterSet target.mgmtMode target (subsys.updateTo out) config := by
  have htells : op.2.tells = true := by
    obtain ⟨name, -, he⟩ := Option.bind_eq_some_iff.mp h.errand
    exact tells_of_errand he
  have hscript : (Errand.updateSubsys subsys.nqn out).script target = updateSubsysScript target out subsys := by
    simp only [Errand.script, h.found]
  refine ⟨((replaceSubsysScript out subsys).messages.map (Message.change target.mgmtMode)).foldl applyChange s.session.far,
    noParts_replaceSubsysScript h.replaced h.clean, (watchStep_errand h.step htells h.watched h.errand h.arrive).1.trans ?_⟩
  rw [changes, hscript, updateSubsysScript, Link.Script.messages_regardless, List.map_append, List.foldl_append]
  rfl

end

/-! A restricted subsystem that gets another name, without anything below it, and with a namespace and a host. -/

def renameText : String := "\x7b\"SUBNQN\":\"nqn.new\"\x7d"

def renameJson : JsonLib := JsonLib.ofTexts
  [(renameText, .object [(tagSubnqn, .string "nqn.new")]),
    (buildSetSubsysOob { nqn := "nqn.new" }, subsysValue { nqn := "nqn.new" })]

def renameOp : World × Request := ({ addr := 9 }, .setSubsys "t" (some "nqn.subsys") renameText)

def renameOut : SubsysArg := { nqn := "nqn.new", access := undefinedAccess }

def bareSubsys : Subsystem := { nqn := "nqn.subsys" }

def renameTarget (mode : MgmtMode) (subsys : Subsystem) : Target := { demoTarget with mgmtMode := mode, subsysList := [subsys] }

def renameWatch (mode : MgmtMode) (subsys : Subsystem) : Watch where
  dem := { root := aclRoot, lists := { targetList := [renameTarget mode subsys] } }
  name := some "t"
  session := { far := (projection (renameTarget mode subsys)).toFinset, connected := true, results := [] }

def renameWire : Wire where
  net := fun _ => 0
  http := httpOf demoTarget
  json := renameJson

instance (nqn : String) (config : Finset Item) : Decidable (NoParts nqn config) :=
  inferInstanceAs (Decidable (nsOf nqn config = ∅ ∧ hostLinksOf nqn config = ∅))

theorem exists_replaces_bare (mode : MgmtMode)
    (harrive : Arrive renameWire (renameTarget mode bareSubsys) (.updateSubsys "nqn.subsys" renameOut)) :
    ∃ s, Replaces renameJson renameWire renameOp (renameTarget mode bareSubsys) bareSubsys renameOut (renameWatch mode bareSubsys) s := by
  obtain ⟨s, hs⟩ : ∃ s, watchStep renameJson renameWire renameOp (renameWatch mode bareSubsys) s :=
    exists_watchStep (fun _ => rfl) (fun _ h => absurd h List.not_mem_nil) (by cases mode <;> decide) rfl rfl rfl harrive
  exact ⟨s, hs, rfl, rfl, rfl, rfl, harrive, fun _ => by cases mode <;> decide⟩

theorem arrive_bare : Arrive renameWire (renameTarget .outOfBandMgmt bareSubsys) (.updateSubsys "nqn.subsys" renameOut) := by
  have hmessages : ((Errand.updateSubsys "nqn.subsys" renameOut).script (renameTarget .outOfBandMgmt bareSubsys)).messages =
      [.delSubsys bareSubsys, .setSubsys { nqn := "nqn.new" }] := rfl
  intro msg hm
  rw [hmessages] at hm
  have huri : ∀ path, renameWire.http.uri (getUri (renameTarget .outOfBandMgmt bareSubsys) ++ path) = some ("/" ++ path) :=
    httpOf_uri demoTarget
  rcases List.mem_cons.1 hm with rfl | hm
  · exact Or.inr ⟨rfl, by decide +kernel, by decide, nofun, by decide +kernel, huri _, nofun⟩
  · rw [List.mem_singleton.1 hm]
    refine Or.inr ⟨rfl, by decide +kernel, by decide, nofun, by decide +kernel, huri _, fun _ _ h => ?_⟩
    cases h
    rfl

end Push

end NvmeDem
