import NvmeDem.Theorems.PortLinks

/-!
# Host objects

A host is set at the manager of a target when it is linked to a subsystem, under its NQN, and should be deleted with its last use. The
requests that take a host off a list delete it under its alias (`unlinkHost`, `setSubsys` when the subsystem is opened, `delTarget`),
or whatever uses are left (`delHost`). What is deleted is right when it is just what nobody uses any more (`DropsUnused`).
-/

namespace NvmeDem

open Keyed

/-- The hosts on the lists of the subsystems of a target. -/
def Target.hosts (target : Target) : List Host := target.subsysList.flatMap Subsystem.hostList

def Target.hostNqns (target : Target) : List String := target.hosts.map Host.nqn

/-- The hosts on the lists of the subsystems but one. -/
def Target.otherHosts (target : Target) (nqn : String) : List Host :=
  (target.subsysList.eraseP (fun s => s.nqn == nqn)).flatMap Subsystem.hostList

namespace Push

/-- The manager has the hosts that are on the list of a subsystem, and no others. -/
def HostsKept (target : Target) (config : Finset Item) : Prop := ∀ hostnqn, Item.host hostnqn ∈ config ↔ hostnqn ∈ target.hostNqns

/-- The manager has no hosts. -/
def NoHosts (config : Finset Item) : Prop := ∀ hostnqn, Item.host hostnqn ∉ config

/-- What is dropped is not in use any more, and what leaves is in use still or dropped. -/
def DropsUnused (leaving inUse dropped : List String) : Prop :=
  (∀ hostnqn ∈ dropped, hostnqn ∉ inUse) ∧ ∀ hostnqn ∈ leaving, hostnqn ∈ inUse ∨ hostnqn ∈ dropped

/-- The hosts that are on a list of a target after one was taken off the list of a subsystem. -/
def hostsWithout (target : Target) (subsys : Subsystem) (name : String) : List Host :=
  target.otherHosts subsys.nqn ++ subsys.hostList.eraseP (fun h => h.name == name)

/-- The errands that keep the hosts. The other errands are not of the requests here. -/
def KeepsHosts (target : Target) : Errand → Prop
  | .createSubsys _ => True
  | .linkHost _ _ => True
  -- The alias is deleted, unless a list has a host with it.
  | .unlinkHost subnqn name =>
    ∀ subsys host, findSubsys target subnqn = some subsys → subsys.hostList.find? (fun h => h.name == name) = some host →
      DropsUnused [host.nqn] ((hostsWithout target subsys name).map Host.nqn)
        (if (hostsWithout target subsys name).any (fun h => h.name == name) then [] else [name])
  -- The NQN is deleted, also when a subsystem that is open to all has the host.
  | .delHost name hostnqn =>
    target.subsysList.any Subsystem.isRestricted = true →
      DropsUnused target.hostNqns ((target.subsysList.map (Subsystem.delHost name)).flatMap (fun s => s.hostList.map Host.nqn)) [hostnqn]
  -- The list of a subsystem that is opened is emptied. The aliases are deleted if it is replaced, and out of band the hosts set again.
  | .updateSubsys nqn out =>
    ∀ subsys, findSubsys target nqn = some subsys → (subsys.updateTo out).isRestricted = false →
      if target.mgmtMode = .outOfBandMgmt then
        (∀ host ∈ subsys.hostList, host.nqn ∈ (target.otherHosts nqn).map Host.nqn) ∧
        (isReplaced out subsys = true → ∀ host ∈ subsys.hostList,
          host.name ∈ (target.otherHosts nqn).map Host.nqn → host.name ∈ subsys.hostList.map Host.nqn)
      else DropsUnused (subsys.hostList.map Host.nqn) ((target.otherHosts nqn).map Host.nqn)
        (if isReplaced out subsys then subsys.hostList.map Host.name else [])
  -- The aliases are deleted.
  | .delTarget => ∀ hostnqn ∈ target.hostNqns, hostnqn ∈ target.hosts.map Host.name
  | _ => False

/-! ## Messages -/

/-- The host that a message sets. -/
def Message.setsHost : Message → Option String
  | .setHost host => some host.nqn
  | _ => none

/-- The host that a message deletes. -/
def Message.dropsHost : Message → Option String
  | .delHost hostnqn => some hostnqn
  | _ => none

/-- A message that deletes no host. -/
def Message.DropsNone (msg : Message) : Prop := msg.dropsHost = none ∧ msg ≠ .reset

/-- A message that sets no host, and does not take all. -/
def Message.SetsNone (msg : Message) : Prop := msg.setsHost = none ∧ msg ≠ .reset

section

variable {mode : MgmtMode} {msg : Message} {msgs : List Message} {config : Finset Item} {hostnqn : String}

theorem host_mem_put (a : Item) : Item.host hostnqn ∈ applyChange config (.put a) ↔ Item.host hostnqn ∈ config ∨ a = .host hostnqn := by
  rw [applyChange, Upsert.mem_upsert]
  constructor
  · rintro (h | ⟨h, -⟩)
    · exact Or.inr h.symm
    · exact Or.inl h
  · rintro (h | rfl)
    · by_cases hkey : Item.key (.host hostnqn) = Item.key a
      · cases a <;> cases hkey
        exact Or.inl rfl
      · exact Or.inr ⟨h, hkey⟩
    · exact Or.inl rfl

theorem host_mem_delete (deleted : Deleted) :
    Item.host hostnqn ∈ applyChange config (.delete deleted) ↔ Item.host hostnqn ∈ config ∧ deleted ≠ .host hostnqn := by
  rw [applyChange, Finset.mem_filter]
  refine and_congr_right fun _ => ?_
  cases deleted with
  | host nqn =>
    show (hostnqn == nqn) = false ↔ _
    rw [beq_eq_false_iff_ne, ne_eq, ne_eq, Deleted.host.injEq, eq_comm]
  | _ => exact ⟨fun _ => (by rintro ⟨⟩), fun _ => rfl⟩

/-- A message that deletes no host. -/
theorem host_mem_of_dropsNone (h : msg.DropsNone) :
    Item.host hostnqn ∈ applyChange config (msg.change mode) ↔ Item.host hostnqn ∈ config ∨ msg.setsHost = some hostnqn := by
  obtain ⟨hdrops, hreset⟩ := h
  cases msg <;> cases mode <;>
    simp_all [Message.change, Message.call, Message.oobCall, Message.given, OpsCall.change, host_mem_put, host_mem_delete,
      Message.setsHost, Message.dropsHost]

/-- A message that sets no host. -/
theorem host_mem_of_setsNone (h : msg.SetsNone) :
    Item.host hostnqn ∈ applyChange config (msg.change mode) ↔ Item.host hostnqn ∈ config ∧ msg.dropsHost ≠ some hostnqn := by
  obtain ⟨hsets, hreset⟩ := h
  cases msg <;> cases mode <;>
    simp_all [Message.change, Message.call, Message.oobCall, Message.given, OpsCall.change, host_mem_put, host_mem_delete,
      Message.setsHost, Message.dropsHost]

theorem host_mem_of_allDropNone (h : ∀ msg ∈ msgs, msg.DropsNone) :
    Item.host hostnqn ∈ (msgs.map (Message.change mode)).foldl applyChange config ↔
      Item.host hostnqn ∈ config ∨ hostnqn ∈ msgs.filterMap Message.setsHost := by
  induction msgs generalizing config with
  | nil => simp
  | cons msg msgs ih =>
    rw [List.map_cons, List.foldl_cons, ih (fun m hm => h m (List.mem_cons_of_mem _ hm)),
      host_mem_of_dropsNone (h msg List.mem_cons_self)]
    cases hsets : msg.setsHost with
    | none => simp [hsets]
    | some name => simp [hsets, or_assoc, eq_comm]

theorem host_mem_of_allSetNone (h : ∀ msg ∈ msgs, msg.SetsNone) :
    Item.host hostnqn ∈ (msgs.map (Message.change mode)).foldl applyChange config ↔
      Item.host hostnqn ∈ config ∧ hostnqn ∉ msgs.filterMap Message.dropsHost := by
  induction msgs generalizing config with
  | nil => simp
  | cons msg msgs ih =>
    rw [List.map_cons, List.foldl_cons, ih (fun m hm => h m (List.mem_cons_of_mem _ hm)),
      host_mem_of_setsNone (h msg List.mem_cons_self)]
    cases hdrops : msg.dropsHost with
    | none => simp [hdrops]
    | some name => simp [hdrops, and_assoc, eq_comm]

end

/-! ## Scripts -/

section

variable {target : Target} {subsys : Subsystem} {out : SubsysArg} {host : Host} {name hostnqn nqn : String}

theorem dropsNone_sendLinkHost : (sendLinkHost subsys host).All Message.DropsNone := by
  simp [sendLinkHost, Message.DropsNone, Message.dropsHost]

theorem dropsNone_sendLinkPortid (portid : Portid) : (sendLinkPortid subsys portid).All Message.DropsNone := by
  unfold sendLinkPortid
  split <;> simp [Message.DropsNone, Message.dropsHost]

theorem dropsNone_setSubsysScript : (setSubsysScript target subsys).All Message.DropsNone := by
  have hoob : (configSubsysOobScript target subsys).All Message.DropsNone := by
    unfold configSubsysOobScript
    split <;> simp [dropsNone_sendLinkHost, Message.DropsNone, Message.dropsHost]
  cases hmode : target.mgmtMode <;> cases hr : subsys.isRestricted <;>
    simp [setSubsysScript, sendConfigSubsys, hmode, hr, hoob, dropsNone_sendLinkPortid, Message.DropsNone, Message.dropsHost]

@[simp] theorem sets_sendLinkPortid (portid : Portid) : (sendLinkPortid subsys portid).filterMap Message.setsHost = [] := by
  unfold sendLinkPortid
  split <;> rfl

@[simp] theorem sets_sendLinkHost : (sendLinkHost subsys host).filterMap Message.setsHost = [host.nqn] := rfl

/-- Out of band a subsystem is set with its hosts. -/
theorem sets_setSubsysScript :
    (setSubsysScript target subsys).filterMap Message.setsHost =
      if target.mgmtMode = .outOfBandMgmt then subsys.hostList.map Host.nqn else [] := by
  have hoob : (configSubsysOobScript target subsys).filterMap Message.setsHost = subsys.hostList.map Host.nqn := by
    unfold configSubsysOobScript
    split <;> simp [Message.setsHost, ← List.map_eq_flatMap]
  cases hmode : target.mgmtMode <;> cases hr : subsys.isRestricted <;>
    simp [setSubsysScript, sendConfigSubsys, hmode, hr, hoob, Message.setsHost]

theorem setsNone_replaceSubsysScript : (replaceSubsysScript out subsys).All Message.SetsNone := by
  unfold replaceSubsysScript
  split
  · split <;> simp [Message.SetsNone, Message.setsHost]
  · simp

/-- The hosts of a subsystem that is replaced are deleted by their aliases if it is open to all then. -/
theorem drops_replaceSubsysScript :
    (replaceSubsysScript out subsys).filterMap Message.dropsHost =
      if isReplaced out subsys && !(subsys.updateTo out).isRestricted then subsys.hostList.map Host.name else [] := by
  unfold replaceSubsysScript
  cases isReplaced out subsys <;> cases (subsys.updateTo out).isRestricted <;> simp [Message.dropsHost, ← List.map_eq_flatMap]

theorem setsNone_unlinkHostScript : (unlinkHostScript target subsys host).All Message.SetsNone := by
  unfold unlinkHostScript
  split <;> simp [Message.SetsNone, Message.setsHost]

theorem setsNone_delHostScript : (delHostScript target name hostnqn).All Message.SetsNone := by
  unfold delHostScript
  rw [Link.Script.all_regardless, Link.Script.all_eachRegardless]
  refine ⟨fun subsys _ => ?_, ?_⟩
  · split
    · split <;> simp [Message.SetsNone, Message.setsHost]
    · simp
  · split <;> simp [Message.SetsNone, Message.setsHost]

theorem drops_delHostScript :
    (delHostScript target name hostnqn).filterMap Message.dropsHost =
      if target.subsysList.any Subsystem.isRestricted then [hostnqn] else [] := by
  unfold delHostScript
  rw [Link.Script.filterMap_regardless, Link.Script.filterMap_eachRegardless]
  rw [List.flatMap_eq_nil_iff.2, List.nil_append]
  · split <;> rfl
  · intro subsys _
    split
    · split <;> rfl
    · rfl

theorem setsNone_delTargetScript : (delTargetScript target).All Message.SetsNone := by
  simp [delTargetScript, Message.SetsNone, Message.setsHost]

theorem drops_delTargetScript : (delTargetScript target).filterMap Message.dropsHost = target.hosts.map Host.name := by
  simp [delTargetScript, Message.dropsHost, Target.hosts, List.map_flatMap, ← List.map_eq_flatMap]

/-! ## Records -/

section

variable {f : Subsystem → Subsystem}

theorem mem_hosts_of_found (hfound : findSubsys target nqn = some subsys) :
    host ∈ target.hosts ↔ host ∈ target.otherHosts nqn ∨ host ∈ subsys.hostList := by
  have hmem : ∀ s, s ∈ target.subsysList ↔ s ∈ target.subsysList.eraseP (fun s => s.nqn == nqn) ∨ s = subsys :=
    fun s => mem_iff_of_find hfound
  simp only [Target.hosts, Target.otherHosts, List.mem_flatMap, hmem, or_and_right, exists_or, exists_eq_left]

theorem mem_hosts_onSubsys (hfound : findSubsys target nqn = some subsys) :
    host ∈ (target.onSubsys nqn f).hosts ↔ host ∈ target.otherHosts nqn ∨ host ∈ (f subsys).hostList := by
  have hmem : ∀ s, s ∈ (target.onSubsys nqn f).subsysList ↔
      s ∈ target.subsysList.eraseP (fun s => s.nqn == nqn) ∨ s = f subsys := fun s => mem_modifyFirst_iff hfound
  simp only [Target.hosts, Target.otherHosts, List.mem_flatMap, hmem, or_and_right, exists_or, exists_eq_left]

theorem mem_hostNqns_of_found (hfound : findSubsys target nqn = some subsys) :
    hostnqn ∈ target.hostNqns ↔ hostnqn ∈ (target.otherHosts nqn).map Host.nqn ∨ hostnqn ∈ subsys.hostList.map Host.nqn := by
  simp only [Target.hostNqns, List.mem_map, mem_hosts_of_found hfound, or_and_right, exists_or]

theorem mem_hostNqns_onSubsys (hfound : findSubsys target nqn = some subsys) :
    hostnqn ∈ (target.onSubsys nqn f).hostNqns ↔
      hostnqn ∈ (target.otherHosts nqn).map Host.nqn ∨ hostnqn ∈ (f subsys).hostList.map Host.nqn := by
  simp only [Target.hostNqns, List.mem_map, mem_hosts_onSubsys hfound, or_and_right, exists_or]

/-- The hosts of a target without the one that a search finds. -/
theorem mem_hosts_unlink (hfound : findSubsys target nqn = some subsys) :
    host ∈ (target.onSubsys nqn (fun s => { s with hostList := s.hostList.eraseP (fun h => h.name == name) })).hosts ↔
      host ∈ hostsWithout target subsys name := by
  rw [mem_hosts_onSubsys hfound, hostsWithout, List.mem_append, findSubsys_nqn hfound]

theorem mem_hostNqns_unlink (hfound : findSubsys target nqn = some subsys)
    (hhost : subsys.hostList.find? (fun h => h.name == name) = some host) :
    hostnqn ∈ target.hostNqns ↔ hostnqn ∈ (hostsWithout target subsys name).map Host.nqn ∨ hostnqn ∈ [host.nqn] := by
  have hmem : ∀ h, h ∈ subsys.hostList ↔ h ∈ subsys.hostList.eraseP (fun h => h.name == name) ∨ h = host :=
    fun h => mem_iff_of_find hhost
  rw [mem_hostNqns_of_found hfound, hostsWithout, List.map_append, List.mem_append, findSubsys_nqn hfound, or_assoc]
  refine or_congr_right ?_
  simp only [List.mem_map, hmem, or_and_right, exists_or, exists_eq_left, List.mem_singleton, @eq_comm _ host.nqn]

end

/-! ## Errands -/

variable {config : Finset Item}

/-- What is in use after some left and the rest stayed. -/
theorem dropsUnused_iff {before leaving inUse dropped : List String} (hbefore : ∀ x, x ∈ before ↔ x ∈ inUse ∨ x ∈ leaving) :
    (∀ x, (x ∈ before ∧ x ∉ dropped) ↔ x ∈ inUse) ↔ DropsUnused leaving inUse dropped := by
  simp only [hbefore]
  constructor
  · rintro h
    refine ⟨fun x hx huse => ((h x).2 huse).2 hx, fun x hx => ?_⟩
    by_cases hd : x ∈ dropped
    · exact Or.inr hd
    · exact Or.inl ((h x).1 ⟨Or.inr hx, hd⟩)
  · rintro ⟨hdropped, hleaving⟩ x
    constructor
    · rintro ⟨huse | hx, hd⟩
      · exact huse
      · exact (hleaving x hx).resolve_right hd
    · exact fun huse => ⟨Or.inl huse, fun hd => hdropped x hd huse⟩

/-- What is in use after some left of which all are set again. -/
theorem setAgain_iff {before leaving inUse dropped : List String} (hbefore : ∀ x, x ∈ before ↔ x ∈ inUse ∨ x ∈ leaving) :
    (∀ x, ((x ∈ before ∧ x ∉ dropped) ∨ x ∈ leaving) ↔ x ∈ inUse) ↔
      (∀ x ∈ leaving, x ∈ inUse) ∧ ∀ x ∈ dropped, x ∈ inUse → x ∈ leaving := by
  simp only [hbefore]
  constructor
  · rintro h
    refine ⟨fun x hx => (h x).1 (Or.inr hx), fun x hd huse => ?_⟩
    rcases (h x).2 huse with ⟨-, hnot⟩ | hx
    · exact absurd hd hnot
    · exact hx
  · rintro ⟨hleaving, hdropped⟩ x
    constructor
    · rintro (⟨huse | hx, -⟩ | hx)
      · exact huse
      · exact hleaving x hx
      · exact hleaving x hx
    · intro huse
      by_cases hd : x ∈ dropped
      · exact Or.inr (hdropped x hd huse)
      · exact Or.inl ⟨Or.inl huse, hd⟩

/-- An errand that only deletes hosts. -/
theorem hostsKept_of_setsNone {e : Errand} (h : HostsKept target config) (hsets : (e.script target).All Message.SetsNone) :
    HostsKept (e.apply target) ((changes target e).foldl applyChange config) ↔
      ∀ x, (x ∈ target.hostNqns ∧ x ∉ (e.script target).filterMap Message.dropsHost) ↔ x ∈ (e.apply target).hostNqns := by
  refine forall_congr' fun x => ?_
  rw [changes, host_mem_of_allSetNone hsets, h x]
  rfl

/-- An errand that says nothing and changes nothing. -/
theorem hostsKept_idle {e : Errand} (h : HostsKept target config) (hscript : e.script target = .done) (happly : e.apply target = target) :
    HostsKept (e.apply target) ((changes target e).foldl applyChange config) := by
  rw [changes, hscript, happly]
  exact h

theorem hostsKept_unlinkHost (h : HostsKept target config) :
    HostsKept ((Errand.unlinkHost nqn name).apply target) ((changes target (.unlinkHost nqn name)).foldl applyChange config) ↔
      KeepsHosts target (.unlinkHost nqn name) := by
  cases hfound : findSubsys target nqn with
  | none =>
    refine iff_of_true (hostsKept_idle h (by simp only [Errand.script, hfound]) (onSubsys_of_not_found hfound)) ?_
    rintro subsys host hsome
    rw [hfound] at hsome
    cases hsome
  | some subsys =>
    cases hhost : subsys.hostList.find? (fun h => h.name == name) with
    | none =>
      have happly : (Errand.unlinkHost nqn name).apply target = target := by
        have hsame : ∀ s, target.subsysList.find? (fun s => s.nqn == nqn) = some s →
            { s with hostList := s.hostList.eraseP (fun h => h.name == name) } = s := by
          intro s hs
          obtain rfl := Option.some.inj (hfound.symm.trans hs)
          rw [List.eraseP_of_forall_not (List.find?_eq_none.1 hhost)]
        simp only [Errand.apply, Target.onSubsys, modifyFirst_of_find_same hsame]
      refine iff_of_true (hostsKept_idle h (by simp only [Errand.script, hfound, hhost]) happly) ?_
      rintro subsys' host hsome hsome'
      obtain rfl := Option.some.inj (hfound.symm.trans hsome)
      rw [hhost] at hsome'
      cases hsome'
    | some host =>
      have hname : host.name = name := beq_iff_eq.mp (List.find?_some (p := fun h : Host => h.name == name) hhost)
      have hscript : (Errand.unlinkHost nqn name).script target = unlinkHostScript target subsys host := by
        simp only [Errand.script, hfound, hhost]
      have hused : (target.onSubsys subsys.nqn (fun s => { s with hostList := s.hostList.eraseP (fun h => h.name == host.name) })).subsysList.any
          (fun s => s.hostList.any (fun h => h.name == host.name)) =
            (hostsWithout target subsys name).any (fun h => h.name == name) := by
        rw [findSubsys_nqn hfound, hname, Bool.eq_iff_iff, ← List.any_flatMap, List.any_eq_true, List.any_eq_true]
        exact exists_congr fun x => and_congr_left' (mem_hosts_unlink hfound)
      have hdrops : ((Errand.unlinkHost nqn name).script target).filterMap Message.dropsHost =
          if (hostsWithout target subsys name).any (fun h => h.name == name) then [] else [name] := by
        rw [hscript, unlinkHostScript, hused]
        split <;> simp [Message.dropsHost, hname]
      have hinUse : ∀ x, x ∈ ((Errand.unlinkHost nqn name).apply target).hostNqns ↔
          x ∈ (hostsWithout target subsys name).map Host.nqn := by
        intro x
        simp only [Target.hostNqns, List.mem_map, Errand.apply, mem_hosts_unlink hfound]
      rw [hostsKept_of_setsNone h (by rw [hscript]; exact setsNone_unlinkHostScript), hdrops]
      simp only [hinUse]
      rw [dropsUnused_iff (fun x => mem_hostNqns_unlink hfound hhost)]
      constructor
      · rintro hkept subsys' host' hsome hsome'
        obtain rfl := Option.some.inj (hfound.symm.trans hsome)
        obtain rfl := Option.some.inj (hhost.symm.trans hsome')
        exact hkept
      · exact fun hkeeps => hkeeps subsys host hfound hhost

theorem hostsKept_delHost (h : HostsKept target config) :
    HostsKept ((Errand.delHost name hostnqn).apply target) ((changes target (.delHost name hostnqn)).foldl applyChange config) ↔
      KeepsHosts target (.delHost name hostnqn) := by
  have hafter : ((Errand.delHost name hostnqn).apply target).hostNqns =
      (target.subsysList.map (Subsystem.delHost name)).flatMap (fun s => s.hostList.map Host.nqn) := by
    simp only [Target.hostNqns, Target.hosts, Errand.apply, List.map_flatMap]
  have hsets : ((Errand.delHost name hostnqn).script target).All Message.SetsNone := setsNone_delHostScript
  have hdrops : ((Errand.delHost name hostnqn).script target).filterMap Message.dropsHost =
      if target.subsysList.any Subsystem.isRestricted then [hostnqn] else [] := drops_delHostScript
  rw [hostsKept_of_setsNone h hsets, hdrops, hafter]
  cases hany : target.subsysList.any Subsystem.isRestricted with
  | false =>
    have hopen : ∀ s ∈ target.subsysList, s.isRestricted = false := by simpa using hany
    have hsame : target.subsysList.map (Subsystem.delHost name) = target.subsysList := by
      refine (List.map_congr_left (fun s hs => ?_)).trans (List.map_id _)
      simp only [Subsystem.delHost, hopen s hs, Bool.false_eq_true, if_false, id_eq]
    rw [hsame]
    refine iff_of_true (fun x => ?_) (fun hsome => by rw [hany] at hsome; cases hsome)
    simp only [Bool.false_eq_true, if_false, List.not_mem_nil, not_false_eq_true, and_true, Target.hostNqns, Target.hosts,
      List.map_flatMap]
  | true =>
    have hleft : ∀ x, x ∈ target.hostNqns ↔
        x ∈ (target.subsysList.map (Subsystem.delHost name)).flatMap (fun s => s.hostList.map Host.nqn) ∨ x ∈ target.hostNqns := by
      intro x
      refine ⟨Or.inr, ?_⟩
      rintro (hx | hx)
      · obtain ⟨s', hs', hx⟩ := List.mem_flatMap.1 hx
        obtain ⟨s, hs, rfl⟩ := List.mem_map.1 hs'
        obtain ⟨host, hhost, rfl⟩ := List.mem_map.1 hx
        refine List.mem_map_of_mem (List.mem_flatMap.2 ⟨s, hs, ?_⟩)
        unfold Subsystem.delHost at hhost
        split at hhost
        · exact List.mem_of_mem_eraseP hhost
        · exact hhost
      · exact hx
    rw [if_pos rfl, dropsUnused_iff hleft]
    exact ⟨fun hkept _ => hkept, fun hkeeps => hkeeps hany⟩

/-- An errand on a subsystem that deletes the hosts of one list, then sets a list of hosts. -/
theorem hostsKept_updateSubsys (h : HostsKept target config) :
    HostsKept ((Errand.updateSubsys nqn out).apply target) ((changes target (.updateSubsys nqn out)).foldl applyChange config) ↔
      KeepsHosts target (.updateSubsys nqn out) := by
  cases hfound : findSubsys target nqn with
  | none =>
    refine iff_of_true (hostsKept_idle h (by simp only [Errand.script, hfound]) (onSubsys_of_not_found hfound)) ?_
    rintro subsys hsome
    rw [hfound] at hsome
    cases hsome
  | some subsys =>
    have hscript : (Errand.updateSubsys nqn out).script target = updateSubsysScript target out subsys := by
      simp only [Errand.script, hfound]
    have hmem : ∀ x, Item.host x ∈ (changes target (.updateSubsys nqn out)).foldl applyChange config ↔
        (x ∈ target.hostNqns ∧ x ∉ (if isReplaced out subsys && !(subsys.updateTo out).isRestricted then subsys.hostList.map Host.name
          else [])) ∨ x ∈ (if target.mgmtMode = .outOfBandMgmt then subsys.hostList.map Host.nqn else []) := by
      intro x
      have hsets : (setSubsysScript target (subsys.updateTo out)).filterMap Message.setsHost =
          if target.mgmtMode = .outOfBandMgmt then subsys.hostList.map Host.nqn else [] := sets_setSubsysScript
      rw [changes, hscript, updateSubsysScript, Link.Script.messages_regardless, List.map_append, List.foldl_append,
        host_mem_of_allDropNone dropsNone_setSubsysScript, host_mem_of_allSetNone setsNone_replaceSubsysScript, h x,
        ← drops_replaceSubsysScript, ← hsets]
      rfl
    have hafter : ∀ x, x ∈ ((Errand.updateSubsys nqn out).apply target).hostNqns ↔
        x ∈ (target.otherHosts nqn).map Host.nqn ∨ x ∈ (configSubsys (subsys.updateTo out)).hostList.map Host.nqn :=
      fun x => mem_hostNqns_onSubsys hfound
    have hbefore : ∀ x, x ∈ target.hostNqns ↔ x ∈ (target.otherHosts nqn).map Host.nqn ∨ x ∈ subsys.hostList.map Host.nqn :=
      fun x => mem_hostNqns_of_found hfound
    cases hr : (subsys.updateTo out).isRestricted with
    | true =>
      have hlist : (configSubsys (subsys.updateTo out)).hostList = subsys.hostList := by
        rw [configSubsys, if_pos hr]
        rfl
      refine iff_of_true (fun x => ?_) ?_
      · rw [hmem, hafter, hlist, hbefore, hr]
        simp only [Bool.not_true, Bool.and_false, Bool.false_eq_true, if_false, List.not_mem_nil, not_false_eq_true, and_true]
        refine ⟨fun hx => hx.elim id (fun hset => Or.inr ?_), Or.inl⟩
        split at hset
        · exact hset
        · cases hset
      · rintro subsys' hsome hopen
        obtain rfl := Option.some.inj (hfound.symm.trans hsome)
        rw [hr] at hopen
        cases hopen
    | false =>
      have hlist : (configSubsys (subsys.updateTo out)).hostList = [] := by
        rw [configSubsys, if_neg (by rw [hr]; exact Bool.false_ne_true)]
      have hkeeps : KeepsHosts target (.updateSubsys nqn out) ↔
          if target.mgmtMode = .outOfBandMgmt then
            (∀ host ∈ subsys.hostList, host.nqn ∈ (target.otherHosts nqn).map Host.nqn) ∧
            (isReplaced out subsys = true → ∀ host ∈ subsys.hostList,
              host.name ∈ (target.otherHosts nqn).map Host.nqn → host.name ∈ subsys.hostList.map Host.nqn)
          else DropsUnused (subsys.hostList.map Host.nqn) ((target.otherHosts nqn).map Host.nqn)
            (if isReplaced out subsys then subsys.hostList.map Host.name else []) := by
        constructor
        · exact fun hkeeps => hkeeps subsys hfound hr
        · rintro hkept subsys' hsome -
          obtain rfl := Option.some.inj (hfound.symm.trans hsome)
          exact hkept
      have hkept : HostsKept ((Errand.updateSubsys nqn out).apply target)
          ((changes target (.updateSubsys nqn out)).foldl applyChange config) ↔
            ∀ x, ((x ∈ target.hostNqns ∧ x ∉ (if isReplaced out subsys then subsys.hostList.map Host.name else [])) ∨
              x ∈ (if target.mgmtMode = .outOfBandMgmt then subsys.hostList.map Host.nqn else [])) ↔
                x ∈ (target.otherHosts nqn).map Host.nqn := by
        refine forall_congr' fun x => ?_
        rw [hmem, hafter, hlist, hr, Bool.not_false, Bool.and_true, List.map_nil]
        simp only [List.not_mem_nil, or_false]
      rw [hkept, hkeeps]
      by_cases hmode : target.mgmtMode = .outOfBandMgmt
      · simp only [if_pos hmode]
        rw [setAgain_iff hbefore, List.forall_mem_map]
        refine and_congr_right fun _ => ?_
        cases isReplaced out subsys <;> simp
      · simp only [if_neg hmode, List.not_mem_nil, or_false]
        exact dropsUnused_iff hbefore

theorem hostsKept_createSubsys (h : HostsKept target config) :
    HostsKept ((Errand.createSubsys out).apply target) ((changes target (.createSubsys out)).foldl applyChange config) := by
  intro x
  have hsets : ((Errand.createSubsys out).script target).filterMap Message.setsHost = [] := by
    simp [Errand.script, sets_setSubsysScript]
  have hafter : ((Errand.createSubsys out).apply target).hostNqns = target.hostNqns := by
    simp [Target.hostNqns, Target.hosts, Errand.apply]
  have hmem : Item.host x ∈ (changes target (.createSubsys out)).foldl applyChange config ↔
      Item.host x ∈ config ∨ x ∈ ((Errand.createSubsys out).script target).filterMap Message.setsHost :=
    host_mem_of_allDropNone dropsNone_setSubsysScript
  rw [hmem, hsets, hafter, h x]
  simp only [List.not_mem_nil, or_false]

theorem hostsKept_linkHost (h : HostsKept target config) :
    HostsKept ((Errand.linkHost nqn host).apply target) ((changes target (.linkHost nqn host)).foldl applyChange config) := by
  cases hfound : findSubsys target nqn with
  | none => exact hostsKept_idle h (by simp only [Errand.script, hfound]) (onSubsys_of_not_found hfound)
  | some subsys =>
    have hscript : (Errand.linkHost nqn host).script target = linkHostScript target subsys host := by
      simp only [Errand.script, hfound]
    have hdrops : (linkHostScript target subsys host).All Message.DropsNone := by
      unfold linkHostScript
      split <;> simp [dropsNone_sendLinkHost, dropsNone_sendLinkPortid]
    have hsets : (linkHostScript target subsys host).messages.filterMap Message.setsHost = [host.nqn] := by
      have hset : (linkHostScript target subsys host).filterMap Message.setsHost = [host.nqn] := by
        unfold linkHostScript
        split <;> simp
      exact hset
    intro x
    have hafter : x ∈ ((Errand.linkHost nqn host).apply target).hostNqns ↔
        x ∈ (target.otherHosts nqn).map Host.nqn ∨ x ∈ (subsys.hostList ++ [host]).map Host.nqn := mem_hostNqns_onSubsys hfound
    rw [changes, hscript, host_mem_of_allDropNone hdrops, hsets, h x, hafter, mem_hostNqns_of_found hfound, List.map_append,
      List.mem_append, or_assoc]
    rfl

theorem noHosts_delTarget (h : HostsKept target config) :
    NoHosts ((changes target .delTarget).foldl applyChange config) ↔ KeepsHosts target .delTarget := by
  have hmem : ∀ x, Item.host x ∈ (changes target .delTarget).foldl applyChange config ↔
      x ∈ target.hostNqns ∧ x ∉ target.hosts.map Host.name := by
    intro x
    have hdrops : (delTargetScript target).messages.filterMap Message.dropsHost = target.hosts.map Host.name := drops_delTargetScript
    rw [← h x, ← hdrops]
    exact host_mem_of_allSetNone setsNone_delTargetScript
  refine forall_congr' fun x => ?_
  rw [hmem, not_and, not_not]

/-! ## Runs -/

theorem hosts_withoutLogs : target.withoutLogs.hosts = target.hosts := by
  simp only [Target.hosts, Target.withoutLogs, List.flatMap_map]
  rfl

variable {J : JsonLib} {w : Wire} {s₀ s : Watch}

end

/-! A subsystem with one host, under its NQN or under another alias. -/

def Item.hostnqn? : Item → Option String
  | .host hostnqn => some hostnqn
  | _ => none

instance (target : Target) (config : Finset Item) : Decidable (HostsKept target config) :=
  decidable_of_iff ((∀ a ∈ config, ∀ hostnqn ∈ Item.hostnqn? a, hostnqn ∈ target.hostNqns) ∧
      ∀ hostnqn ∈ target.hostNqns, Item.host hostnqn ∈ config)
    ⟨fun h hostnqn => ⟨fun hmem => h.1 _ hmem hostnqn rfl, h.2 hostnqn⟩, fun h => ⟨fun a ha hostnqn hhost => by
      cases a <;> cases hhost
      exact (h hostnqn).1 ha, fun hostnqn => (h hostnqn).2⟩⟩

def soleRoot (name : String) : Jansson.Json := .object
  [(tagHosts, .array [.object [(tagAlias, .string name), (tagHostnqn, .string "nqn.host")]]),
    (tagTargets, .array [.object [(tagAlias, .string "t"),
      (tagSubsystems, .array [.object [(tagSubnqn, .string "nqn.subsys"), (tagHosts, .array [.string name])]])]])]

def soleHost (name : String) : Host := { name := name, nqn := "nqn.host" }

def soleWatch (name : String) : Watch where
  dem := { root := soleRoot name, lists := { targetList := [aclTarget [soleHost name]] } }
  name := some "t"
  session := { far := (projection (aclTarget [soleHost name])).toFinset, connected := true, results := [] }

def soleOp (name : String) : World × Request := ({ addr := 9 }, .unlinkHost "t" "nqn.subsys" name)

theorem exists_unlink (name : String) (hname : name = "h" ∨ name = "nqn.host") :
    Arrive calmWire (aclTarget [soleHost name]) (.unlinkHost "nqn.subsys" name) ∧
      (soleWatch name).errand demoJson (soleOp name) = some (.unlinkHost "nqn.subsys" name) ∧
      ∃ s, watchStep demoJson calmWire (soleOp name) (soleWatch name) s := by
  have harrive : Arrive calmWire (aclTarget [soleHost name]) (.unlinkHost "nqn.subsys" name) := by
    rcases hname with rfl | rfl <;> exact arrive_inb rfl (by decide)
  have herrand : (soleWatch name).errand demoJson (soleOp name) = some (.unlinkHost "nqn.subsys" name) := by
    rcases hname with rfl | rfl <;> rfl
  refine ⟨harrive, herrand, ?_⟩
  rcases hname with rfl | rfl <;>
    exact exists_watchStep (fun _ => rfl) (by decide) (by decide) rfl rfl rfl harrive

end Push

end NvmeDem
