import NvmeDem.Lemmas.Loaded

/-!
# A loaded configuration mirrors its file

What the lists of the daemon should hold after a load, said entry by entry and without the loops of the loader: `Mirrors`. It is
said over what becomes of a number (`num`) and of the text of an address (`addr`), because a number is kept as a C `int` and an
address without its prefix length.

`LoadsWell` is what a configuration has to be for the loader to take all of it.
-/

namespace NvmeDem

open Jansson

/-! ## Configurations that load -/

/-- A field is a string that fits its buffer. -/
def Fits (j : Json) (tag : String) (size : Nat) : Prop := ∃ s, j.strField tag = some s ∧ s.length ≤ size

/-- A host of the root: one with an alias has an NQN. -/
def HostLoads (iter : Json) : Prop :=
  iter.objectGet tagAlias ≠ none → Fits iter tagAlias maxAliasSize ∧ Fits iter tagHostnqn maxNqnSize

structure SubsysLoads (iter : Json) : Prop where
  nqn : iter.objectGet tagSubnqn ≠ none → Fits iter tagSubnqn maxNqnSize
  acl : ∀ x ∈ iter.entries tagHosts, x.stringValue ≠ none
  nodup : (iter.strings tagHosts).Nodup

structure PortLoads (iter : Json) : Prop where
  passes : ∀ ptr, ∃ portid, getTransportInfo iter { ptr := ptr } = .ok (true, portid)
  type : Fits iter tagType configTypeSize
  family : Fits iter tagFamily configFamilySize
  address : Fits iter tagAddress configAddressSize

/-- The interface that a management mode needs. -/
def InterfaceLoads (iter : Json) : MgmtMode → Prop
  | .localMgmt => True
  | .inBandMgmt => ∃ iface, iter.objectGet tagInterface = some iface ∧ Fits iface tagType configTypeSize ∧
      Fits iface tagFamily configFamilySize ∧ Fits iface tagAddress configAddressSize ∧
      (iface.intField tagTrsvcid).isSome
  | .outOfBandMgmt => ∃ iface, iter.objectGet tagInterface = some iface ∧ Fits iface tagIfaddress configAddressSize ∧
      (iface.intField tagIfport).isSome

structure TargetLoads (iter : Json) : Prop where
  name : Fits iter tagAlias maxAliasSize
  subnqns : (iter.keys tagSubsystems tagSubnqn).Nodup
  interface : InterfaceLoads iter (modeOf iter)
  subsystems : ∀ subsys ∈ iter.entries tagSubsystems, SubsysLoads subsys
  ports : ∀ portid ∈ iter.entries tagPortids, PortLoads portid

structure LoadsWell (root : Json) : Prop where
  targetNames : (root.keys tagTargets tagAlias).Nodup
  hostNames : (root.keys tagHosts tagAlias).Nodup
  targets : ∀ iter ∈ root.entries tagTargets, TargetLoads iter
  hosts : ∀ iter ∈ root.entries tagHosts, HostLoads iter

/-! ## What the lists should hold -/

section

variable (num : Int → Int) (addr : String → String → Prop)

/-- An entry that makes a namespace. -/
def isNs (iter : Json) : Bool := (iter.intField tagNsid).isSome && (iter.intField tagDevid).isSome

structure NsMirrors (iter : Json) (ns : Ns) : Prop where
  nsid : (iter.intField tagNsid).map num = some ns.nsid
  devid : (iter.intField tagDevid).map num = some ns.devid
  devns : ns.devns = if ns.devid = nullBlkDevid then 0 else ((iter.intField tagDevnsid).map num).getD 0

/-- A host of the root that is in the access list of a subsystem. -/
def allowedBy (subsys iter : Json) : Bool := (iter.strField tagAlias).any (fun s => s ∈ subsys.strings tagHosts)

structure HostMirrors (iter : Json) (host : Host) : Prop where
  name : iter.strField tagAlias = some host.name
  nqn : iter.strField tagHostnqn = some host.nqn

/-- A subsystem has the NQN, the access and the namespaces of its entry; a restricted one allows exactly the hosts of the root
that its list names, an unrestricted one lists none. -/
structure SubsysMirrors (root iter : Json) (subsys : Subsystem) : Prop where
  nqn : iter.strField tagSubnqn = some subsys.nqn
  access : subsys.access = ((iter.intField tagAllowAny).map num).getD 0
  namespaces : List.Forall₂ (NsMirrors num) ((iter.entries tagNsids).filter isNs) subsys.nsList
  hosts : subsys.access = 0 → List.Forall₂ HostMirrors ((root.entries tagHosts).filter (allowedBy iter)) subsys.hostList
  open' : subsys.access ≠ 0 → subsys.hostList = []

structure PortMirrors (iter : Json) (p : Portid) : Prop where
  id : p.portid = num ((iter.intField tagPortid).getD 0)
  type : iter.strField tagType = some p.type
  family : iter.strField tagFamily = some p.family
  address : ∃ s, iter.strField tagAddress = some s ∧ addr s p.address
  portNum : p.portNum = num (((iter.objectGet tagTrsvcid).map Json.integerValue).getD nvmeRdmaIpPort)
  linked : p.freed = false

/-- A target has the alias, the refresh period and the management mode of its entry, its subsystems and its ports in order. -/
structure TargetMirrors (root iter : Json) (target : Target) : Prop where
  name : iter.strField tagAlias = some target.name
  refresh : target.refresh = ((iter.intField tagRefresh).map num).getD 0
  mgmtMode : target.mgmtMode = modeOf iter
  subsystems : List.Forall₂ (SubsysMirrors num root)
    ((iter.entries tagSubsystems).filter (fun subsys => (subsys.objectGet tagSubnqn).isSome)) target.subsysList
  ports : List.Forall₂ (PortMirrors num addr) (iter.entries tagPortids) target.portidList

/-- The targets of the root, in order. -/
def Mirrors (root : Json) (targets : List Target) : Prop :=
  List.Forall₂ (TargetMirrors num addr root) (root.entries tagTargets) targets

end

/-- The text of an address, or what stands before its prefix length. -/
def BeforePrefix (s address : String) : Prop := address = s ∨ ∃ len, s = address ++ "/" ++ len

namespace LoadAux

/-! ## Texts -/

theorem strncpy_of_le {size : Nat} {s : String} (h : s.length ≤ size) : strncpy size (some s) = .ok s := by
  simp [strncpy, cCut_of_le h]

/-! ## Ports -/

/-- The parser leaves the text of an address, or what stands before a slash of it. -/
theorem stringToAddrLoop_text {len width : Nat} {delim : Char} {seen rest nibble : List Char} {addr : List Int}
    {out : AddrOut} (h : stringToAddrLoop len width delim seen rest nibble addr = .ok out) :
    out.text = seen ++ rest ∨ ∃ p, seen ++ rest = out.text ++ '/' :: p := by
  induction rest generalizing seen nibble addr with
  | nil =>
    simp only [stringToAddrLoop] at h
    split at h
    · split at h
      · cases h
        simp
      · cases h
        simp
    · cases h
      simp
  | cons c rest ih =>
    simp only [stringToAddrLoop] at h
    split at h
    · split at h
      · split at h
        · cases h
          simp
        · split at h
          · rename_i hc
            cases h
            exact Or.inr ⟨rest, by rw [hc]⟩
          · simpa using ih h
      · split at h
        · simpa using ih h
        · cases h
    · split at h
      · rename_i hc
        cases h
        exact Or.inr ⟨rest, by rw [hc]⟩
      · cases h
        simp

theorem beforePrefix_of_text {s : String} {len width : Nat} {delim : Char} {out : AddrOut}
    (h : stringToAddr s len width delim = .ok out) : BeforePrefix s (String.ofList out.text) := by
  rcases stringToAddrLoop_text h with ht | ⟨p, hp⟩
  · left
    rw [ht, List.nil_append, String.ofList_toList]
  · right
    refine ⟨String.ofList p, ?_⟩
    apply String.toList_injective
    rw [List.nil_append] at hp
    rw [hp]
    simp

theorem beforePrefix_of_familyToAddr {family s : String} {out : AddrOut}
    (h : familyToAddr family s = some (.ok out)) : BeforePrefix s (String.ofList out.text) := by
  unfold familyToAddr at h
  split at h
  · exact beforePrefix_of_text (Option.some.inj h)
  · split at h
    · exact beforePrefix_of_text (Option.some.inj h)
    · split at h
      · exact beforePrefix_of_text (Option.some.inj h)
      · cases h

theorem length_le_of_beforePrefix {s address : String} {n : Nat} (h : BeforePrefix s address) (hs : s.length ≤ n) :
    address.length ≤ n := by
  rcases h with rfl | ⟨len, rfl⟩
  · exact hs
  · simp only [String.length_append] at hs
    omega

/-- An entry that passes makes a port that mirrors it. -/
theorem port_mirrors {iter : Json} (h : PortLoads iter) (ptr : Nat) :
    ∃ p, getTransportInfo iter { ptr := ptr } = .ok (true, p) ∧ PortMirrors cInt BeforePrefix iter p := by
  obtain ⟨p, hp⟩ := h.passes ptr
  obtain ⟨type, htype, hTypeLen⟩ := h.type
  obtain ⟨family, hfamily, hFamilyLen⟩ := h.family
  obtain ⟨address, haddress, hAddressLen⟩ := h.address
  refine ⟨p, hp, ?_⟩
  have hid : ((iter.objectGet tagPortid).map Json.integerValue).getD 0 = (iter.intField tagPortid).getD 0 := by
    cases hg : iter.objectGet tagPortid with
    | none => simp [Json.intField, hg]
    | some v => cases v <;> simp [Json.intField, hg, Json.integerValue, Json.integer?]
  simp only [getTransportInfo, Json.objectGet_of_strField htype, Json.objectGet_of_strField hfamily,
    Json.objectGet_of_strField haddress, Json.stringValue, strncpy_of_le hTypeLen, strncpy_of_le hFamilyLen, bind,
    Except.bind, pure, Except.pure, Option.getD_some] at hp
  cases hfam : familyToAddr family address with
  | none => simp [hfam] at hp
  | some r =>
    cases r with
    | error f => simp [hfam] at hp
    | ok out =>
      simp only [hfam] at hp
      split at hp
      · simp at hp
      · have hb := beforePrefix_of_familyToAddr hfam
        have hcut := cCut_of_le (length_le_of_beforePrefix hb hAddressLen)
        simp only [Except.ok.injEq, Prod.mk.injEq, true_and] at hp
        subst hp
        exact { id := by rw [← hid]
                type := htype
                family := hfamily
                address := ⟨address, haddress, by simpa [hcut] using hb⟩
                portNum := rfl
                linked := rfl }

/-- Good ports are appended in order. -/
theorem addPort_mirrors (ports : List (Json × Nat)) (h : ∀ obj ∈ ports, PortLoads obj.1) (target : Target) :
    ∃ list, ports.foldlM (addPort true) (some target) =
        .ok (some { target with portidList := target.portidList ++ list }) ∧
      List.Forall₂ (fun obj p => PortMirrors cInt BeforePrefix obj.1 p) ports list := by
  induction ports generalizing target with
  | nil => exact ⟨[], by simp [pure, Except.pure], .nil⟩
  | cons obj ports ih =>
    obtain ⟨p, hp, hm⟩ := port_mirrors (h obj List.mem_cons_self) obj.2
    obtain ⟨list, hlist, hR⟩ := ih (fun o ho => h o (List.mem_cons_of_mem obj ho))
      { target with portidList := target.portidList ++ [p] }
    refine ⟨p :: list, ?_, .cons hm hR⟩
    have hadd : addPort true (some target) obj = .ok (some { target with portidList := target.portidList ++ [p] }) := by
      simp [addPort, addPortToTarget, hp, bind, Except.bind, pure, Except.pure, Except.map]
    rw [List.foldlM_cons, hadd]
    simpa [bind, Except.bind] using hlist

/-! ## Subsystems -/

theorem ns_mirrors (iter : Json) :
    if isNs iter then ∃ ns, checkNamespace iter = some ns ∧ NsMirrors cInt iter ns else checkNamespace iter = none := by
  unfold isNs checkNamespace
  cases hn : iter.intField tagNsid with
  | none => simp
  | some nsid =>
    cases hd : iter.intField tagDevid with
    | none => simp
    | some devid =>
      simp only [Option.isSome_some, Bool.and_self, if_true]
      exact ⟨_, rfl, { nsid := by simp [hn], devid := by simp [hd], devns := rfl }⟩

/-- In a list without repetitions a host is mentioned once or not at all. -/
theorem checkHost_eq {xs : List Json} (hs : ∀ x ∈ xs, x.stringValue ≠ none) (hd : (xs.filterMap Json.stringValue).Nodup)
    {name nqn : String} (hname : name.length ≤ maxAliasSize) (hnqn : nqn.length ≤ maxNqnSize) :
    collect (checkMention (some name) (some nqn)) xs =
      .ok (if name ∈ xs.filterMap Json.stringValue then [{ name := name, nqn := nqn }] else []) := by
  induction xs with
  | nil => simp [collect]
  | cons x xs ih =>
    obtain ⟨s, hx⟩ := Option.ne_none_iff_exists'.mp (hs x List.mem_cons_self)
    rw [List.filterMap_cons_some hx] at hd ⊢
    obtain ⟨hnot, hd⟩ := List.nodup_cons.mp hd
    have hrest := ih (fun y hy => hs y (List.mem_cons_of_mem x hy)) hd
    by_cases hns : name = s
    · subst hns
      have hm : checkMention (some name) (some nqn) x = .ok [{ name := name, nqn := nqn }] := by
        simp [checkMention, hx, strcpy_of_le hname, strcpy_of_le hnqn, bind, Except.bind, pure, Except.pure]
      rw [if_neg hnot] at hrest
      rw [collect_cons_of_ok hm hrest]
      simp
    · have hm : checkMention (some name) (some nqn) x = .ok [] := by simp [checkMention, hx, hns]
      rw [collect_cons_of_ok hm hrest]
      simp [hns]

/-- The hosts of the root that a list names, in the order of the root. -/
theorem hosts_mirror {subsys : Json} (h : SubsysLoads subsys) {hosts : List Json} (hh : ∀ iter ∈ hosts, HostLoads iter)
    {acl : Json} (hacl : subsys.objectGet tagHosts = some acl) {array : Json} (ha : array.elems = hosts) :
    ∃ list, checkHosts acl array = .ok list ∧ List.Forall₂ HostMirrors (hosts.filter (allowedBy subsys)) list := by
  have hentries : subsys.entries tagHosts = acl.elems := by simp [Json.entries, hacl]
  unfold checkHosts
  rw [ha]
  apply collect_filter
  intro iter hiter
  have hl := hh iter hiter
  cases hg : iter.objectGet tagAlias with
  | none => simp [allowedBy, Json.strField, hg]
  | some v =>
    obtain ⟨⟨name, hname, hnameLen⟩, ⟨nqn, hnqn, hnqnLen⟩⟩ := hl (by simp [hg])
    have hname' := Json.objectGet_of_strField hname
    have hnqn' := Json.objectGet_of_strField hnqn
    have hv : v = .string name := Option.some.inj (hg.symm.trans hname')
    have heq := checkHost_eq (fun x hx => h.acl x (by rwa [hentries]))
      (by simpa [Json.strings, hentries] using h.nodup) hnameLen hnqnLen
    simp only [hv, hnqn', Json.stringValue, checkHost]
    have hallowed : allowedBy subsys iter = decide (name ∈ acl.elems.filterMap Json.stringValue) := by
      simp [allowedBy, hname, Json.strings, hentries]
    rw [hallowed, heq]
    by_cases hmem : name ∈ acl.elems.filterMap Json.stringValue
    · rw [if_pos (by simpa using hmem)]
      exact ⟨_, by rw [if_pos hmem], { name := hname, nqn := hnqn }⟩
    · rw [if_neg (by simpa using hmem), if_neg hmem]

theorem allowedHosts_mirror {root iter : Json} (hh : ∀ h ∈ root.entries tagHosts, HostLoads h) (h : SubsysLoads iter)
    (access : Int) :
    ∃ list, allowedHosts access (iter.objectGet tagHosts) (root.objectGet tagHosts) = .ok list ∧
      (access = 0 → List.Forall₂ HostMirrors ((root.entries tagHosts).filter (allowedBy iter)) list) ∧
      (access ≠ 0 → list = []) := by
  by_cases ha : access = 0
  · cases hacl : iter.objectGet tagHosts with
    | none =>
      -- Without a list no host is allowed.
      have hnone : (root.entries tagHosts).filter (allowedBy iter) = [] := by
        simp [allowedBy, Json.strings, Json.entries, hacl]
      exact ⟨[], by simp [allowedHosts], fun _ => by simp [hnone], fun _ => rfl⟩
    | some acl =>
      cases hroot : root.objectGet tagHosts with
      | none => exact ⟨[], by simp [allowedHosts], fun _ => by simp [Json.entries, hroot], fun _ => rfl⟩
      | some array =>
        have hentries : root.entries tagHosts = array.elems := by simp [Json.entries, hroot]
        obtain ⟨list, hlist, hR⟩ := hosts_mirror h (by rwa [hentries] at hh) hacl rfl
        refine ⟨list, ?_, ?_, fun hne => absurd ha hne⟩
        · simp [allowedHosts, ha, hlist]
        · intro _
          rwa [hentries]
  · refine ⟨[], ?_, fun h0 => absurd h0 ha, fun _ => rfl⟩
    unfold allowedHosts
    split <;> simp [ha]

theorem subsys_mirrors {root iter : Json} (hh : ∀ h ∈ root.entries tagHosts, HostLoads h) (h : SubsysLoads iter) :
    if (iter.objectGet tagSubnqn).isSome then
      ∃ subsys, checkSubsystem (root.objectGet tagHosts) iter = .ok [subsys] ∧ SubsysMirrors cInt root iter subsys
    else checkSubsystem (root.objectGet tagHosts) iter = .ok [] := by
  cases hg : iter.objectGet tagSubnqn with
  | none => simp [checkSubsystem, hg]
  | some v =>
    obtain ⟨nqn, hnqn, hlen⟩ := h.nqn (by simp [hg])
    have hv : v = .string nqn := Option.some.inj (hg.symm.trans (Json.objectGet_of_strField hnqn))
    obtain ⟨list, hlist, hclosed, hopen⟩ := allowedHosts_mirror hh h (((iter.intField tagAllowAny).map cInt).getD 0)
    have hns : ((iter.objectGet tagNsids).map checkNamespaces).getD [] = (iter.entries tagNsids).filterMap checkNamespace := by
      cases hn : iter.objectGet tagNsids with
      | none => simp [Json.entries, hn]
      | some l => simp [Json.entries, hn, checkNamespaces]
    rw [if_pos (by simp)]
    refine ⟨{ nqn := nqn, access := ((iter.intField tagAllowAny).map cInt).getD 0, hostList := list,
              nsList := ((iter.objectGet tagNsids).map checkNamespaces).getD [] }, ?_, ?_⟩
    · simp [checkSubsystem, hg, hv, Json.stringValue, strcpy_of_le hlen, hlist, bind, Except.bind, pure, Except.pure]
    · exact { nqn := hnqn
              access := rfl
              namespaces := by
                rw [hns]
                exact filterMap_filter _ (fun ns _ => ns_mirrors ns)
              hosts := hclosed
              open' := hopen }

/-! ## Targets -/

/-- A complete interface is taken over, and nothing else of the target changes. -/
theorem setupTarget_eq {iter : Json} (target : Target) (h : InterfaceLoads iter target.mgmtMode) :
    ∃ oob inb, setupTarget iter target = .ok (true, { target with oob := oob, inb := inb }) := by
  unfold setupTarget
  split
  · rename_i hm
    rw [hm] at h
    obtain ⟨iface, hi, ⟨address, ha, hal⟩, hp⟩ := h
    obtain ⟨port, hport⟩ := Option.isSome_iff_exists.mp hp
    refine ⟨{ address := address, port := cInt port }, target.inb, ?_⟩
    simp [setupOobTarget, hi, ha, hport, strcpy_of_le hal, bind, Except.bind, pure, Except.pure]
  · rename_i hm
    rw [hm] at h
    obtain ⟨iface, hi, ⟨type, ht, htl⟩, ⟨family, hf, hfl⟩, ⟨address, ha, hal⟩, hp⟩ := h
    obtain ⟨port, hport⟩ := Option.isSome_iff_exists.mp hp
    refine ⟨target.oob,
      { target.inb with type := type, family := family, address := address, portNum := cInt port }, ?_⟩
    simp [setupInbTarget, hi, ht, hf, ha, hport, strcpy_of_le htl, strcpy_of_le hfl, strcpy_of_le hal, bind,
      Except.bind, pure, Except.pure, Except.map]
  · exact ⟨target.oob, target.inb, rfl⟩

/-- The entries of an array that may be absent, collected. -/
theorem collect_entries {β : Type} {j : Json} {k : String} (f : Json → Except Fault (List β)) :
    ((j.objectGet k).map (fun a => collect f a.elems)).getD (.ok []) = collect f (j.entries k) := by
  cases h : j.objectGet k with
  | none => simp [Json.entries, h, collect]
  | some a => simp [Json.entries, h]

theorem addToTargetList_mirrors {root iter : Json} (hh : ∀ h ∈ root.entries tagHosts, HostLoads h)
    (h : TargetLoads iter) (ptr : Nat) :
    ∃ target, addToTargetList ptr iter (root.objectGet tagHosts) = .ok (some target, true) ∧
      iter.strField tagAlias = some target.name ∧ target.refresh = ((iter.intField tagRefresh).map cInt).getD 0 ∧
      target.mgmtMode = modeOf iter ∧ target.portidList = [] ∧
      List.Forall₂ (SubsysMirrors cInt root)
        ((iter.entries tagSubsystems).filter (fun subsys => (subsys.objectGet tagSubnqn).isSome)) target.subsysList := by
  obtain ⟨name, hname, hlen⟩ := h.name
  obtain ⟨oob, inb, hsetup⟩ := setupTarget_eq { ptr := ptr, name := name, mgmtMode := modeOf iter } h.interface
  obtain ⟨subsystems, hsub, hsubR⟩ := collect_filter (f := checkSubsystem (root.objectGet tagHosts))
    (R := SubsysMirrors cInt root) (p := fun s => (s.objectGet tagSubnqn).isSome) (iter.entries tagSubsystems)
    (fun s hs => subsys_mirrors hh (h.subsystems s hs))
  have hget := collect_entries (j := iter) (k := tagSubsystems) (checkSubsystem (root.objectGet tagHosts))
  rw [hsub] at hget
  refine ⟨{ ptr := ptr, name := name, mgmtMode := modeOf iter, oob := oob, inb := inb, subsysList := subsystems,
            refresh := ((iter.intField tagRefresh).map cInt).getD 0 }, ?_, hname, rfl, rfl, rfl, hsubR⟩
  unfold modeOf at hsetup ⊢
  simp only [addToTargetList, Json.objectGet_of_strField hname, Json.stringValue, strncpy_of_le hlen, bind, Except.bind,
    hsetup, pure, Except.pure, if_true, checkSubsystems, hget]

theorem addPorts_mirrors {iter : Json} (h : ∀ portid ∈ iter.entries tagPortids, PortLoads portid) (target : Target) :
    ∃ list, addPorts (some target, true) iter = .ok (some { target with portidList := target.portidList ++ list }) ∧
      List.Forall₂ (PortMirrors cInt BeforePrefix) (iter.entries tagPortids) list := by
  unfold addPorts
  cases hp : iter.objectGet tagPortids with
  | none => exact ⟨[], by simp, by simp [Json.entries, hp]⟩
  | some ports =>
    have hentries : iter.entries tagPortids = ports.elems := by simp [Json.entries, hp]
    obtain ⟨list, hlist, hR⟩ := addPort_mirrors ports.elems.zipIdx
      (fun obj ho => h obj.1 (by rw [hentries]; exact List.fst_mem_of_mem_zipIdx ho)) target
    refine ⟨list, hlist, ?_⟩
    rw [hentries, ← List.zipIdx_map_fst 0 ports.elems]
    exact List.forall₂_map_left_iff.mpr hR

theorem target_mirrors {root iter : Json} (hh : ∀ h ∈ root.entries tagHosts, HostLoads h) (h : TargetLoads iter)
    (ptr : Nat) :
    ∃ target, loadTarget (root.objectGet tagHosts) ptr iter = .ok [target] ∧
      TargetMirrors cInt BeforePrefix root iter target := by
  obtain ⟨target, hadd, hname, hrefresh, hmode, hnil, hsub⟩ := addToTargetList_mirrors hh h ptr
  obtain ⟨list, hports, hR⟩ := addPorts_mirrors h.ports target
  rw [hnil, List.nil_append] at hports
  refine ⟨{ target with portidList := list }, ?_, ?_⟩
  · simp [loadTarget, hadd, hports, bind, Except.bind, pure, Except.pure]
  · exact { name := hname, refresh := hrefresh, mgmtMode := hmode, subsystems := hsub, ports := hR }

end LoadAux

open LoadAux

/-- A configuration with one host and one local target, whose subsystem has a given access. -/
def smallConfig (access : Int) : Json :=
  .object
    [(tagHosts, .array [.object [(tagAlias, .string "h"), (tagHostnqn, .string "nqn.h")]]),
     (tagTargets, .array [.object
       [(tagAlias, .string "t"),
        (tagPortids, .array [.object
          [(tagPortid, .integer 1), (tagType, .string "rdma"), (tagFamily, .string "ipv4"),
           (tagAddress, .string "10.0.0.1"), (tagTrsvcid, .integer 4420)]]),
        (tagSubsystems, .array [.object
          [(tagSubnqn, .string "nqn.s"), (tagAllowAny, .integer access), (tagHosts, .array [.string "h"])]])]])]

theorem smallConfig_loadsWell (access : Int) : LoadsWell (smallConfig access) where
  targetNames := List.nodup_singleton "t"
  hostNames := List.nodup_singleton "h"
  hosts := by
    intro iter hi
    obtain rfl := List.mem_singleton.mp hi
    exact fun _ => ⟨⟨"h", rfl, by decide⟩, ⟨"nqn.h", rfl, by decide⟩⟩
  targets := by
    intro iter hi
    obtain rfl := List.mem_singleton.mp hi
    refine { name := ⟨"t", rfl, by decide⟩
             subnqns := List.nodup_singleton "nqn.s"
             interface := trivial
             subsystems := ?_
             ports := ?_ }
    · intro subsys hs
      obtain rfl := List.mem_singleton.mp hs
      refine { nqn := fun _ => ⟨"nqn.s", rfl, by decide⟩, nodup := List.nodup_singleton "h", acl := ?_ }
      intro x hx
      obtain rfl := List.mem_singleton.mp hx
      exact Option.some_ne_none "h"
    · intro portid hp
      obtain rfl := List.mem_singleton.mp hp
      exact { passes := fun ptr => ⟨_, rfl⟩
              type := ⟨"rdma", rfl, by decide⟩
              family := ⟨"ipv4", rfl, by decide⟩
              address := ⟨"10.0.0.1", rfl, by decide⟩ }

end NvmeDem
