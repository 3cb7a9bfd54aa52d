import NvmeDem.Lemmas.Changes

/-!
# Links of ports between reconfigurations

A subsystem that some host may use is linked to every port of its target. A request that makes a subsystem usable sends the links
while it runs; `sendLinkPortid` looks at the list of hosts as it is then. For the first host of a restricted subsystem that is too
early: the host is not on the list yet, and no link is sent.
-/

namespace NvmeDem

open Keyed

namespace Push

/-- Every port of a target is linked to every subsystem that is not restricted or has a host. -/
def PortsLinked (target : Target) (config : Finset Item) : Prop :=
  ∀ subsys ∈ target.subsysList, isHidden subsys = false → ∀ portid ∈ target.portidList, portLinkItem subsys portid ∈ config

/-- The errands that keep the links of ports. The other errands are not of the requests here. -/
def KeepsLinks (target : Target) (config : Finset Item) : Errand → Prop
  | .createSubsys _ => True
  -- A subsystem that is taken away takes the links of others that have its NQN.
  | .updateSubsys nqn out =>
    ∀ subsys, findSubsys target nqn = some subsys → isReplaced out subsys = true →
      ∀ s ∈ target.subsysList.eraseP (fun s => s.nqn == nqn), s.nqn ≠ nqn
  -- So does a port with its identifier.
  | .setPortid _ id out => out.portid ≠ id → ∀ p ∈ target.portidList.eraseP (fun p => p.portid == id), p.portid ≠ id
  -- The first host of a restricted subsystem comes too late for the links.
  | .linkHost subnqn _ =>
    ∀ subsys, findSubsys target subnqn = some subsys → isHidden subsys = true →
      ∀ portid ∈ target.portidList, portLinkItem subsys portid ∈ config
  | .unlinkHost _ _ => True
  | _ => False

/-! ## Messages -/

/-- A message that takes a link. -/
def Message.cuts (nqn : String) (id : Int) : Message → Bool
  | .reset => true
  | .delPort portid => id == portid.portid
  | .delSubsys subsys => nqn == subsys.nqn
  | .unlinkPort subsys portid => nqn == subsys.nqn && id == portid.portid
  | _ => false

def Message.SparesLink (nqn : String) (id : Int) (msg : Message) : Prop := msg.cuts nqn id = false

section

variable {mode : MgmtMode} {msg : Message} {msgs : List Message} {nqn : String} {id : Int} {config : Finset Item}

theorem spares_put_portLink {b : Item} : (Change.put b).Spares (.portLink nqn id) := by
  cases b <;> intro h <;> first | exact h | cases h

theorem spares_of_not_cuts (h : msg.SparesLink nqn id) : (msg.change mode).Spares (.portLink nqn id) := by
  cases mode <;> cases msg <;> first | exact spares_put_portLink | exact h | rfl | cases h

theorem link_stays (h : ∀ msg ∈ msgs, msg.SparesLink nqn id) (hlink : Item.portLink nqn id ∈ config) :
    Item.portLink nqn id ∈ (msgs.map (Message.change mode)).foldl applyChange config := by
  refine mem_foldl_of_spares ?_ hlink
  rintro c hc
  obtain ⟨msg, hm, rfl⟩ := List.mem_map.1 hc
  exact spares_of_not_cuts (h msg hm)

theorem link_put {subsys : Subsystem} {portid : Portid} (h : ∀ msg ∈ msgs, msg.SparesLink subsys.nqn portid.portid)
    (hput : .linkPort subsys portid ∈ msgs) :
    portLinkItem subsys portid ∈ (msgs.map (Message.change mode)).foldl applyChange config := by
  refine mem_foldl_of_put ?_ (List.mem_map.2 ⟨.linkPort subsys portid, hput, ?_⟩)
  · rintro c hc
    obtain ⟨msg, hm, rfl⟩ := List.mem_map.1 hc
    exact spares_of_not_cuts (h msg hm)
  · cases mode <;> rfl

end

/-! ## Scripts -/

section

variable {target : Target} {subsys : Subsystem} {nqn : String} {id : Int}

theorem spares_sendLinkPortid (portid : Portid) : (sendLinkPortid subsys portid).All (Message.SparesLink nqn id) := by
  unfold sendLinkPortid
  split <;> simp [Message.SparesLink, Message.cuts]

theorem spares_sendLinkHost (host : Host) : (sendLinkHost subsys host).All (Message.SparesLink nqn id) := by
  simp [sendLinkHost, Message.SparesLink, Message.cuts]

theorem spares_sendConfigSubsys : (sendConfigSubsys target subsys).All (Message.SparesLink nqn id) := by
  have hoob : (configSubsysOobScript target subsys).All (Message.SparesLink nqn id) := by
    unfold configSubsysOobScript
    split <;> simp [spares_sendLinkHost, Message.SparesLink, Message.cuts]
  cases hmode : target.mgmtMode <;> cases hr : subsys.isRestricted <;>
    simp [sendConfigSubsys, hmode, hr, hoob, Message.SparesLink, Message.cuts]

theorem spares_setSubsysScript : (setSubsysScript target subsys).All (Message.SparesLink nqn id) := by
  simp [setSubsysScript, spares_sendConfigSubsys, spares_sendLinkPortid]

theorem spares_replaceSubsysScript {out : SubsysArg} (h : isReplaced out subsys = true → nqn ≠ subsys.nqn) :
    (replaceSubsysScript out subsys).All (Message.SparesLink nqn id) := by
  unfold replaceSubsysScript
  split
  · rename_i hrep
    split <;> simp [Message.SparesLink, Message.cuts, h hrep]
  · simp

/-- A subsystem that is set is linked to every port. -/
theorem linkPort_mem_setSubsysScript (h : isHidden (configSubsys subsys) = false) {portid : Portid} (hp : portid ∈ target.portidList) :
    .linkPort (configSubsys subsys) portid ∈ (setSubsysScript target subsys).messages := by
  have hlink : sendLinkPortid (configSubsys subsys) portid = .send (.linkPort (configSubsys subsys) portid) := if_neg (by simp [h])
  simp only [setSubsysScript, Link.Script.messages_andThen, Link.Script.messages_eachRegardless, List.mem_append, List.mem_flatMap]
  exact Or.inr ⟨portid, hp, by rw [hlink]; exact List.mem_cons_self⟩

/-! ## Errands -/

variable {config : Finset Item}

/-- A subsystem that was set is linked to every port then. -/
theorem linked_setSubsys (mode : MgmtMode) (h : isHidden subsys = false) {portid : Portid} (hp : portid ∈ target.portidList) :
    portLinkItem subsys portid ∈ ((setSubsysScript target subsys).messages.map (Message.change mode)).foldl applyChange config := by
  have hput := linkPort_mem_setSubsysScript (isHidden_configSubsys.trans h) hp
  have hitem : portLinkItem subsys portid = portLinkItem (configSubsys subsys) portid := by
    rw [portLinkItem, portLinkItem, nqn_configSubsys]
  rw [hitem]
  exact link_put (fun msg hm => spares_setSubsysScript msg hm) hput

theorem PortsLinked.createSubsys (h : PortsLinked target config) (out : SubsysArg) :
    PortsLinked ((Errand.createSubsys out).apply target) ((changes target (.createSubsys out)).foldl applyChange config) := by
  intro subsys hs hvisible portid hp
  rcases List.mem_append.1 hs with hs | hs
  · exact link_stays (fun msg hm => spares_setSubsysScript msg hm) (h subsys hs hvisible portid hp)
  · obtain rfl := List.mem_singleton.1 hs
    exact linked_setSubsys _ hvisible hp

theorem PortsLinked.updateSubsys (h : PortsLinked target config) {out : SubsysArg}
    (hkeeps : KeepsLinks target config (.updateSubsys nqn out)) :
    PortsLinked ((Errand.updateSubsys nqn out).apply target)
      ((changes target (.updateSubsys nqn out)).foldl applyChange config) := by
  cases hfound : findSubsys target nqn with
  | none =>
    have happly : (Errand.updateSubsys nqn out).apply target = target := onSubsys_of_not_found hfound
    have hnone : changes target (.updateSubsys nqn out) = [] := by simp [changes, Errand.script, hfound]
    rw [happly, hnone]
    exact h
  | some found =>
    have hmessages : ((Errand.updateSubsys nqn out).script target).messages = (updateSubsysScript target out found).messages := by
      simp [Errand.script, hfound]
    intro subsys hs hvisible portid hp
    rw [changes, hmessages, updateSubsysScript, Link.Script.messages_regardless, List.map_append, List.foldl_append]
    rcases mem_modifyFirst_eraseP hs with hs | ⟨x, -, hx, rfl⟩
    · have hne : isReplaced out found = true → subsys.nqn ≠ found.nqn := by
        rw [findSubsys_nqn hfound]
        exact fun hrep => hkeeps found hfound hrep subsys hs
      refine link_stays (fun msg hm => spares_setSubsysScript msg hm)
        (link_stays (fun msg hm => spares_replaceSubsysScript hne msg hm) ?_)
      exact h subsys (List.mem_of_mem_eraseP hs) hvisible portid hp
    · obtain rfl := Option.some.inj (hfound.symm.trans hx)
      have hitem : portLinkItem (configSubsys (found.updateTo out)) portid = portLinkItem (found.updateTo out) portid := by
        rw [portLinkItem, portLinkItem, nqn_configSubsys]
      rw [hitem]
      exact linked_setSubsys _ (isHidden_configSubsys.symm.trans hvisible) hp

theorem setPortid_portidList {w : World} {out : PortArg} {p : Portid} (hp : p ∈ (target.setPortid w id out).portidList) :
    p ∈ target.portidList.eraseP (fun p => p.portid == id) ∨ p = Portid.updateTo out ((findPortid target id).getD { ptr := w.addr }) := by
  unfold Target.setPortid at hp
  split at hp
  · rcases mem_modifyFirst_eraseP hp with hp | ⟨x, -, hx, rfl⟩
    · exact Or.inl hp
    · have hfind : findPortid target id = some x := hx
      rw [hfind]
      exact Or.inr rfl
  · rename_i hnone
    have hno : ∀ p ∈ target.portidList, ¬(p.portid == id) = true := by simpa [findPortid] using hnone
    have hnil : findPortid target id = none := by simpa using hnone
    rw [List.eraseP_of_forall_not hno, hnil]
    rcases List.mem_append.1 hp with hp | hp
    · exact Or.inl hp
    · exact Or.inr (List.mem_singleton.1 hp)

theorem setPortid_subsysList (w : World) (out : PortArg) : (target.setPortid w id out).subsysList = target.subsysList := by
  unfold Target.setPortid
  split <;> rfl

theorem PortsLinked.setPortid (h : PortsLinked target config) {w : World} {out : PortArg}
    (hkeeps : KeepsLinks target config (.setPortid w id out)) :
    PortsLinked ((Errand.setPortid w id out).apply target) ((changes target (.setPortid w id out)).foldl applyChange config) := by
  intro subsys hs hvisible portid hp
  have hs : subsys ∈ target.subsysList := by
    rw [← setPortid_subsysList w out]
    exact hs
  generalize hnew : Portid.updateTo out ((findPortid target id).getD { ptr := w.addr }) = new
  have hid : new.portid = out.portid := by rw [← hnew]; rfl
  have hscript : (changes target (.setPortid w id out)) =
      (setPortidScript target id new).messages.map (Message.change target.mgmtMode) := by rw [← hnew]; rfl
  have hlast : ∀ nqn n, (Link.Script.andThen (.send (.setPort new))
      (.eachRegardless (fun subsys => sendLinkPortid subsys new) target.subsysList)).All (Message.SparesLink nqn n) := by
    intro nqn n
    simp [spares_sendLinkPortid, Message.SparesLink, Message.cuts]
  rw [hscript, setPortidScript]
  simp only [Link.Script.messages_regardless, List.map_append, List.foldl_append]
  by_cases hsame : portid.portid = new.portid
  · have hlink : Message.linkPort subsys new ∈ (Link.Script.andThen (.send (.setPort new))
        (.eachRegardless (fun subsys => sendLinkPortid subsys new) target.subsysList)).messages := by
      simp only [Link.Script.messages_andThen, Link.Script.messages_eachRegardless, List.mem_append, List.mem_flatMap]
      have hsend : sendLinkPortid subsys new = .send (.linkPort subsys new) := if_neg (by simp [hvisible])
      exact Or.inr ⟨subsys, hs, by rw [hsend]; exact List.mem_cons_self⟩
    rw [portLinkItem, hsame]
    exact link_put (fun msg hm => hlast _ _ msg hm) hlink
  · have hold : portid ∈ target.portidList.eraseP (fun p => p.portid == id) := by
      refine (setPortid_portidList hp).resolve_right (fun heq => hsame ?_)
      rw [heq, hnew]
    have hne : portid.portid ≠ id := by
      intro heq
      have hchanged : out.portid ≠ id := fun hkept => hsame (by rw [heq, hid, hkept])
      exact hkeeps hchanged portid hold heq
    have hfirst : (Link.Script.eachRegardless (fun s => .send (.unlinkPort s { new with portid := id })) target.subsysList).All
        (Message.SparesLink subsys.nqn portid.portid) := by
      simp [Message.SparesLink, Message.cuts, hne]
    have hdel : (if new.portid ≠ id then .send (.delPort { new with portid := id }) else .done : Link.Script Message).All
        (Message.SparesLink subsys.nqn portid.portid) := by
      split <;> simp [Message.SparesLink, Message.cuts, hne]
    refine link_stays (fun msg hm => hlast _ _ msg hm) (link_stays (fun msg hm => hdel msg hm) (link_stays (fun msg hm =>
      hfirst msg hm) ?_))
    exact h subsys hs hvisible portid (List.mem_of_mem_eraseP hold)

/-- An errand on a host: nothing is taken, and what was hidden before is linked already if it is not hidden any more. -/
theorem PortsLinked.onHosts (h : PortsLinked target config) {e : Errand} {f : Subsystem → Subsystem}
    (happly : e.apply target = target.onSubsys nqn f) (hnqn : ∀ subsys, (f subsys).nqn = subsys.nqn)
    (hspares : ∀ n i, (e.script target).All (Message.SparesLink n i))
    (hlinked : ∀ subsys, findSubsys target nqn = some subsys → isHidden (f subsys) = false → isHidden subsys = true →
      ∀ portid ∈ target.portidList, portLinkItem subsys portid ∈ config) :
    PortsLinked (e.apply target) ((changes target e).foldl applyChange config) := by
  intro subsys hs hvisible portid hp
  rw [happly] at hs hp
  refine link_stays (fun msg hm => hspares _ _ msg hm) ?_
  rcases mem_modifyFirst_find hs with hs | ⟨x, hx, hfound, rfl⟩
  · exact h subsys hs hvisible portid hp
  · rw [hnqn]
    cases hhidden : isHidden x
    · exact h x hx hhidden portid hp
    · exact hlinked x hfound hvisible hhidden portid hp

theorem PortsLinked.linkHost (h : PortsLinked target config) {host : Host}
    (hkeeps : KeepsLinks target config (.linkHost nqn host)) :
    PortsLinked ((Errand.linkHost nqn host).apply target) ((changes target (.linkHost nqn host)).foldl applyChange config) := by
  refine h.onHosts rfl (fun _ => rfl) (fun n i => ?_) (fun subsys hfound _ => hkeeps subsys hfound)
  cases hfound : findSubsys target nqn with
  | none => simp [Errand.script, hfound]
  | some found =>
    have hscript : (Errand.linkHost nqn host).script target = linkHostScript target found host := by
      simp only [Errand.script, hfound]
    rw [hscript, linkHostScript, Link.Script.all_followedBy]
    refine ⟨spares_sendLinkHost host, ?_⟩
    split <;> simp [spares_sendLinkPortid]

theorem PortsLinked.unlinkHost (h : PortsLinked target config) {name : String} :
    PortsLinked ((Errand.unlinkHost nqn name).apply target) ((changes target (.unlinkHost nqn name)).foldl applyChange config) := by
  refine h.onHosts rfl (fun _ => rfl) (fun n i => ?_) (fun subsys hfound hvisible hhidden => ?_)
  · cases hfound : findSubsys target nqn with
    | none => simp [Errand.script, hfound]
    | some found =>
      cases hhost : found.hostList.find? (fun h => h.name == name) with
      | none => simp [Errand.script, hfound, hhost]
      | some host =>
        have hscript : (Errand.unlinkHost nqn name).script target = unlinkHostScript target found host := by
          simp only [Errand.script, hfound, hhost]
        rw [hscript, unlinkHostScript, Link.Script.all_regardless, Link.Script.all_send]
        refine ⟨rfl, ?_⟩
        split <;> simp [Message.SparesLink, Message.cuts]
  -- A subsystem without hosts has none after one was taken off.
  · simp only [isHidden, Bool.and_eq_true, List.isEmpty_iff] at hhidden
    simp [isHidden, hhidden.2, Subsystem.isRestricted] at hvisible
    simp [hvisible, Subsystem.isRestricted] at hhidden

/-! ## Runs -/

theorem portsLinked_withoutLogs {t t' : Target} (heq : t.withoutLogs = t'.withoutLogs) (h : PortsLinked t config) :
    PortsLinked t' config := by
  intro subsys hs hvisible portid hp
  have hsubs : t.subsysList.map Subsystem.withoutLogs = t'.subsysList.map Subsystem.withoutLogs :=
    congrArg Target.subsysList heq
  have hports : t.portidList = t'.portidList := by
    have hp := congrArg Target.portidList heq
    exact hp
  obtain ⟨x, hx, hxs⟩ : ∃ x ∈ t.subsysList, x.withoutLogs = subsys.withoutLogs := by
    have hmem := List.mem_map_of_mem (f := Subsystem.withoutLogs) hs
    rw [← hsubs] at hmem
    exact List.mem_map.1 hmem
  have hnqn : x.nqn = subsys.nqn := by
    have hn := congrArg Subsystem.nqn hxs
    exact hn
  have hsame : isHidden x = isHidden subsys := by
    have hh := congrArg isHidden hxs
    exact hh
  rw [portLinkItem, ← hnqn]
  exact h x hx (hsame.trans hvisible) portid (hports ▸ hp)

theorem portsLinked_of_projection (h : view config = (projection target).toFinset) : PortsLinked target config := by
  intro subsys hs hvisible portid hp
  have hmem : portLinkItem subsys portid ∈ projection target := by
    refine List.mem_append_right _ (List.mem_flatMap.2 ⟨subsys, hs, ?_⟩)
    simp only [subsysParts, hvisible, List.mem_append]
    exact Or.inr (Or.inr (Or.inr (List.mem_map_of_mem hp)))
  rw [← List.mem_toFinset, ← h] at hmem
  obtain ⟨a, ha, heq⟩ := Finset.mem_image.1 hmem
  cases a with
  | portLink subnqn id =>
    have hsame : Item.portLink subnqn id = portLinkItem subsys portid := heq
    rwa [← hsame]
  | _ => cases heq

variable {J : JsonLib} {w : Wire} {s₀ s : Watch}

/-- In every run of requests on subsystems, ports and allowed hosts that keeps to the conditions, each subsystem that some host may
use stays linked to every port. -/
theorem port_links_complete (hrun : Run (watchStep J w) (Told J w KeepsLinks) s₀ s) (htarget : s₀.target = some target)
    (hstart : view s₀.session.far = (projection target).toFinset) :
    ∃ target, s.target = some target ∧ PortsLinked target s.session.far := by
  have hwatch := Run.watch hrun ⟨target, htarget, portsLinked_of_projection hstart⟩
    (fun _ _ _ heq h => portsLinked_withoutLogs heq h) (Q := fun _ => False) ?_ (fun _ _ _ hfalse => hfalse)
  · exact hwatch.resolve_right (fun h => h.2)
  · intro target config e h hkeeps _
    cases e with
    | createSubsys out => exact h.createSubsys out
    | updateSubsys nqn out => exact h.updateSubsys hkeeps
    | setPortid w id out => exact h.setPortid hkeeps
    | linkHost nqn host => exact h.linkHost hkeeps
    | unlinkHost nqn name => exact h.unlinkHost
    | _ => exact hkeeps.elim

end

instance (target : Target) (config : Finset Item) : Decidable (PortsLinked target config) :=
  inferInstanceAs (Decidable (∀ subsys ∈ target.subsysList, _))

/-! A target with a port and a restricted subsystem, and a host that is linked to it. -/

def calmWire : Wire where
  net := fun _ => 0
  http := httpOf demoTarget
  json := demoJson

def aclRoot : Jansson.Json := .object
  [(tagHosts, .array [.object [(tagAlias, .string "h"), (tagHostnqn, .string "nqn.host")]]),
    (tagTargets, .array [.object [(tagAlias, .string "t"),
      (tagSubsystems, .array [.object [(tagSubnqn, .string "nqn.subsys")]])]])]

def aclTarget (hosts : List Host) : Target :=
  { demoTarget with mgmtMode := .inBandMgmt, subsysList := [{ nqn := "nqn.subsys", hostList := hosts }] }

def aclWatch (hosts : List Host) : Watch where
  dem := { root := aclRoot, lists := { targetList := [aclTarget hosts] } }
  name := some "t"
  session := { far := (projection (aclTarget hosts)).toFinset, connected := true, results := [] }

def aclOp : World × Request := ({ addr := 9 }, .linkHost "t" "nqn.subsys" (some "h") "")

def aclErrand : Errand := .linkHost "nqn.subsys" { name := "h", nqn := "nqn.host" }

def guest : Host := { name := "g", nqn := "nqn.guest" }

theorem port_links_complete_second :
    ∃ s target, Run (watchStep demoJson calmWire) (Told demoJson calmWire KeepsLinks) (aclWatch [guest]) s ∧
      s.target = some target ∧ target.subsysList.map Subsystem.hostList = [[guest, demoHost]] ∧ PortsLinked target s.session.far := by
  have harrive : Arrive calmWire (aclTarget [guest]) aclErrand := arrive_inb rfl (by decide)
  obtain ⟨s, hs⟩ : ∃ s, watchStep demoJson calmWire aclOp (aclWatch [guest]) s :=
    exists_watchStep (fun _ => rfl) (by decide) (by decide) rfl rfl rfl harrive
  have hrun : Run (watchStep demoJson calmWire) (Told demoJson calmWire KeepsLinks) (aclWatch [guest]) s := by
    refine .next .start ⟨rfl, ?_⟩ hs
    rintro target e htarget he
    obtain rfl : aclTarget [guest] = target := Option.some.inj htarget
    obtain rfl : aclErrand = e := Option.some.inj he
    refine ⟨harrive, ?_⟩
    rintro subsys hfound hhidden
    obtain rfl := Option.some.inj hfound
    exact absurd hhidden (by decide)
  obtain ⟨target, htarget, hlinked⟩ := port_links_complete hrun rfl (by decide)
  obtain ⟨-, ⟨hdel, -⟩ | ⟨-, target', htarget', hsame⟩⟩ := watchStep_errand hs rfl rfl rfl harrive
  · cases hdel
  · obtain rfl := Option.some.inj (htarget.symm.trans htarget')
    refine ⟨s, target, hrun, htarget, ?_, hlinked⟩
    have hlists := congrArg (fun t : Target => t.subsysList.map Subsystem.hostList) hsame
    simp only [Target.withoutLogs, List.map_map] at hlists
    exact hlists

/-- The first host of the subsystem: its port is not linked. -/
theorem port_links_incomplete :
    ∃ s target, watchStep demoJson calmWire aclOp (aclWatch []) s ∧ (aclWatch []).target = some (aclTarget []) ∧
      view (aclWatch []).session.far = (projection (aclTarget [])).toFinset ∧ s.target = some target ∧
      ¬PortsLinked target s.session.far := by
  have harrive : Arrive calmWire (aclTarget []) aclErrand := arrive_inb rfl (by decide)
  obtain ⟨s, hs⟩ : ∃ s, watchStep demoJson calmWire aclOp (aclWatch []) s :=
    exists_watchStep (fun _ => rfl) (by decide) (by decide) rfl rfl rfl harrive
  obtain ⟨hfar, ⟨hdel, -⟩ | ⟨-, target, htarget, hsame⟩⟩ := watchStep_errand hs rfl rfl rfl harrive
  · cases hdel
  · refine ⟨s, target, hs, rfl, by decide, htarget, fun hlinked => ?_⟩
    have happlied := portsLinked_withoutLogs hsame hlinked
    rw [hfar] at happlied
    exact absurd happlied (by decide)

end Push

end NvmeDem
