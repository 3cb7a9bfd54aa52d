import NvmeDem.Lemmas.Errands
import NvmeDem.Theorems.Aliases
import NvmeDem.Theorems.Inventory
import NvmeDem.Theorems.HostNames
import NvmeDem.Theorems.HostRecords

/-!
# Bodies that do not say everything

An update names what it changes, and what its body does not mention is meant to stay. That holds as long as the variable that
the update fills in does not decide by itself: an access that is not given does not count as restricted, so the list of allowed
hosts goes; a mode that is not given counts as a local one and a refresh period as zero; an NQN that is not given is what the
stack holds.
-/

namespace NvmeDem

open Jansson

/-! ## Subsystems -/

/-- The entry at a place of the subsystems of the target at a place of the store. -/
def subsysEntry (root : Json) (i j : Nat) : Option Json :=
  ((root.entries tagTargets)[i]?).bind (fun t => (t.entries tagSubsystems)[j]?)

/-- What an update of a subsystem without an access is meant to leave: the NQN is the one of the body, if it has one, and the
access, the list of allowed hosts, the namespaces and all else are as they were. -/
structure OnlyNqn (body s s' : Json) : Prop where
  nqn : s'.strField tagSubnqn = (body.strField tagSubnqn).or (s.strField tagSubnqn)
  access : s'.objectGet tagAllowAny = s.objectGet tagAllowAny
  hosts : s'.objectGet tagHosts = s.objectGet tagHosts
  nsids : s'.objectGet tagNsids = s.objectGet tagNsids
  others : ∀ k, k ≠ tagSubnqn → s'.objectGet k = s.objectGet k

/-- A text field that the body may give: it is the text of the body, or stays. -/
theorem strField_jsonUpdateStringEx {w x w' : Json} {y res res' s : String} {size : Nat} (hw : w.strField y = some s)
    (h : jsonUpdateStringEx w x y size res = .ok (w', res')) : w'.strField y = (x.strField y).or (w.strField y) := by
  unfold jsonUpdateStringEx at h
  cases hx : x.objectGet y with
  | none =>
    rw [hx] at h
    cases h
    simp only [Json.strField, hx, Option.bind_none, Option.none_or]
  | some z =>
    simp only [hx, Json.isObject_of_strField hw, if_true] at h
    split at h
    · cases h
    · rename_i text hcopy
      obtain ⟨rfl, rfl⟩ := Prod.mk.inj (Except.ok.inj h)
      have htext : x.strField y = some text := by simp only [Json.strField, hx, Option.bind_some, strcpy_ok hcopy]
      rw [htext, Option.some_or, jsonSetString, Json.objectGet_of_strField hw, Json.strField]
      simp only [Json.objectGet_objectSet_self (Json.isObject_of_strField hw)]
      rfl

/-- The access of a subsystem when the body does not give it: the list of allowed hosts goes. -/
theorem updateSubsysAccess_undefined {iter body : Json} {arg : SubsysArg} (hnone : body.objectGet tagAllowAny = none)
    (harg : arg.access = undefinedAccess) : (updateSubsysAccess iter body arg).1 = iter.objectDel tagHosts := by
  have haccess : ¬arg.access = restricted := by rw [harg]; decide
  simp only [updateSubsysAccess, jsonUpdateIntEx, hnone, if_neg haccess]

theorem subsysEntry_putAt {root t t' s : Json} {i j : Nat} (ht : (root.entries tagTargets)[i]? = some t)
    (hs : (t'.entries tagSubsystems)[j]? = some s) : subsysEntry (root.putAt tagTargets i t') i j = some s := by
  rw [subsysEntry, Json.entries_putAt, List.getElem?_set_self (List.getElem?_eq_some_iff.mp ht).1]
  exact hs

/-- The daemon keeps the root that the store left. -/
theorem setSubsys_root {J : JsonLib} {w : World} {d : Daemon} {tgt data : String} {nqn : Option String} {a : Answer}
    {r : Reply SubsysArg} (h : setSubsys J w d tgt nqn data = .ok a)
    (hr : setJsonSubsys J d.root tgt nqn data { nqn := "", access := undefinedAccess } = .ok r) : a.dem.root = r.root := by
  obtain ⟨r', hr', hcases⟩ := afterStore_ok h
  obtain rfl := Except.ok.inj (hr.symm.trans hr')
  rcases hcases with ⟨-, rfl⟩ | ⟨-, hk⟩
  · rfl
  · split at hk
    · cases hk
      rfl
    · split at hk
      · cases hk
        rfl
      · split at hk
        · cases hk
          rfl
        · cases hk
          rfl

/-- An update of a subsystem with a body that the store takes and that gives no access: it changes the NQN and nothing else when
the subsystem has no list of allowed hosts, and only then. -/
theorem setSubsys_keeps {J : JsonLib} {w : World} {d : Daemon} {tgt nqn data : String} {a : Answer} {r : Reply SubsysArg}
    {body t s : Json} {i j : Nat} (h : setSubsys J w d tgt (some nqn) data = .ok a)
    (hr : setJsonSubsys J d.root tgt (some nqn) data { nqn := "", access := undefinedAccess } = .ok r) (hret : r.ret = 0)
    (hdata : data ≠ "") (hbody : J.loads data = some body) (hnone : body.objectGet tagAllowAny = none)
    (ht : TargetAt d.root tgt i t) (hs : SubsysAt t nqn j s) :
    (∃ s', subsysEntry a.dem.root i j = some s' ∧ OnlyNqn body s s') ↔ s.objectGet tagHosts = none := by
  rw [setSubsys_root h hr]
  rcases setJsonSubsys_ok hr with ⟨hne, -⟩ | ⟨-, hempty, -⟩ | ⟨-, i', t₁, t', new, ht', hnew, hupd, hroot⟩
  · exact absurd hret hne
  · exact absurd hempty hdata
  obtain rfl := Option.some.inj (ht.first.symm.trans ht'.first)
  obtain rfl := ht.unique ht'
  obtain rfl := Option.some.inj (hbody.symm.trans hnew)
  generalize hout : r.out = out at hupd
  generalize hold : some nqn = old at hupd
  cases hupd with
  | create => cases hold
  | @change old' nqn' j' s₁ s' hs' hnqn hfresh =>
    cases hold
    obtain rfl := Option.some.inj (hs.first.symm.trans hs'.first)
    obtain rfl := Option.some.inj (hs.get.symm.trans hs'.get)
    rw [hroot, updateSubsysAccess_undefined hnone rfl]
    have hplace : subsysEntry (d.root.putAt tagTargets i (t₁.putAt tagSubsystems j (s'.objectDel tagHosts))) i j =
        some (s'.objectDel tagHosts) := by
      refine subsysEntry_putAt ht.get ?_
      rw [Json.entries_putAt, List.getElem?_set_self (List.getElem?_eq_some_iff.mp hs.get).1]
    have hothers : ∀ k, k ≠ tagSubnqn → k ≠ tagHosts → (s'.objectDel tagHosts).objectGet k = s.objectGet k :=
      fun k hk hhosts => (Json.objectGet_objectDel_ne hhosts s').trans (objectGet_jsonUpdateStringEx_ne hk hnqn)
    rw [hplace]
    constructor
    · rintro ⟨_, ⟨⟩, hkeeps⟩
      rw [← hkeeps.hosts, Json.objectGet_objectDel_self]
    · intro hhosts
      have hgone : (s'.objectDel tagHosts).objectGet tagHosts = s.objectGet tagHosts := by
        rw [hhosts, Json.objectGet_objectDel_self]
      refine ⟨_, rfl, ?_, hothers _ (by decide) (by decide), hgone, hothers _ (by decide) (by decide), fun k hk => ?_⟩
      · rw [Json.strField_objectDel_ne (by decide)]
        exact strField_jsonUpdateStringEx hs.key hnqn
      · by_cases hk' : k = tagHosts
        · rw [hk', hgone]
        · exact hothers k hk hk'

/-- A daemon with a target that has a restricted subsystem, which allows the hosts of a list if there is one. -/
def renameDaemon (hosts : List (String × Json)) : Daemon where
  root := .object [(tagTargets, .array [.object [(tagAlias, .string "t"),
    (tagSubsystems, .array [.object ([(tagSubnqn, .string "s"), (tagAllowAny, .integer 0)] ++ hosts)])]])]
  lists := { targetList := [{ ptr := 0, name := "t", subsysList := [{ nqn := "s" }] }] }

/-- The text of a body that gives an NQN, and a parser that reads it. -/
def otherSubnqnText : String := "\x7b\"SUBNQN\":\"r\"\x7d"

def otherSubnqnBody : JsonLib := .ofTexts [(otherSubnqnText, .object [(tagSubnqn, .string "r")])]

/-- A subsystem that allows no host is renamed. -/
theorem setSubsys_keeps_renamed :
    ∃ a : Answer, setSubsys otherSubnqnBody {} (renameDaemon []) "t" (some "s") otherSubnqnText = .ok a ∧
      ∃ s', subsysEntry a.dem.root 0 0 = some s' ∧
        OnlyNqn (.object [(tagSubnqn, .string "r")]) (.object [(tagSubnqn, .string "s"), (tagAllowAny, .integer 0)]) s' := by
  have hdata : otherSubnqnText ≠ "" := by decide
  have hrun : setSubsys otherSubnqnBody {} (renameDaemon []) "t" (some "s") otherSubnqnText = .ok _ := rfl
  exact ⟨_, hrun, (setSubsys_keeps hrun rfl rfl hdata rfl rfl ⟨rfl, rfl, rfl⟩ ⟨rfl, rfl, rfl⟩).mpr rfl⟩

/-- A subsystem that allows a host is renamed: it allows none. -/
theorem setSubsys_drops_hosts :
    ¬∀ (J : JsonLib) (w : World) (d : Daemon) (tgt nqn data : String) (a : Answer) (r : Reply SubsysArg) (body t s : Json)
      (i j : Nat), setSubsys J w d tgt (some nqn) data = .ok a →
        setJsonSubsys J d.root tgt (some nqn) data { nqn := "", access := undefinedAccess } = .ok r → r.ret = 0 →
        data ≠ "" → J.loads data = some body → body.objectGet tagAllowAny = none → TargetAt d.root tgt i t →
        SubsysAt t nqn j s → ∃ s', subsysEntry a.dem.root i j = some s' ∧ OnlyNqn body s s' := by
  intro h
  obtain ⟨s', hs', hkeeps⟩ := h otherSubnqnBody {} (renameDaemon [(tagHosts, .array [.string "h"])]) "t" "s" otherSubnqnText
    _ _ _ _ _ 0 0 rfl rfl rfl (by decide) rfl rfl ⟨rfl, rfl, rfl⟩ ⟨rfl, rfl, rfl⟩
  cases hs'
  cases hkeeps.hosts

/-! ## Targets -/

/-- The mode that a body makes of a target: the one it gives, else a local one. -/
def bodyMode (body : Json) : MgmtMode := getMgmtMode ((body.strField tagMgmtMode).getD "")

/-- What the body does not mention is in the entry and in the record of the target as it was. -/
structure KeepsAbsent (body t t' : Json) (target target' : Target) : Prop where
  refresh : body.objectGet tagRefresh = none → t'.objectGet tagRefresh = t.objectGet tagRefresh ∧ target'.refresh = target.refresh
  mode : body.objectGet tagMgmtMode = none →
    t'.objectGet tagMgmtMode = t.objectGet tagMgmtMode ∧ target'.mgmtMode = target.mgmtMode
  iface : body.objectGet tagInterface = none →
    t'.objectGet tagInterface = t.objectGet tagInterface ∧ target'.oob = target.oob ∧ target'.inb = target.inb

/-- The body mentions what the target has: a refresh period, unless it is zero; a mode, unless the target is local; an interface,
unless the target is to be local and its entry has none, or the record holds none. -/
structure SaysEnough (body t : Json) (target : Target) : Prop where
  refresh : body.objectGet tagRefresh = none → target.refresh = 0
  mode : body.objectGet tagMgmtMode = none → target.mgmtMode = .localMgmt
  iface : body.objectGet tagInterface = none →
    if bodyMode body = .localMgmt then t.objectGet tagInterface = none else target.noInterface = target

/-- A text that the body may give: the caller gets it, or keeps what it has. -/
theorem jsonUpdateStringEx_res {w x w' : Json} {y res res' : String} {size : Nat} (hw : w.isObject = true)
    (h : jsonUpdateStringEx w x y size res = .ok (w', res')) : res' = (x.strField y).getD res := by
  unfold jsonUpdateStringEx at h
  cases hx : x.objectGet y with
  | none =>
    rw [hx] at h
    cases h
    simp only [Json.strField, hx, Option.bind_none, Option.getD_none]
  | some z =>
    simp only [hx, hw, if_true] at h
    split at h
    · cases h
    · rename_i text hcopy
      cases h
      simp only [Json.strField, hx, Option.bind_some, strcpy_ok hcopy, Option.getD_some]

/-- The interface of a body that has none: the entry of a local target loses its own. -/
theorem updateInterface_absent {iter iter' body : Json} {arg out : TargetArg} (hnone : body.objectGet tagInterface = none)
    (h : updateInterface iter body arg = .ok (iter', out)) :
    out = arg ∧ iter' = if arg.mgmtMode = .localMgmt then iter.objectDel tagInterface else iter := by
  unfold updateInterface at h
  cases hmode : arg.mgmtMode with
  | localMgmt =>
    rw [hmode] at h
    cases h
    exact ⟨rfl, rfl⟩
  | outOfBandMgmt =>
    simp only [hmode, hnone] at h
    cases h
    exact ⟨rfl, rfl⟩
  | inBandMgmt =>
    simp only [hmode, hnone] at h
    cases h
    exact ⟨rfl, rfl⟩

/-- The interface is all that the end of an update changes of what the caller gets. -/
theorem updateInterface_out {iter iter' body : Json} {arg out : TargetArg}
    (h : updateInterface iter body arg = .ok (iter', out)) : out.refresh = arg.refresh ∧ out.mgmtMode = arg.mgmtMode := by
  unfold updateInterface at h
  split at h
  · cases h
    exact ⟨rfl, rfl⟩
  · split at h
    · cases h
      exact ⟨rfl, rfl⟩
    · obtain ⟨r, -, heq⟩ := map_eq_ok h
      cases heq
      exact ⟨rfl, rfl⟩
  · split at h
    · cases h
      exact ⟨rfl, rfl⟩
    · obtain ⟨r, -, heq⟩ := map_eq_ok h
      cases heq
      exact ⟨rfl, rfl⟩

/-- What an update makes of the fields that the body does not mention, in the entry and for the caller. -/
structure FieldsAbsent (body t t' : Json) (arg out : TargetArg) : Prop where
  mode : out.mgmtMode = bodyMode body
  refresh : body.objectGet tagRefresh = none → t'.objectGet tagRefresh = t.objectGet tagRefresh ∧ out.refresh = arg.refresh
  mgmtMode : body.objectGet tagMgmtMode = none → t'.objectGet tagMgmtMode = t.objectGet tagMgmtMode
  iface : body.objectGet tagInterface = none →
    t'.objectGet tagInterface = (if bodyMode body = .localMgmt then none else t.objectGet tagInterface) ∧
      out.oob = arg.oob ∧ out.inb = arg.inb

theorem updateTargetFields_absent {t t' body : Json} {arg out : TargetArg} (ht : t.isObject = true)
    (h : updateTargetFields t body arg = .ok (t', out)) : FieldsAbsent body t t' arg out := by
  unfold updateTargetFields at h
  obtain ⟨⟨iter, mode⟩, hmode, hrest⟩ := bind_eq_ok h
  have hobj : (jsonUpdateIntEx t body tagRefresh arg.refresh).1.isObject = true := by rw [isObject_jsonUpdateIntEx, ht]
  have hgive : getMgmtMode mode = bodyMode body := congrArg getMgmtMode (jsonUpdateStringEx_res hobj hmode)
  obtain ⟨hrefresh, hout⟩ := updateInterface_out hrest
  have hkeep : ∀ k, k ≠ tagRefresh → k ≠ tagMgmtMode → iter.objectGet k = t.objectGet k := fun k h₁ h₂ =>
    (objectGet_jsonUpdateStringEx_ne h₂ hmode).trans (objectGet_jsonUpdateIntEx_ne h₁ t body _)
  refine ⟨hout.trans hgive, fun hnone => ⟨?_, ?_⟩, fun hnone => ?_, fun hnone => ?_⟩
  · rw [objectGet_updateInterface hrest (by decide), objectGet_jsonUpdateStringEx_ne (by decide) hmode]
    simp only [hnone]
  · rw [hrefresh]
    simp only [hnone]
  · rw [objectGet_updateInterface hrest (by decide)]
    simp only [jsonUpdateStringEx, hnone] at hmode
    cases hmode
    exact objectGet_jsonUpdateIntEx_ne (by decide) t body _
  · obtain ⟨rfl, rfl⟩ := updateInterface_absent hnone hrest
    refine ⟨?_, rfl, rfl⟩
    dsimp only
    rw [hgive]
    split
    · exact Json.objectGet_objectDel_self iter tagInterface
    · exact hkeep tagInterface (by decide) (by decide)

/-- The entry of a target after an update that the store takes. -/
theorem updateJsonTarget_entry {J : JsonLib} {root body t : Json} {name data : String} {arg : TargetArg} {r : Reply TargetArg}
    {i : Nat} (hr : updateJsonTarget J root (some name) data arg = .ok r) (hret : r.ret = 0) (hbody : J.loads data = some body)
    (ht : TargetAt root name i t) :
    ∃ t', (r.root.entries tagTargets)[i]? = some t' ∧ FieldsAbsent body t t' arg r.out := by
  have hlt := (List.getElem?_eq_some_iff.mp ht.get).1
  rcases updateJsonTarget_ok hr with ⟨hne, -⟩ | ⟨-, new, hnew, hupd⟩
  · exact absurd hret hne
  obtain rfl := Option.some.inj (hbody.symm.trans hnew)
  generalize r.out = out at hupd
  generalize r.root = root' at hupd
  cases hupd with
  | @keep _ i' t₁ t' _ ht' hfields =>
    obtain rfl := Option.some.inj (ht.first.symm.trans ht'.first)
    obtain rfl := Option.some.inj (ht.get.symm.trans ht'.get)
    obtain ⟨hmode, hrefresh, hmgmt, hiface⟩ := updateTargetFields_absent (Json.isObject_of_strField ht.key) hfields
    refine ⟨t', ?_, hmode, hrefresh, hmgmt, hiface⟩
    rw [Json.entries_putAt, List.getElem?_set_self hlt]
  | @rename _ buf i' t₁ t' _ ht' hbuf hne hfresh hfields =>
    obtain rfl := Option.some.inj (ht.first.symm.trans ht'.first)
    obtain rfl := Option.some.inj (ht.get.symm.trans ht'.get)
    have hobj : (jsonUpdateString t body tagAlias).isObject = true := by
      rw [isObject_jsonUpdateString, Json.isObject_of_strField ht.key]
    obtain ⟨hmode, hrefresh, hmgmt, hiface⟩ := updateTargetFields_absent hobj hfields
    rw [objectGet_jsonUpdateString_ne (by decide)] at hrefresh hmgmt hiface
    refine ⟨t', ?_, hmode, hrefresh, hmgmt, hiface⟩
    rw [entries_targets_renamed, List.getElem?_set_self hlt]

/-- A record before and after an update, when the body does not mention the interface. -/
theorem updateTo_iface {out : TargetArg} {target : Target} (hoob : out.oob = zeroTarget.oob) (hinb : out.inb = zeroTarget.inb) :
    ((target.updateTo out).oob = target.oob ∧ (target.updateTo out).inb = target.inb) ↔
      (out.mgmtMode = .localMgmt ∨ target.noInterface = target) := by
  have hnone : target.noInterface = target ↔ target.noInterface.oob = target.oob ∧ target.noInterface.inb = target.inb := by
    constructor
    · intro heq
      rw [heq]
      exact ⟨rfl, rfl⟩
    · rintro ⟨ho, hi⟩
      show { target with oob := target.noInterface.oob, inb := target.noInterface.inb } = target
      rw [ho, hi]
  rw [hnone]
  unfold Target.updateTo
  cases hmode : out.mgmtMode with
  | localMgmt => exact iff_of_true ⟨rfl, rfl⟩ (Or.inl rfl)
  | outOfBandMgmt =>
    simp only [hoob, reduceCtorEq, false_or]
    rfl
  | inBandMgmt =>
    simp only [hinb, reduceCtorEq, false_or]
    rfl

theorem refresh_updateTo (out : TargetArg) (target : Target) : (target.updateTo out).refresh = out.refresh := by
  unfold Target.updateTo
  split <;> rfl

theorem mgmtMode_updateTo (out : TargetArg) (target : Target) : (target.updateTo out).mgmtMode = out.mgmtMode := by
  unfold Target.updateTo
  split <;> rfl

/-- The entry of a target after an inventory. -/
theorem SameRoot.entry {root root' t : Json} {i : Nat} (h : SameRoot root root') (ht : (root.entries tagTargets)[i]? = some t) :
    ∃ t', (root'.entries tagTargets)[i]? = some t' ∧ SameEntry t t' := by
  obtain ⟨hlength, hsame⟩ := List.forall₂_iff_get.mp h.targets
  obtain ⟨hi, rfl⟩ := List.getElem?_eq_some_iff.mp ht
  exact ⟨_, List.getElem?_eq_getElem (hlength ▸ hi), hsame i hi (hlength ▸ hi)⟩

/-- A daemon with a target that is managed out of band and asked every five minutes. -/
def managedEntry : Json :=
  .object [(tagAlias, .string "t"), (tagRefresh, .integer 5), (tagMgmtMode, .string tagOutOfBandMgmt),
    (tagInterface, .object [(tagIffamily, .string "ipv4"), (tagIfaddress, .string "1.2.3.4"), (tagIfport, .integer 22334)])]

def managedTarget : Target where
  ptr := 0
  name := "t"
  refresh := 5
  mgmtMode := .outOfBandMgmt
  oob := { address := "1.2.3.4", port := 22334 }

def managedDaemon : Daemon where
  root := .object [(tagTargets, .array [managedEntry])]
  lists := { targetList := [managedTarget] }

/-- A daemon with a target that is managed locally and has no interface. -/
def localEntry : Json := .object [(tagAlias, .string "t"), (tagMgmtMode, .string "LocalMgmt")]

def localTarget : Target := { ptr := 0, name := "t" }

def localDaemon : Daemon where
  root := .object [(tagTargets, .array [localEntry])]
  lists := { targetList := [localTarget] }

/-- The text of a body that gives a refresh period, and a parser that reads it. -/
def refreshText : String := "\x7b\"Refresh\":7\x7d"

def refreshValue : Json := .object [(tagRefresh, .integer 7)]

def refreshBody : JsonLib := .ofTexts [(refreshText, refreshValue)]

/-- The NQNs of the records of the subsystems of a target. -/
def Target.recordNqns (target : Target) : List (List String) :=
  target.subsysList.map (fun subsys => subsys.hostList.map Host.nqn)

/-- The NQNs of all records of hosts. -/
def Lists.recordNqns (lists : Lists) : List (List (List String)) := lists.targetList.map Target.recordNqns

/-- What a request tells a target, if the store takes it. -/
def Request.messages (J : JsonLib) (w : World) (d : Daemon) (op : Request) (target : Target) : List Push.Message :=
  match op.errand J w d.root target.name with
  | none => []
  | some e => (e.script target).messages

/-- Every record of a host, the first with its alias in each subsystem, has an NQN. -/
def RecordsHave (lists : Lists) (name nqn : String) : Prop :=
  ∀ target ∈ lists.targetList, ∀ subsys ∈ target.subsysList, ∀ host,
    subsys.hostList.find? (fun x => x.name == name) = some host → host.nqn = nqn

/-- Log pages are no hosts. -/
theorem recordNqns_logs (target : Target) (es : List LogEvent) :
    (es.foldl Target.logEvent target).recordNqns = target.recordNqns := by
  have hwithout : ∀ t : Target, t.withoutLogs.recordNqns = t.recordNqns := fun t => by
    simp only [Target.withoutLogs, Target.recordNqns, List.map_map]
    rfl
  rw [← hwithout, withoutLogs_logs, hwithout]

theorem recordNqns_withLogs (lists : Lists) (w : World) : (lists.withLogs w).recordNqns = lists.recordNqns := by
  simp only [Lists.withLogs, Lists.recordNqns, List.map_map, Function.comp_def, recordNqns_logs]

/-- A record replaced in a list leaves what is read of the records as it was when it reads the same itself. -/
theorem map_modifyFirst_const_iff {α β : Type*} {p : α → Bool} {r : α → β} {z : α} {xs : List α} :
    (Keyed.modifyFirst p (fun _ => z) xs).map r = xs.map r ↔ ∀ x, xs.find? p = some x → r x = r z := by
  induction xs with
  | nil => simp [Keyed.modifyFirst]
  | cons x xs ih =>
    unfold Keyed.modifyFirst
    by_cases hx : p x = true
    · simp only [if_pos hx, List.map_cons, List.cons.injEq, and_true, List.find?_cons_of_pos hx, Option.some.injEq,
        forall_eq']
      exact eq_comm
    · rw [if_neg hx, List.map_cons, List.map_cons, List.cons.injEq, List.find?_cons_of_neg hx, ← ih]
      exact and_iff_right rfl

/-- What an update of the records leaves of their NQNs. -/
theorem recordNqns_updateHost {lists : Lists} {name : String} {out : HostOut} :
    (lists.updateHost name out).recordNqns = lists.recordNqns ↔ RecordsHave lists name out.nqn := by
  simp only [Lists.recordNqns, Lists.updateHost, List.map_map]
  refine List.map_inj_left.trans (forall₂_congr (fun target _ => ?_))
  simp only [Function.comp_apply, Target.recordNqns, List.map_map]
  exact List.map_inj_left.trans (forall₂_congr (fun subsys _ => map_modifyFirst_const_iff))

/-- Records that have the NQN already are not told of. -/
theorem messages_updateHostScript {target : Target} {name : String} {out : HostOut}
    (h : ∀ subsys ∈ target.subsysList, ∀ host, subsys.hostList.find? (fun x => x.name == name) = some host →
      host.nqn = out.nqn) : (Push.updateHostScript target name out).messages = [] := by
  rw [Push.updateHostScript, Link.Script.messages_eachRegardless, List.flatMap_eq_nil_iff]
  intro subsys hsubsys
  cases hfind : subsys.hostList.find? (fun x => x.name == name) with
  | none => rfl
  | some host =>
    dsimp only
    rw [if_pos (h subsys hsubsys host hfind)]
    rfl

/-- What the store gives for an update of a host that gives no NQN: what the variable held. -/
theorem updateJsonHost_nqn {J : JsonLib} {root body : Json} {name data : String} {out : HostOut} {r : Reply HostOut}
    (hr : updateJsonHost J root (some name) data out = .ok r) (hret : r.ret = 0) (hbody : J.loads data = some body)
    (hnone : body.objectGet tagHostnqn = none) : r.out.nqn = out.nqn := by
  have hkeep : ∀ (x x' : Json) (nqn : String), jsonUpdateStringEx x body tagHostnqn maxNqnSize out.nqn = .ok (x', nqn) →
      nqn = out.nqn := by
    intro x x' nqn h
    simp only [jsonUpdateStringEx, hnone] at h
    cases h
    rfl
  rcases updateJsonHost_ok hr with ⟨hne, -⟩ | ⟨-, new, hnew, hupd⟩
  · exact absurd hret hne
  obtain rfl := Option.some.inj (hbody.symm.trans hnew)
  generalize r.out = out' at hupd ⊢
  generalize r.root = root' at hupd
  cases hupd with
  | keep _ _ _ hnqn => exact hkeep _ _ _ hnqn
  | rename _ _ _ _ _ hnqn => exact hkeep _ _ _ hnqn

/-- An update of a host with a body that the store takes and that gives no NQN leaves the NQNs of all records as they are, and
tells the targets nothing, when every record of the host has the NQN that the stack holds, and only then. -/
theorem updateHost_keeps {J : JsonLib} {w : World} {d : Daemon} {name data : String} {a : Answer} {r : Reply HostOut}
    {body : Json} (h : updateHost J w d (some name) data = .ok a)
    (hr : updateJsonHost J d.root (some name) data w.host = .ok r) (hret : r.ret = 0) (hbody : J.loads data = some body)
    (hnone : body.objectGet tagHostnqn = none) :
    (a.dem.lists.recordNqns = d.lists.recordNqns ∧
      ∀ target ∈ d.lists.targetList, (Request.updateHost (some name) data).messages J w d target = []) ↔
        RecordsHave d.lists name w.host.nqn := by
  have hnqn := updateJsonHost_nqn hr hret hbody hnone
  obtain ⟨r', hr', hcases⟩ := afterStore_ok h
  obtain rfl := Except.ok.inj (hr.symm.trans hr')
  rcases hcases with ⟨hne, -⟩ | ⟨-, hk⟩
  · exact absurd hret hne
  cases hk
  show ((d.lists.updateHost name r.out).withLogs w).recordNqns = _ ∧ _ ↔ _
  rw [recordNqns_withLogs, recordNqns_updateHost, hnqn]
  refine ⟨And.left, fun hhave => ⟨hhave, fun target htarget => ?_⟩⟩
  simp only [Request.messages, Request.errand, afterReply, hr, hret, if_true]
  exact messages_updateHostScript (fun subsys hsubsys host hfind => hnqn ▸ hhave target htarget subsys hsubsys host hfind)

/-- A daemon with a host, and a target with a subsystem that has the records of a list. -/
def recordsDaemon (records : List Host) : Daemon where
  root := hostOf []
  lists := { targetList := [{ ptr := 0, name := "t", subsysList := [{ nqn := "s", hostList := records }] }] }

/-- A host that no subsystem has a record of is renamed. -/
theorem updateHost_keeps_unlinked :
    ∃ a : Answer, updateHost (newAliasBody "k") {} (recordsDaemon []) (some "h") (newAliasText "k") = .ok a ∧
      a.dem.lists.recordNqns = (recordsDaemon []).lists.recordNqns := by
  have hrun : updateHost (newAliasBody "k") {} (recordsDaemon []) (some "h") (newAliasText "k") = .ok _ := rfl
  refine ⟨_, hrun, ((updateHost_keeps hrun rfl rfl rfl rfl).mpr ?_).1⟩
  intro target htarget subsys hsubsys host hfind
  obtain rfl := List.mem_singleton.mp htarget
  obtain rfl := List.mem_singleton.mp hsubsys
  cases hfind

/-- A host with a record is renamed, and the stack holds an empty text: the record has no NQN any more. -/
theorem updateHost_loses_nqn :
    ¬∀ (J : JsonLib) (w : World) (d : Daemon) (name data : String) (a : Answer) (r : Reply HostOut) (body : Json),
      updateHost J w d (some name) data = .ok a → updateJsonHost J d.root (some name) data w.host = .ok r → r.ret = 0 →
      J.loads data = some body → body.objectGet tagHostnqn = none →
        a.dem.lists.recordNqns = d.lists.recordNqns ∧
          ∀ target ∈ d.lists.targetList, (Request.updateHost (some name) data).messages J w d target = [] := by
  intro h
  have hkeeps := h (newAliasBody "k") {} (recordsDaemon [⟨"h", "q"⟩]) "h" (newAliasText "k") _ _ _ rfl rfl rfl rfl rfl
  exact absurd hkeeps.1 (by decide)

end NvmeDem
