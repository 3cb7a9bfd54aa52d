import NvmeDem.Dem.Subsystems
import NvmeDem.Lemmas.Subsystems

/-!
# A namespace that the target has no device for

The store takes a namespace before the daemon looks for its device on the target, and keeps it when there is no such device: the
request fails and the entry stays, to be loaded, sent and reported from then on. Nothing is left only when the body says
nothing new, so that the store would have stayed as it is anyway.
-/

namespace NvmeDem

open Jansson Keyed

/-- The entry of a subsystem: the first with the NQN, of the first target with the alias. -/
def storedSubsys (root : Json) (tgt nqn : String) : Option Json :=
  ((root.entries tagTargets).find? (fun t => decide (t.strField tagAlias = some tgt))).bind
    (fun t => (t.entries tagSubsystems).find? (fun s => decide (s.strField tagSubnqn = some nqn)))

/-- The namespaces of a subsystem in the store. -/
def storedNsids (root : Json) (tgt nqn : String) : Option Json :=
  (storedSubsys root tgt nqn).bind (fun s => s.objectGet tagNsids)

/-- The entry of a namespace in the store. -/
def storedNs (root : Json) (tgt nqn : String) (nsid : Int) : Option Json :=
  (storedSubsys root tgt nqn).bind
    (fun s => (s.entries tagNsids).find? (fun iter => decide (iter.intField tagNsid = some nsid)))

/-- The namespaces of a subsystem in the lists. -/
def listedNs (lists : Lists) (tgt nqn : String) : Option (List Ns) :=
  (findTarget lists tgt).bind (fun target => (findSubsys target nqn).map Subsystem.nsList)

/-- The namespaces of a subsystem are what they were. -/
def NoTrace (tgt nqn : String) (d d' : Daemon) : Prop :=
  storedNsids d'.root tgt nqn = storedNsids d.root tgt nqn ∧ listedNs d'.lists tgt nqn = listedNs d.lists tgt nqn

/-- A request that the store takes, for a device that the target does not have. -/
structure Rejects (J : JsonLib) (w : World) (d : Daemon) (tgt nqn data : String) : Prop where
  stored : (setJsonNs J d.root tgt nqn data w.ns).ret = 0
  missing : ∃ target : Target, findTarget d.lists tgt = some target ∧
    hasNsdev target (requestedNs target (setJsonNs J d.root tgt nqn data w.ns).out) = false

/-- An entry takes nothing from the body under a key: the body has no such field, or that of the entry is the same number, or is
no number. -/
def SameField (iter body : Json) (tag : String) : Prop :=
  ∀ z : Json, body.objectGet tag = some z →
    ∃ v : Json, iter.objectGet tag = some v ∧ ∀ n : Int, v.integer? = some n → n = z.integerValue

/-- A body that says of a namespace what the store has already. -/
def Repeats (J : JsonLib) (root : Json) (tgt nqn data : String) : Prop :=
  ∃ body nsid iter : Json, J.loads data = some body ∧ body.objectGet tagNsid = some nsid ∧
    storedNs root tgt nqn (cInt nsid.integerValue) = some iter ∧ SameField iter body tagDevid ∧
    SameField iter body tagDevnsid

namespace RejectedAux

/-! ## The first match after an edit -/

theorem TargetAt.find {root t : Json} {tgt : String} {i : Nat} (ht : TargetAt root tgt i t) :
    (root.entries tagTargets).findIdx? (fun t => decide (t.strField tagAlias = some tgt)) = some i := by
  rw [← Json.elems_arrayOr]
  exact ht.first

theorem storedSubsys_eq {root t s : Json} {tgt nqn : String} {i j : Nat} (ht : TargetAt root tgt i t) (hs : SubsysAt t nqn j s) :
    storedSubsys root tgt nqn = some s := by
  unfold storedSubsys
  rw [find?_of_findIdx? (TargetAt.find ht) ht.get, Option.bind_some, find?_of_findIdx? hs.first hs.get]

theorem storedSubsys_putAt {root t s s' : Json} {tgt nqn : String} {i j : Nat} (ht : TargetAt root tgt i t)
    (hs : SubsysAt t nqn j s) (hkey : s'.strField tagSubnqn = s.strField tagSubnqn) :
    storedSubsys (root.putAt tagTargets i (t.putAt tagSubsystems j s')) tgt nqn = some s' := by
  have htarget : (t.putAt tagSubsystems j s').strField tagAlias = some tgt := by
    rw [Json.strField_putAt_ne (by decide)]
    exact ht.key
  unfold storedSubsys
  rw [Json.entries_putAt, find?_set_of_findIdx? (TargetAt.find ht) (decide_eq_true htarget), Option.bind_some,
    Json.entries_putAt, find?_set_of_findIdx? hs.first (decide_eq_true (hkey.trans hs.key))]

/-! ## What a body changes -/

theorem jsonUpdateIntEx_of_sameField {iter body : Json} {tag : String} (h : SameField iter body tag) (res : Int) :
    (jsonUpdateIntEx iter body tag res).1 = iter := by
  unfold jsonUpdateIntEx
  cases hz : body.objectGet tag with
  | none => rfl
  | some z =>
    obtain ⟨v, hv, hn⟩ := h z hz
    dsimp only
    rw [if_pos (Json.isObject_of_objectGet hv)]
    unfold jsonSetInt
    rw [hv]
    cases v with
    | integer n =>
      have hnz : n = z.integerValue := hn n rfl
      subst hnz
      exact Json.objectSet_objectGet hv
    | _ => rfl

/-- An update that leaves the field as it was had nothing to set. -/
theorem sameField_of_objectGet {iter body : Json} {tag : String} {res : Int} (hobj : iter.isObject = true)
    (h : (jsonUpdateIntEx iter body tag res).1.objectGet tag = iter.objectGet tag) : SameField iter body tag := by
  intro z hz
  unfold jsonUpdateIntEx at h
  rw [hz] at h
  dsimp only at h
  rw [if_pos hobj] at h
  unfold jsonSetInt at h
  cases hv : iter.objectGet tag with
  | none =>
    rw [hv] at h
    rw [Json.objectGet_objectSet_self hobj] at h
    cases h
  | some v =>
    refine ⟨v, rfl, fun n hn => ?_⟩
    cases v with
    | integer m =>
      simp only [hv, Json.objectGet_objectSet_self hobj, Option.some.injEq, Json.integer.injEq] at h
      exact (Option.some.inj hn).symm.trans h.symm
    | _ => cases hn

theorem updateNsFields_eq_iff {iter body : Json} {arg : NsArg} (hobj : iter.isObject = true) :
    (updateNsFields iter body arg).1 = iter ↔ SameField iter body tagDevid ∧ SameField iter body tagDevnsid := by
  unfold updateNsFields
  dsimp only
  constructor
  · intro h
    have hdev : SameField iter body tagDevid := by
      refine @sameField_of_objectGet iter body tagDevid arg.devid hobj ?_
      rw [← objectGet_jsonUpdateIntEx_ne (k := tagDevid) (y := tagDevnsid) (by decide) _ body arg.devns, h]
    rw [jsonUpdateIntEx_of_sameField hdev] at h
    exact ⟨hdev, sameField_of_objectGet hobj (congrArg (fun j => j.objectGet tagDevnsid) h)⟩
  · rintro ⟨hdev, hns⟩
    rw [jsonUpdateIntEx_of_sameField hdev, jsonUpdateIntEx_of_sameField hns]

/-- The array under a key is the same after an entry was put in the place of another, exactly when it is that entry. -/
theorem objectGet_putAt_eq_iff {s iter iter' : Json} {k : String} {i : Nat} (hi : (s.entries k)[i]? = some iter) :
    (s.putAt k i iter').objectGet k = s.objectGet k ↔ iter' = iter := by
  obtain ⟨hlt, hget⟩ := List.getElem?_eq_some_iff.mp hi
  constructor
  · intro h
    have hentries : (s.entries k).set i iter' = s.entries k := by
      rw [← Json.entries_putAt]
      unfold Json.entries
      rw [h]
    have := congrArg (fun xs => xs[i]?) hentries
    simpa [hlt, hget] using this
  · rintro rfl
    have hset : (s.arrayOr k).arraySet i iter' = s.arrayOr k := by
      rw [← Json.elems_arrayOr] at hi
      cases harr : s.arrayOr k with
      | array xs =>
        rw [harr] at hi
        obtain ⟨hlt, rfl⟩ := List.getElem?_eq_some_iff.mp hi
        exact congrArg Json.array (List.set_getElem_self hlt)
      | _ => rfl
    unfold Json.putAt
    rw [hset]
    unfold Json.arrayOr
    cases hv : s.objectGet k with
    | none => simp [Json.entries, hv] at hi
    | some v => rw [Option.getD_some, Json.objectSet_objectGet hv, hv]

/-- The array under a key is not the same after an entry was appended. -/
theorem objectGet_pushAt_ne {s iter : Json} {k : String} (hpush : s.canPush k = true) :
    (s.pushAt k iter).objectGet k ≠ s.objectGet k := by
  intro h
  have hentries := Json.entries_pushAt_of_canPush hpush iter
  unfold Json.entries at hentries
  rw [h] at hentries
  simp at hentries

/-- What the store makes of a body leaves the array of namespaces alone when the body repeats the entry that is there. -/
theorem nsUpdate_objectGet_iff {s s' body : Json} {arg out : NsArg} {nsid : Int} (hupd : NsUpdate s body arg nsid out s') :
    s'.objectGet tagNsids = s.objectGet tagNsids ↔
      ∃ iter, (s.entries tagNsids).find? (fun iter => decide (iter.intField tagNsid = some nsid)) = some iter ∧
        SameField iter body tagDevid ∧ SameField iter body tagDevnsid := by
  cases hupd with
  | @change k n hfirst hn hid =>
    rw [objectGet_putAt_eq_iff hn, updateNsFields_eq_iff (Json.isObject_of_intField hid), find?_of_findIdx? hfirst hn]
    simp
  | create hfresh hpush =>
    refine iff_of_false (objectGet_pushAt_ne hpush) ?_
    rintro ⟨iter, hfind, -⟩
    have hid : iter.intField tagNsid = some nsid := by simpa using List.find?_some hfind
    exact hfresh (List.mem_filterMap.mpr ⟨iter, List.mem_of_find?_eq_some hfind, hid⟩)

end RejectedAux

open RejectedAux

/-- A namespace that is rejected for want of a device leaves no trace exactly when the body repeats what the store has. -/
theorem noTrace_iff_repeats {J : JsonLib} {w : World} {d : Daemon} {a : Answer} {tgt nqn data : String}
    (hrej : Rejects J w d tgt nqn data) (hr : setNs J w d tgt nqn data = .ok a) :
    (a.ret = -enoent ∧ a.resp = nsdevErr) ∧ (NoTrace tgt nqn d a.dem ↔ Repeats J d.root tgt nqn data) := by
  obtain ⟨hret, target, hfind, hdev⟩ := hrej
  obtain ⟨r, hstore, hr⟩ := afterStore_ok hr
  obtain rfl := Except.ok.inj hstore
  rcases ret_cases (setJsonNs_ok J d.root tgt nqn data w.ns) (hr.imp_left (fun h => ⟨h.1, h.1⟩)) with
    ⟨-, hne⟩ | ⟨⟨i, t, j, s, s', body, nsid, ht, hs, hbody, hnsid, hupd, hroot⟩, hr⟩
  · exact absurd hret hne
  · simp only [hfind, hdev, Bool.false_eq_true, if_false] at hr
    cases hr
    refine ⟨⟨rfl, rfl⟩, ?_⟩
    have hbefore := storedSubsys_eq ht hs
    have hafter := storedSubsys_putAt ht hs (strField_nsUpdate hupd)
    rw [← hroot] at hafter
    unfold NoTrace storedNsids Repeats storedNs
    rw [hbefore, hafter]
    simp only [Option.bind_some, and_true, nsUpdate_objectGet_iff hupd]
    constructor
    · rintro ⟨iter, hfirst, hdevid, hdevns⟩
      exact ⟨body, nsid, iter, hbody, hnsid, hfirst, hdevid, hdevns⟩
    · rintro ⟨body', nsid', iter, hbody', hnsid', hfirst, hdevid, hdevns⟩
      obtain rfl := Option.some.inj (hbody.symm.trans hbody')
      obtain rfl := Option.some.inj (hnsid.symm.trans hnsid')
      exact ⟨iter, hfirst, hdevid, hdevns⟩

/-- A daemon with a target that is managed in band and has no device, and a subsystem with a namespace in the store. -/
def noDeviceDaemon : Daemon where
  root := .object [(tagTargets, .array [.object [(tagAlias, .string "t"), (tagSubsystems, .array [.object
    [(tagSubnqn, .string "s"), (tagNsids, .array [.object [(tagNsid, .integer 1), (tagDevid, .integer 2)]])]])]])]
  lists := { targetList := [{ ptr := 0, name := "t", mgmtMode := .inBandMgmt, subsysList := [{ nqn := "s" }] }] }

/-- The body of the namespace that is there, and of one that is not. -/
def sameNsText : String := "\x7b\"NSID\":1,\"DeviceID\":2\x7d"
def otherNsText : String := "\x7b\"NSID\":3,\"DeviceID\":2\x7d"

def deviceBodies : JsonLib :=
  .ofTexts [(sameNsText, .object [(tagNsid, .integer 1), (tagDevid, .integer 2)]),
    (otherNsText, .object [(tagNsid, .integer 3), (tagDevid, .integer 2)])]

/-- The namespace that the store has is rejected without a trace. -/
theorem noTrace_iff_repeats_same : ∃ a : Answer, NoTrace "t" "s" noDeviceDaemon a.dem :=
  ⟨_, (@noTrace_iff_repeats deviceBodies { addr := 1 } noDeviceDaemon _ "t" "s" sameNsText ⟨rfl, _, rfl, rfl⟩ rfl).2.mpr
    ⟨_, _, _, rfl, rfl, rfl, fun z hz => ⟨_, rfl, fun n hn => by cases hz; cases hn; rfl⟩, fun z hz => by cases hz⟩⟩

/-- A namespace for which the target has no device is rejected, and is in the store afterwards. -/
theorem rejected_leaves_trace :
    ¬∀ (J : JsonLib) (w : World) (d : Daemon) (tgt nqn data : String) (a : Answer), Rejects J w d tgt nqn data →
      setNs J w d tgt nqn data = .ok a → NoTrace tgt nqn d a.dem := by
  intro h
  have htrace := (h deviceBodies { addr := 1 } noDeviceDaemon "t" "s" otherNsText _ ⟨rfl, _, rfl, rfl⟩ rfl).1
  have hcount := congrArg (fun nsids => nsids.map (fun j => j.elems.length)) htrace
  exact absurd hcount (by decide)

end NvmeDem
