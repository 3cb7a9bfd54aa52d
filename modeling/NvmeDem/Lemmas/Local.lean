import NvmeDem.Lib.Local
import NvmeDem.Lemmas.Effects
import NvmeDem.Lemmas.Refusals

/-!
# What a call on a target reads and writes

A call that edits the parts of a target reads the hosts of the store and that target, and writes that target. So it does in the
store what it does in one that has the hosts and no other target: `alone`.
-/

namespace NvmeDem

open Jansson

/-! ## The targets of the store as its places -/

/-- The place of a target, whatever entry with another alias is put in its place. -/
theorem findArray_set {array x t : Json} {tag name name' : String} {i : Nat} (hne : name' ≠ name)
    (hget : array.elems[i]? = some t) (ht : t.strField tag = some name) (hx : x.strField tag = some name) :
    findArray (array.arraySet i x) tag name' = findArray array tag name' := by
  obtain ⟨l, r, hl, hset, -⟩ := Keyed.split_at hget
  have hp : ∀ y : Json, y.strField tag = some name → decide (y.strField tag = some name') = false := by
    intro y hy
    rw [hy]
    exact decide_eq_false (fun h => hne (Option.some.inj h).symm)
  simp only [findArray, Json.elems_arraySet, hset x]
  rw [hl, List.findIdx?_append, List.findIdx?_append, List.findIdx?_cons, List.findIdx?_cons, hp x hx, hp t ht]

/-- The first target with an alias. -/
def targetEntry (root : Json) (tgt : String) : Option Json :=
  (findArray (root.arrayOr tagTargets) tagAlias tgt).map (arrayGet (root.arrayOr tagTargets))

/-- An entry in the place of the first target with an alias. -/
def putTargetEntry (root : Json) (tgt : String) (t : Json) : Json :=
  match findArray (root.arrayOr tagTargets) tagAlias tgt with
  | none => root
  | some i => root.putAt tagTargets i t

theorem TargetAt.of_first {root : Json} {tgt : String} {i : Nat}
    (h : findArray (root.arrayOr tagTargets) tagAlias tgt = some i) :
    TargetAt root tgt i (arrayGet (root.arrayOr tagTargets) i) := by
  obtain ⟨hget, hkey⟩ := findArray_some h
  exact ⟨h, by rwa [Json.elems_arrayOr] at hget, hkey⟩

/-- Two targets with different aliases stand at different places. -/
theorem TargetAt.place_ne {root t t' : Json} {tgt tgt' : String} {i i' : Nat} (ht : TargetAt root tgt i t)
    (ht' : TargetAt root tgt' i' t') (hne : tgt ≠ tgt') : i ≠ i' := by
  rintro rfl
  have hsame : t = t' := Option.some.inj (ht.get.symm.trans ht'.get)
  exact hne (Option.some.inj (ht.key.symm.trans (hsame ▸ ht'.key)))

theorem targetEntry_eq_some {root t : Json} {tgt : String} : targetEntry root tgt = some t ↔ ∃ i, TargetAt root tgt i t := by
  unfold targetEntry
  constructor
  · intro h
    obtain ⟨i, hi, rfl⟩ := Option.map_eq_some_iff.mp h
    exact ⟨i, .of_first hi⟩
  · rintro ⟨i, ht⟩
    rw [ht.first, Option.map_some, arrayGet, Json.elems_arrayOr, ht.get]
    rfl

theorem targetEntry_eq_none {root : Json} {tgt : String} :
    targetEntry root tgt = none ↔ findArray (root.arrayOr tagTargets) tagAlias tgt = none := Option.map_eq_none_iff

theorem TargetAt.putTargetEntry {root t : Json} {tgt : String} {i : Nat} (ht : TargetAt root tgt i t) (x : Json) :
    putTargetEntry root tgt x = root.putAt tagTargets i x := by
  unfold NvmeDem.putTargetEntry
  rw [ht.first]

theorem putTargetEntry_of_none {root x : Json} {tgt : String} (h : targetEntry root tgt = none) :
    putTargetEntry root tgt x = root := by
  unfold putTargetEntry
  rw [targetEntry_eq_none.mp h]

/-- Another target is found where it was. -/
theorem TargetAt.put_ne {root t x : Json} {tgt tgt' : String} {i : Nat} (ht : TargetAt root tgt i t) (hne : tgt' ≠ tgt)
    (hx : x.strField tagAlias = some tgt) :
    findArray ((root.putAt tagTargets i x).arrayOr tagTargets) tagAlias tgt' =
      findArray (root.arrayOr tagTargets) tagAlias tgt' := by
  have hobj : root.isObject = true := (Bool.and_eq_true_iff.mp (Json.canPush_of_entries ht.get)).1
  rw [Json.arrayOr_putAt hobj]
  exact findArray_set hne (by rw [Json.elems_arrayOr, ht.get]) ht.key hx

theorem targetEntry_put_ne {root x : Json} {tgt tgt' : String} (hne : tgt' ≠ tgt) (hx : x.strField tagAlias = some tgt) :
    targetEntry (putTargetEntry root tgt x) tgt' = targetEntry root tgt' := by
  cases h : targetEntry root tgt with
  | none => rw [putTargetEntry_of_none h]
  | some t =>
    obtain ⟨i, ht⟩ := targetEntry_eq_some.mp h
    rw [ht.putTargetEntry, targetEntry, targetEntry, ht.put_ne hne hx]
    cases hfind : findArray (root.arrayOr tagTargets) tagAlias tgt' with
    | none => rfl
    | some i' =>
      have hi : i ≠ i' := ht.place_ne (.of_first hfind) hne.symm
      rw [Option.map_some, Option.map_some, arrayGet, arrayGet, Json.elems_arrayOr, Json.elems_arrayOr, Json.entries_putAt,
        List.getElem?_set_ne hi]

theorem putTargetEntry_comm {root x x' : Json} {tgt tgt' : String} (hne : tgt ≠ tgt') (hx : x.strField tagAlias = some tgt)
    (hx' : x'.strField tagAlias = some tgt') :
    putTargetEntry (putTargetEntry root tgt x) tgt' x' = putTargetEntry (putTargetEntry root tgt' x') tgt x := by
  cases h : targetEntry root tgt with
  | none =>
    have h' : targetEntry (putTargetEntry root tgt' x') tgt = none := by rw [targetEntry_put_ne hne hx', h]
    rw [putTargetEntry_of_none h, putTargetEntry_of_none h']
  | some t =>
    obtain ⟨i, ht⟩ := targetEntry_eq_some.mp h
    cases h' : targetEntry root tgt' with
    | none =>
      have h'' : targetEntry (putTargetEntry root tgt x) tgt' = none := by rw [targetEntry_put_ne hne.symm hx, h']
      rw [putTargetEntry_of_none h', putTargetEntry_of_none h'']
    | some t' =>
      obtain ⟨i', ht'⟩ := targetEntry_eq_some.mp h'
      have hi : i ≠ i' := ht.place_ne ht' hne
      rw [ht.putTargetEntry, ht'.putTargetEntry]
      unfold putTargetEntry
      rw [ht.put_ne hne.symm hx, ht'.put_ne hne hx', ht.first, ht'.first]
      exact Json.putAt_comm hi root tagTargets x x'

/-- The targets of the store, each at the place of its alias. -/
def targetPlaces : Places Json String Json where
  get := targetEntry
  put := putTargetEntry
  fits tgt t := t.strField tagAlias = some tgt
  get_fits h := by
    obtain ⟨i, ht⟩ := targetEntry_eq_some.mp h
    exact ht.key
  get_put_ne := targetEntry_put_ne
  put_comm := putTargetEntry_comm

/-! ## A store with one target -/

/-- The hosts of a store and one target. -/
def alone (hosts : Option Json) (t : Json) : Json :=
  .object ((tagTargets, .array [t]) :: (hosts.map (fun h => (tagHosts, h))).toList)

/-- The one target of such a store. -/
def theTarget (root : Json) : Json := arrayGet (root.arrayOr tagTargets) 0

/-- A reply that leaves the one target, in the store that has the target at the place `i`. -/
def Reply.back {α : Type} (root : Json) (i : Nat) (r : Reply α) : Reply α :=
  { r with root := root.putAt tagTargets i (theTarget r.root) }

theorem objectGet_alone_targets (hosts : Option Json) (t : Json) : (alone hosts t).objectGet tagTargets = some (.array [t]) := rfl

theorem objectGet_alone_hosts (hosts : Option Json) (t : Json) : (alone hosts t).objectGet tagHosts = hosts := by
  cases hosts <;> rfl

theorem theTarget_alone (hosts : Option Json) (t : Json) : theTarget (alone hosts t) = t := rfl

theorem theTarget_putAt (hosts : Option Json) (t x : Json) : theTarget ((alone hosts t).putAt tagTargets 0 x) = x := by
  rw [theTarget, Json.arrayOr_putAt rfl]
  rfl

theorem findArray_singleton {t : Json} {tag val : String} (h : t.strField tag = some val) :
    findArray (.array [t]) tag val = some 0 := by
  simp [findArray, Json.elems, h]

theorem arrayGet_singleton (t : Json) : arrayGet (.array [t]) 0 = t := rfl

/-- What a call replies that puts a target in the place of the one. -/
theorem Reply.back_putAt {α : Type} (root : Json) (i : Nat) (hosts : Option Json) (t x : Json) (ret : Int) (resp : String)
    (out : α) :
    Except.map (ε := Fault) (Reply.back root i) (.ok ⟨ret, resp, (alone hosts t).putAt tagTargets 0 x, out⟩) =
      .ok ⟨ret, resp, root.putAt tagTargets i x, out⟩ := by
  simp only [Except.map, Reply.back, theTarget_putAt]

section

variable {J : JsonLib} {root t : Json} {tgt : String} {i : Nat} (ht : TargetAt root tgt i t)

include ht

/-- What a call replies that leaves the one as it is. -/
theorem TargetAt.back_alone {α : Type} (hosts : Option Json) (ret : Int) (resp : String) (out : α) :
    Except.map (ε := Fault) (Reply.back root i) (.ok ⟨ret, resp, alone hosts t, out⟩) = .ok ⟨ret, resp, root, out⟩ := by
  simp only [Except.map, Reply.back, theTarget_alone, Json.putAt_getElem? ht.get]

theorem TargetAt.lookup : ∃ targets, root.objectGet tagTargets = some targets ∧ findArray targets tagAlias tgt = some i ∧
    arrayGet targets i = t := by
  have hget := ht.get
  cases h : root.objectGet tagTargets with
  | none =>
    rw [Json.entries, h] at hget
    cases hget
  | some targets =>
    rw [entries_of_objectGet h] at hget
    exact ⟨targets, rfl, by rw [← ht.first, arrayOr_of_objectGet h], by rw [arrayGet, hget, Option.getD_some]⟩

end

section

variable {J : JsonLib} {root t : Json} {tgt : String} {i : Nat} {hosts : Option Json}

theorem changeJsonSubsys_alone (subnqn : String) (j : Nat) (obj array new : Json) (arg : SubsysArg) :
    changeJsonSubsys root tgt subnqn i j obj array new arg =
      (changeJsonSubsys (alone hosts t) tgt subnqn 0 j obj array new arg).map (Reply.back root i) := by
  unfold changeJsonSubsys
  cases strcpy maxString (some subnqn) with
  | error f => rfl
  | ok nqn =>
    dsimp only
    cases jsonUpdateStringEx (arrayGet array j) new tagSubnqn maxNqnSize nqn with
    | error f => rfl
    | ok p => exact (Reply.back_putAt ..).symm

theorem setJsonSubsysBody_alone (subnqn : Option String) (obj array : Json) (at? : Option Nat) (data : String)
    (arg : SubsysArg) :
    setJsonSubsysBody J root tgt subnqn i obj array at? data arg =
      (setJsonSubsysBody J (alone hosts t) tgt subnqn 0 obj array at? data arg).map (Reply.back root i) := by
  unfold setJsonSubsysBody
  cases J.loads data with
  | none => exact (Reply.back_putAt ..).symm
  | some new =>
    dsimp only
    cases new.objectGet tagSubnqn with
    | none =>
      cases subnqn with
      | none => exact (Reply.back_putAt ..).symm
      | some old =>
        cases at? with
        | none => exact (Reply.back_putAt ..).symm
        | some j => exact changeJsonSubsys_alone ..
    | some value =>
      simp only [Option.map_some]
      cases strcpy maxString value.stringValue with
      | error f => rfl
      | ok nqn =>
        dsimp only
        split
        · exact (Reply.back_putAt ..).symm
        · cases subnqn with
          | none => exact (Reply.back_putAt ..).symm
          | some old =>
            cases at? with
            | none => exact (Reply.back_putAt ..).symm
            | some j => exact changeJsonSubsys_alone ..

theorem setJsonPortidBody_alone (id : Int) (obj array new : Json) (arg : PortArg) :
    setJsonPortidBody root tgt id i obj array new arg =
      (setJsonPortidBody (alone hosts t) tgt id 0 obj array new arg).map (Reply.back root i) := by
  unfold setJsonPortidBody
  cases findArrayInt array tagPortid id with
  | none =>
    dsimp only
    cases updatePortFields (newPort id) new arg with
    | error f => rfl
    | ok p => exact (Reply.back_putAt ..).symm
  | some j =>
    dsimp only
    cases updatePortFields (arrayGet array j) new arg with
    | error f => rfl
    | ok p => exact (Reply.back_putAt ..).symm

theorem setJsonAclBody_alone (hostsArray : Json) (subnqn newalias : String) (j : Nat) (obj sub : Json) (out : HostOut) :
    setJsonAclBody root hostsArray tgt subnqn newalias i j obj sub out =
      (setJsonAclBody (alone hosts t) hostsArray tgt subnqn newalias 0 j obj sub out).map (Reply.back root i) := by
  unfold setJsonAclBody
  cases findArray hostsArray tagAlias newalias with
  | none => exact (Reply.back_putAt ..).symm
  | some h =>
    dsimp only
    split
    · exact (Reply.back_putAt ..).symm
    · cases (arrayGet hostsArray h).objectGet tagHostnqn with
      | none => exact (Reply.back_putAt ..).symm
      | some value =>
        dsimp only
        cases strcpy maxNqnSize value.stringValue with
        | error f => rfl
        | ok hostnqn => exact (Reply.back_putAt ..).symm

end

section

variable {J : JsonLib} {root t : Json} {tgt : String} {i : Nat} (ht : TargetAt root tgt i t)

include ht

theorem TargetAt.setJsonSubsys_alone (subnqn : Option String) (data : String) (arg : SubsysArg) :
    setJsonSubsys J root tgt subnqn data arg =
      (setJsonSubsys J (alone (root.objectGet tagHosts) t) tgt subnqn data arg).map (Reply.back root i) := by
  obtain ⟨targets, htargets, hfind, hget⟩ := ht.lookup
  simp only [setJsonSubsys, htargets, hfind, hget, objectGet_alone_targets, findArray_singleton ht.key, arrayGet_singleton]
  rcases jsonGetArray t tagSubsystems with ⟨obj, _ | array⟩
  · exact (ht.back_alone ..).symm
  · cases subnqn with
    | none =>
      by_cases hdata : data = ""
      · simp only [hdata, if_true]
        exact (Reply.back_putAt ..).symm
      · simp only [hdata, if_false]
        exact setJsonSubsysBody_alone ..
    | some old =>
      dsimp only
      cases findArray array tagSubnqn old with
      | none => exact (Reply.back_putAt ..).symm
      | some j =>
        by_cases hdata : data = ""
        · simp only [hdata, if_true]
          exact (Reply.back_putAt ..).symm
        · simp only [hdata, if_false]
          exact setJsonSubsysBody_alone ..

theorem TargetAt.delJsonSubsys_alone (subnqn : Option String) :
    delJsonSubsys root tgt subnqn =
      (delJsonSubsys (alone (root.objectGet tagHosts) t) tgt subnqn).map (Reply.back root i) := by
  obtain ⟨targets, htargets, hfind, hget⟩ := ht.lookup
  simp only [delJsonSubsys, delFromArray, htargets, hfind, hget, objectGet_alone_targets, findArray_singleton ht.key,
    arrayGet_singleton]
  cases t.objectGet tagSubsystems with
  | none => exact (ht.back_alone ..).symm
  | some array =>
    dsimp only
    rcases findArrayPtr array tagSubnqn subnqn with f | _ | j
    · rfl
    · exact (ht.back_alone ..).symm
    · exact (Reply.back_putAt ..).symm

theorem TargetAt.setJsonPortid_alone (id : Int) (data : String) (arg : PortArg) :
    setJsonPortid J root tgt id data arg =
      (setJsonPortid J (alone (root.objectGet tagHosts) t) tgt id data arg).map (Reply.back root i) := by
  obtain ⟨targets, htargets, hfind, hget⟩ := ht.lookup
  simp only [setJsonPortid, htargets, hfind, hget, objectGet_alone_targets, findArray_singleton ht.key, arrayGet_singleton]
  rcases jsonGetArray t tagPortids with ⟨obj, _ | array⟩
  · exact (ht.back_alone ..).symm
  · by_cases hdata : data = ""
    · simp only [hdata, if_true]
      exact (Reply.back_putAt ..).symm
    · simp only [hdata, if_false]
      cases J.loads data with
      | none => exact (Reply.back_putAt ..).symm
      | some new =>
        by_cases hid : requestPortid id new = 0
        · simp only [hid, if_true]
          exact (Reply.back_putAt ..).symm
        · simp only [hid, if_false]
          exact setJsonPortidBody_alone ..

theorem TargetAt.delJsonPortid_alone (id : Int) :
    delJsonPortid root tgt id = (delJsonPortid (alone (root.objectGet tagHosts) t) tgt id).back root i := by
  obtain ⟨targets, htargets, hfind, hget⟩ := ht.lookup
  simp only [delJsonPortid, delIntFromArray, htargets, hfind, hget, objectGet_alone_targets, findArray_singleton ht.key,
    arrayGet_singleton]
  cases t.objectGet tagPortids with
  | none => exact (Except.ok.inj (ht.back_alone ..)).symm
  | some array =>
    dsimp only
    cases findArrayInt array tagPortid id with
    | none => exact (Except.ok.inj (ht.back_alone ..)).symm
    | some j => exact (Except.ok.inj (Reply.back_putAt ..)).symm

theorem TargetAt.setJsonNs_alone (subnqn data : String) (arg : NsArg) :
    setJsonNs J root tgt subnqn data arg =
      (setJsonNs J (alone (root.objectGet tagHosts) t) tgt subnqn data arg).back root i := by
  obtain ⟨targets, htargets, hfind, hget⟩ := ht.lookup
  simp only [setJsonNs, htargets, hfind, hget, objectGet_alone_targets, findArray_singleton ht.key, arrayGet_singleton]
  rcases jsonGetArray t tagSubsystems with ⟨obj, _ | subsystems⟩
  · exact (Except.ok.inj (ht.back_alone ..)).symm
  · dsimp only
    cases findArray subsystems tagSubnqn subnqn with
    | none => exact (Except.ok.inj (Reply.back_putAt ..)).symm
    | some j =>
      dsimp only
      rcases jsonGetArray (arrayGet subsystems j) tagNsids with ⟨sub, _ | array⟩
      · exact (Except.ok.inj (ht.back_alone ..)).symm
      · cases (J.loads data).bind (fun new => (new.objectGet tagNsid).map (fun nsid => (new, nsid))) with
        | none => exact (Except.ok.inj (Reply.back_putAt ..)).symm
        | some p => exact (Except.ok.inj (Reply.back_putAt ..)).symm

theorem TargetAt.delJsonNs_alone (subnqn : String) (ns : Int) :
    delJsonNs root tgt subnqn ns = (delJsonNs (alone (root.objectGet tagHosts) t) tgt subnqn ns).back root i := by
  obtain ⟨targets, htargets, hfind, hget⟩ := ht.lookup
  simp only [delJsonNs, htargets, hfind, hget, objectGet_alone_targets, findArray_singleton ht.key, arrayGet_singleton]
  cases t.objectGet tagSubsystems with
  | none => exact (Except.ok.inj (ht.back_alone ..)).symm
  | some array =>
    dsimp only
    cases delIntFromArray array tagSubnqn subnqn tagNsids tagNsid ns with
    | none => exact (Except.ok.inj (ht.back_alone ..)).symm
    | some p => exact (Except.ok.inj (Reply.back_putAt ..)).symm

theorem TargetAt.setJsonAcl_alone (subnqn : String) (host : Option String) (data : String) (out : HostOut) :
    setJsonAcl J root tgt subnqn host data out =
      (setJsonAcl J (alone (root.objectGet tagHosts) t) tgt subnqn host data out).map (Reply.back root i) := by
  obtain ⟨targets, htargets, hfind, hget⟩ := ht.lookup
  simp only [setJsonAcl, objectGet_alone_hosts]
  cases root.objectGet tagHosts with
  | none => exact (ht.back_alone ..).symm
  | some hosts =>
    simp only [htargets, hfind, hget, objectGet_alone_targets, findArray_singleton ht.key, arrayGet_singleton]
    rcases jsonGetArray t tagSubsystems with ⟨obj, _ | array⟩
    · exact (ht.back_alone ..).symm
    · dsimp only
      cases findArray array tagSubnqn subnqn with
      | none => exact (Reply.back_putAt ..).symm
      | some j =>
        dsimp only
        rcases aclAlias J host data with _ | f | newalias
        · exact (Reply.back_putAt ..).symm
        · rfl
        · exact setJsonAclBody_alone ..

theorem TargetAt.delJsonAcl_alone (subnqn host : String) :
    delJsonAcl root tgt subnqn host = (delJsonAcl (alone (root.objectGet tagHosts) t) tgt subnqn host).back root i := by
  obtain ⟨targets, htargets, hfind, hget⟩ := ht.lookup
  simp only [delJsonAcl, htargets, hfind, hget, objectGet_alone_targets, findArray_singleton ht.key, arrayGet_singleton]
  rcases jsonGetArray t tagSubsystems with ⟨obj, _ | array⟩
  · exact (Except.ok.inj (ht.back_alone ..)).symm
  · dsimp only
    cases findArray array tagSubnqn subnqn with
    | none => exact (Except.ok.inj (Reply.back_putAt ..)).symm
    | some j =>
      dsimp only
      cases (arrayGet array j).objectGet tagHosts with
      | none => exact (Except.ok.inj (Reply.back_putAt ..)).symm
      | some list =>
        dsimp only
        cases findArrayString list host with
        | none => exact (Except.ok.inj (Reply.back_putAt ..)).symm
        | some k => exact (Except.ok.inj (Reply.back_putAt ..)).symm

end

/-! ## The calls on a target -/

/-- The target whose parts a call edits: its ports, its subsystems, their namespaces and their lists of allowed hosts. -/
def StoreOp.onTarget : StoreOp → Option String
  | .setSubsys tgt _ _ _ => some tgt
  | .delSubsys tgt _ => some tgt
  | .setPortid tgt _ _ _ => some tgt
  | .delPortid tgt _ => some tgt
  | .setNs tgt _ _ _ => some tgt
  | .delNs tgt _ _ => some tgt
  | .setAcl tgt _ _ _ _ => some tgt
  | .delAcl tgt _ _ => some tgt
  | _ => none

variable {J : JsonLib} {op : StoreOp} {root root' t : Json} {tgt : String} {i : Nat} {ret : Int}

/-- A call on a target that is not there changes nothing. -/
theorem run_of_none (hop : op.onTarget = some tgt) (hnone : targetEntry root tgt = none) :
    op.run J root = .ok (-enoent, root) := by
  have hmiss : root.objectGet tagTargets = none ∨
      ∃ targets, root.objectGet tagTargets = some targets ∧ findArray targets tagAlias tgt = none := by
    have hfind := targetEntry_eq_none.mp hnone
    cases htargets : root.objectGet tagTargets with
    | none => exact Or.inl rfl
    | some targets =>
      rw [arrayOr_of_objectGet htargets] at hfind
      exact Or.inr ⟨targets, rfl, hfind⟩
  cases op with
  | setSubsys tgt subnqn data arg =>
    obtain rfl := Option.some.inj hop
    rcases hmiss with h | ⟨targets, h, hfind⟩
    · simp only [StoreOp.run, setJsonSubsys, h, Except.map, Reply.step]
    · simp only [StoreOp.run, setJsonSubsys, h, hfind, Except.map, Reply.step]
  | delSubsys tgt subnqn =>
    obtain rfl := Option.some.inj hop
    rcases hmiss with h | ⟨targets, h, hfind⟩
    · simp only [StoreOp.run, delJsonSubsys, h, Except.map, Reply.step]
    · simp only [StoreOp.run, delJsonSubsys, delFromArray, h, hfind, Except.map, Reply.step]
  | setPortid tgt id data arg =>
    obtain rfl := Option.some.inj hop
    rcases hmiss with h | ⟨targets, h, hfind⟩
    · simp only [StoreOp.run, setJsonPortid, h, Except.map, Reply.step]
    · simp only [StoreOp.run, setJsonPortid, h, hfind, Except.map, Reply.step]
  | delPortid tgt id =>
    obtain rfl := Option.some.inj hop
    rcases hmiss with h | ⟨targets, h, hfind⟩
    · simp only [StoreOp.run, delJsonPortid, h, Reply.step]
    · simp only [StoreOp.run, delJsonPortid, delIntFromArray, h, hfind, Reply.step]
  | setNs tgt subnqn data arg =>
    obtain rfl := Option.some.inj hop
    rcases hmiss with h | ⟨targets, h, hfind⟩
    · simp only [StoreOp.run, setJsonNs, h, Reply.step]
    · simp only [StoreOp.run, setJsonNs, h, hfind, Reply.step]
  | delNs tgt subnqn ns =>
    obtain rfl := Option.some.inj hop
    rcases hmiss with h | ⟨targets, h, hfind⟩
    · simp only [StoreOp.run, delJsonNs, h, Reply.step]
    · simp only [StoreOp.run, delJsonNs, h, hfind, Reply.step]
  | setAcl tgt subnqn host data arg =>
    obtain rfl := Option.some.inj hop
    simp only [StoreOp.run, setJsonAcl]
    cases root.objectGet tagHosts with
    | none => rfl
    | some hosts =>
      rcases hmiss with h | ⟨targets, h, hfind⟩
      · simp only [h, Except.map, Reply.step]
      · simp only [h, hfind, Except.map, Reply.step]
  | delAcl tgt subnqn host =>
    obtain rfl := Option.some.inj hop
    rcases hmiss with h | ⟨targets, h, hfind⟩
    · simp only [StoreOp.run, delJsonAcl, h, Reply.step]
    · simp only [StoreOp.run, delJsonAcl, h, hfind, Reply.step]
  | _ => cases hop

theorem map_back_step {α : Type} (x : Except Fault (Reply α)) :
    (x.map (Reply.back root i)).map Reply.step =
      (x.map Reply.step).map (fun p => (p.1, root.putAt tagTargets i (theTarget p.2))) := by
  cases x <;> rfl

/-- A call on a target does in the store what it does in one that has no other target. -/
theorem run_alone (hop : op.onTarget = some tgt) (ht : TargetAt root tgt i t) :
    op.run J root = (op.run J (alone (root.objectGet tagHosts) t)).map
      (fun p => (p.1, root.putAt tagTargets i (theTarget p.2))) := by
  cases op with
  | setSubsys tgt subnqn data arg =>
    obtain rfl := Option.some.inj hop
    simp only [StoreOp.run]
    rw [ht.setJsonSubsys_alone, map_back_step]
  | delSubsys tgt subnqn =>
    obtain rfl := Option.some.inj hop
    simp only [StoreOp.run]
    rw [ht.delJsonSubsys_alone, map_back_step]
  | setPortid tgt id data arg =>
    obtain rfl := Option.some.inj hop
    simp only [StoreOp.run]
    rw [ht.setJsonPortid_alone, map_back_step]
  | delPortid tgt id =>
    obtain rfl := Option.some.inj hop
    simp only [StoreOp.run]
    rw [ht.delJsonPortid_alone]
    rfl
  | setNs tgt subnqn data arg =>
    obtain rfl := Option.some.inj hop
    simp only [StoreOp.run]
    rw [ht.setJsonNs_alone]
    rfl
  | delNs tgt subnqn ns =>
    obtain rfl := Option.some.inj hop
    simp only [StoreOp.run]
    rw [ht.delJsonNs_alone]
    rfl
  | setAcl tgt subnqn host data arg =>
    obtain rfl := Option.some.inj hop
    simp only [StoreOp.run]
    rw [ht.setJsonAcl_alone, map_back_step]
  | delAcl tgt subnqn host =>
    obtain rfl := Option.some.inj hop
    simp only [StoreOp.run]
    rw [ht.delJsonAcl_alone]
    rfl
  | _ => cases hop

/-- The target of a store that has no other stands first in it. -/
theorem TargetAt.of_alone {hosts : Option Json} {u : Json} (h : TargetAt (alone hosts t) tgt i u) : i = 0 ∧ u = t := by
  have hget : ([t] : List Json)[i]? = some u := h.get
  cases i with
  | zero => exact ⟨rfl, (Option.some.inj hget).symm⟩
  | succ i => cases hget

theorem theTarget_fills {hosts : Option Json} (h : Json.Fills (alone hosts t) root') : Json.Fills t (theTarget root') := by
  have hentries : List.Forall₂ Json.Fills [t] (root'.entries tagTargets) := h.entries tagTargets
  rw [theTarget, arrayGet, Json.elems_arrayOr]
  cases hroot : root'.entries tagTargets with
  | nil =>
    rw [hroot] at hentries
    cases hentries
  | cons u us =>
    rw [hroot] at hentries
    cases hentries with
    | cons hu hus => exact hu

/-- A call on a target leaves it its alias. -/
theorem theTarget_alias {hosts : Option Json} (hop : op.onTarget = some tgt) (ht : t.strField tagAlias = some tgt)
    (hrun : op.run J (alone hosts t) = .ok (ret, root')) : (theTarget root').strField tagAlias = some tgt := by
  have hput : ∀ {i : Nat} {u u' : Json} {tgt' : String}, TargetAt (alone hosts t) tgt' i u →
      u'.strField tagAlias = u.strField tagAlias →
      (theTarget ((alone hosts t).putAt tagTargets i u')).strField tagAlias = some tgt := by
    intro i u u' tgt' hat hkeep
    obtain ⟨rfl, rfl⟩ := hat.of_alone
    rw [theTarget_putAt, hkeep, ht]
  rcases run_cases hrun with ⟨-, hfill⟩ | ⟨-, he⟩
  · rw [(theTarget_fills hfill).strField, ht]
  · cases he with
    | keepSubsys hfill => rw [(theTarget_fills hfill).strField, ht]
    | setSubsys hat _ hupd =>
      cases hupd with
      | change => exact hput hat (Json.strField_putAt_ne (by decide) ..)
      | create => exact hput hat (Json.strField_pushAt_ne (by decide) ..)
    | delSubsys hat => exact hput hat (Json.strField_removeAt_ne (by decide) ..)
    | setPortid hat _ hupd => exact hput hat (strField_portUpdate hupd)
    | delPortid hat => exact hput hat (Json.strField_removeAt_ne (by decide) ..)
    | setNs hat => exact hput hat (Json.strField_putAt_ne (by decide) ..)
    | delNs hat => exact hput hat (Json.strField_putAt_ne (by decide) ..)
    | setAcl hadd =>
      obtain ⟨i, u, j, s, hat, -, -, rfl⟩ := hadd.added
      exact hput hat (Json.strField_putAt_ne (by decide) ..)
    | delAcl hat => exact hput hat (Json.strField_putAt_ne (by decide) ..)
    | _ => cases hop

/-- What a call on a target gives and writes, for the hosts of the store and the target that it finds. -/
def StoreOp.edit (J : JsonLib) (op : StoreOp) (hosts : Option Json) : Option Json → Except Fault (Int × Option Json)
  | none => .ok (-enoent, none)
  | some t => (op.run J (alone hosts t)).map (fun p => (p.1, some (theTarget p.2)))

theorem run_edit (hop : op.onTarget = some tgt) (root : Json) :
    op.run J root = (op.edit J (root.objectGet tagHosts) (targetEntry root tgt)).map
      (fun p => (p.1, targetPlaces.write root tgt p.2)) := by
  cases hget : targetEntry root tgt with
  | none =>
    rw [run_of_none hop hget]
    rfl
  | some t =>
    obtain ⟨i, ht⟩ := targetEntry_eq_some.mp hget
    rw [run_alone hop ht, StoreOp.edit]
    cases op.run J (alone (root.objectGet tagHosts) t) with
    | error f => rfl
    | ok p =>
      have hput : targetPlaces.write root tgt (some (theTarget p.2)) = root.putAt tagTargets i (theTarget p.2) :=
        ht.putTargetEntry (theTarget p.2)
      simp only [Except.map, hput]

/-- A call on a target is local to it. -/
theorem run_local (hop : op.onTarget = some tgt) :
    targetPlaces.LocalTo (fun root => root.objectGet tagHosts) tgt (fun root => op.run J root) := by
  refine ⟨op.edit J, run_edit hop, ?_⟩
  intro hosts t? ret u hfits hedit
  cases t? with
  | none => cases hedit
  | some t =>
    obtain ⟨p, hrun, hp⟩ := map_eq_ok hedit
    obtain ⟨rfl, hu⟩ := Prod.mk.inj hp
    obtain rfl := Option.some.inj hu
    exact theTarget_alias hop (hfits t rfl) hrun

end NvmeDem
