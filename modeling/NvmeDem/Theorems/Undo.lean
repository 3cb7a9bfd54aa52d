import NvmeDem.Lemmas.Walks
import NvmeDem.Theorems.Repeats

/-!
# A change that is taken back

What one request adds, the request that deletes it by its name takes away again: the store is what it was before the two, but for an
array that was made for what was added and is now empty.
-/

namespace NvmeDem

open Jansson

/-! ## What is added last is found last -/

section

variable {j x : Json} {k tag : String}

theorem findArray_pushAt {val : String} (hpush : j.canPush k = true) (hfresh : val ∉ j.keys k tag) (hx : x.strField tag = some val) :
    findArray ((j.pushAt k x).arrayOr k) tag val = some (j.entries k).length := by
  rw [findArray, Json.elems_arrayOr, Json.entries_pushAt_of_canPush hpush]
  exact Keyed.findIdx?_concat_fresh hfresh hx

theorem findArrayInt_pushAt {val : Int} (hpush : j.canPush k = true) (hfresh : val ∉ j.intKeys k tag)
    (hx : x.intField tag = some val) : findArrayInt ((j.pushAt k x).arrayOr k) tag val = some (j.entries k).length := by
  rw [findArrayInt, Json.elems_arrayOr, Json.entries_pushAt_of_canPush hpush]
  exact Keyed.findIdx?_concat_fresh hfresh hx

theorem findArrayString_pushAt {val : String} (hpush : j.canPush k = true) (hfresh : val ∉ j.strings k) :
    findArrayString ((j.pushAt k (.string val)).arrayOr k) val = some (j.entries k).length := by
  rw [findArrayString, Json.elems_arrayOr, Json.entries_pushAt_of_canPush hpush]
  exact Keyed.findIdx?_concat_fresh hfresh rfl

theorem objectGet_pushAt (hpush : j.canPush k = true) (x : Json) : (j.pushAt k x).objectGet k = some ((j.pushAt k x).arrayOr k) :=
  objectGet_of_entries (List.mem_of_getElem? (Json.getElem?_entries_pushAt hpush x))

end

/-! ## Who is not mentioned -/

section

variable {root : Json} {name tag : String}

/-- No group lists a host, or a target. -/
def Ungrouped (root : Json) (tag name : String) : Prop := ∀ group ∈ root.entries tagGroups, name ∉ group.strings tag

/-- No subsystem allows a host. -/
def Disallowed (root : Json) (name : String) : Prop :=
  ∀ tgt ∈ root.entries tagTargets, ∀ subsys ∈ tgt.entries tagSubsystems, name ∉ subsys.strings tagHosts

theorem delFromGroups_of_ungrouped (h : Ungrouped root tag name) : delFromGroups root tag name = root := by
  refine Json.adjust_eq_self (Json.arrayMap_eq_self (fun group hgroup => Json.adjust_eq_self ?_))
  rw [Json.elems_arrayOr] at hgroup
  unfold removeFirst
  rw [findArrayString_of_not_mem (by rw [Json.elems_arrayOr]; exact h group hgroup)]

theorem delFromAllowedHosts_of_disallowed (h : Disallowed root name) : delFromAllowedHosts root name = root := by
  refine Json.adjust_eq_self ((Json.arrayMapIdx_eq_arrayMap (g := id) (fun i tgt htgt => Json.adjust_eq_self ?_)).trans ?_)
  · rw [Json.elems_arrayOr] at htgt
    refine foldl_delAllowedStep_of_not_mem _ ?_
    rw [Json.elems_arrayOr]
    exact h tgt htgt
  · exact Json.arrayMap_eq_self (fun tgt _ => rfl)

theorem Ungrouped.ensureArray (h : Ungrouped root tag name) (k : String) : Ungrouped (root.ensureArray k) tag name := by
  unfold Ungrouped
  rw [Json.entries_ensureArray]
  exact h

theorem Disallowed.ensureArray (h : Disallowed root name) (k : String) : Disallowed (root.ensureArray k) name := by
  unfold Disallowed
  rw [Json.entries_ensureArray]
  exact h

end

/-! ## What was added is deleted -/

section

variable {J : JsonLib} {root x t s : Json} {tgt subnqn name : String} {i j : Nat}

theorem delJsonGroup_pushed (hpush : root.canPush tagGroups = true) (hfresh : name ∉ root.keys tagGroups tagName)
    (hx : x.strField tagName = some name) :
    (delJsonGroup (root.pushAt tagGroups x) name).step = (0, root.ensureArray tagGroups) := by
  unfold delJsonGroup
  simp only [objectGet_pushAt hpush, findArray_pushAt hpush hfresh hx, Reply.step, Json.removeAt_pushAt hpush]

theorem delJsonGroupMember_pushed {kind : Member} {member : String} (hx : GroupAt root name i x)
    (hpush : x.canPush kind.parentTag = true) (hfresh : member ∉ x.strings kind.parentTag) :
    (delJsonGroupMember (root.putAt tagGroups i (x.pushAt kind.parentTag (.string member))) name (some member) kind).map Reply.step =
      .ok (0, root.putAt tagGroups i (x.ensureArray kind.parentTag)) := by
  have hx' := hx.put (x.pushAt kind.parentTag (.string member))
    (by rw [Json.strField_pushAt_ne (by cases kind <;> decide)]; exact hx.key)
  obtain ⟨groups, hgroups, hfind, hget⟩ := hx'.lookup
  unfold delJsonGroupMember
  simp only [hgroups, hfind, hget, objectGet_pushAt hpush, findArrayStringPtr, findArrayString_pushAt hpush hfresh, Except.map,
    Reply.step, Json.removeAt_pushAt hpush, Json.putAt_putAt]

theorem delJsonHost_pushed (hpush : root.canPush tagHosts = true) (hfresh : name ∉ root.keys tagHosts tagAlias)
    (hx : x.strField tagAlias = some name) (hgroups : Ungrouped root tagHosts name) (hallowed : Disallowed root name)
    {nqn nqn' : String} (hnqn : (x.objectGet tagHostnqn).elim (.ok nqn) (fun obj => strcpy maxNqnSize obj.stringValue) = .ok nqn') :
    (delJsonHost (root.pushAt tagHosts x) (some name) nqn).map Reply.step = .ok (0, root.ensureArray tagHosts) := by
  unfold delJsonHost
  simp only [objectGet_pushAt hpush, findArrayPtr, findArray_pushAt hpush hfresh hx,
    arrayGet_arrayOr (Json.getElem?_entries_pushAt hpush x), hnqn, Except.map, Reply.step, cStr, Option.getD_some,
    Json.removeAt_pushAt hpush, delFromAllowedHosts_of_disallowed (hallowed.ensureArray tagHosts),
    delFromGroups_of_ungrouped (hgroups.ensureArray tagHosts)]

theorem delJsonTarget_pushed (hpush : root.canPush tagTargets = true) (hfresh : name ∉ root.keys tagTargets tagAlias)
    (hx : x.strField tagAlias = some name) (hempty : x.entries tagSubsystems = []) (hgroups : Ungrouped root tagTargets name) :
    (delJsonTarget (root.pushAt tagTargets x) (some name)).map Reply.step = .ok (0, root.ensureArray tagTargets) := by
  unfold delJsonTarget
  simp only [objectGet_pushAt hpush, findArrayPtr, findArray_pushAt hpush hfresh hx,
    arrayGet_arrayOr (Json.getElem?_entries_pushAt hpush x), hempty, List.length_nil, delJsonTargetSubsystems, Except.map, Reply.step,
    cStr, Option.getD_some, Json.removeAt_pushAt hpush, delFromGroups_of_ungrouped (hgroups.ensureArray tagTargets)]

theorem delJsonSubsys_pushed (ht : TargetAt root tgt i t) (hpush : t.canPush tagSubsystems = true)
    (hfresh : subnqn ∉ t.keys tagSubsystems tagSubnqn) (hs : s.strField tagSubnqn = some subnqn) :
    (delJsonSubsys (root.putAt tagTargets i (t.pushAt tagSubsystems s)) tgt (some subnqn)).map Reply.step =
      .ok (0, root.putAt tagTargets i (t.ensureArray tagSubsystems)) := by
  have ht' := ht.put (t.pushAt tagSubsystems s) (by rw [Json.strField_pushAt_ne (by decide), ht.key])
  obtain ⟨targets, htargets, hfind, hget⟩ := ht'.lookup
  unfold delJsonSubsys delFromArray
  simp only [htargets, hfind, hget, objectGet_pushAt hpush, findArrayPtr, findArray_pushAt hpush hfresh hs, Except.map, Reply.step,
    Json.removeAt_pushAt hpush, Json.putAt_putAt]

theorem delJsonPortid_pushed {id : Int} (ht : TargetAt root tgt i t) (hpush : t.canPush tagPortids = true)
    (hfresh : id ∉ t.intKeys tagPortids tagPortid) (hx : x.intField tagPortid = some id) :
    (delJsonPortid (root.putAt tagTargets i (t.pushAt tagPortids x)) tgt id).step =
      (0, root.putAt tagTargets i (t.ensureArray tagPortids)) := by
  have ht' := ht.put (t.pushAt tagPortids x) (by rw [Json.strField_pushAt_ne (by decide), ht.key])
  obtain ⟨targets, htargets, hfind, hget⟩ := ht'.lookup
  unfold delJsonPortid delIntFromArray
  simp only [htargets, hfind, hget, objectGet_pushAt hpush, findArrayInt_pushAt hpush hfresh hx, Reply.step,
    Json.removeAt_pushAt hpush, Json.putAt_putAt]

theorem delJsonNs_pushed {ns : Int} (ht : TargetAt root tgt i t) (hs : SubsysAt t subnqn j s) (hpush : s.canPush tagNsids = true)
    (hfresh : ns ∉ s.intKeys tagNsids tagNsid) (hx : x.intField tagNsid = some ns) :
    (delJsonNs (root.putAt tagTargets i (t.putAt tagSubsystems j (s.pushAt tagNsids x))) tgt subnqn ns).step =
      (0, root.putAt tagTargets i (t.putAt tagSubsystems j (s.ensureArray tagNsids))) := by
  have hs' := hs.put (s.pushAt tagNsids x) (by rw [Json.strField_pushAt_ne (by decide), hs.key])
  have ht' := ht.put (t.putAt tagSubsystems j (s.pushAt tagNsids x)) (by rw [Json.strField_putAt_ne (by decide), ht.key])
  obtain ⟨targets, htargets, hfind, hget⟩ := ht'.lookup
  unfold delJsonNs delIntFromArray
  simp only [htargets, hfind, hget, objectGet_of_entries (List.mem_of_getElem? hs'.get), hs'.find, arrayGet_arrayOr hs'.get,
    objectGet_pushAt hpush, findArrayInt_pushAt hpush hfresh hx, Reply.step, Json.removeAt_pushAt hpush, Json.putAt_putAt]

theorem delJsonAcl_pushed {host : String} (ht : TargetAt root tgt i t) (hs : SubsysAt t subnqn j s) (hpush : s.canPush tagHosts = true)
    (hfresh : host ∉ s.strings tagHosts) :
    (delJsonAcl (root.putAt tagTargets i (t.putAt tagSubsystems j (s.pushAt tagHosts (.string host)))) tgt subnqn host).step =
      (0, root.putAt tagTargets i (t.putAt tagSubsystems j (s.ensureArray tagHosts))) := by
  have hs' := hs.put (s.pushAt tagHosts (.string host)) (by rw [Json.strField_pushAt_ne (by decide), hs.key])
  have ht' := ht.put (t.putAt tagSubsystems j (s.pushAt tagHosts (.string host))) (by rw [Json.strField_putAt_ne (by decide), ht.key])
  obtain ⟨targets, htargets, hfind, hget⟩ := ht'.lookup
  unfold delJsonAcl
  simp only [htargets, hfind, hget, jsonGetArray_of_entries hs'.get, hs'.find, arrayGet_arrayOr hs'.get, objectGet_pushAt hpush,
    findArrayString_pushAt hpush hfresh, Reply.step, Json.removeAt_pushAt hpush, Json.putAt_putAt]

end

/-! ## The request and its undoing -/

/-- What was written for a host can be read again when it is deleted. -/
theorem exists_hostnqn {x new : Json} {a nqn₀ nqn' : String} (nqn : String)
    (h : jsonUpdateStringEx (jsonSetString (.object []) tagAlias a) new tagHostnqn maxNqnSize nqn₀ = .ok (x, nqn')) :
    ∃ n, (x.objectGet tagHostnqn).elim (.ok nqn) (fun obj => strcpy maxNqnSize obj.stringValue) = .ok n := by
  unfold jsonUpdateStringEx at h
  split at h
  · cases h
    exact ⟨nqn, rfl⟩
  · rename_i z hz
    rw [if_pos (by rfl)] at h
    split at h
    · cases h
    · rename_i n hn
      rw [strcpy_ok hn] at hn
      cases h
      exact ⟨_, hn⟩

/-- The second request deletes by its name what the first one makes. What is made is new; no subsystem allows a host that is made, the
body of a port gives no other id than the one that is looked up, and the list that a member goes to is an array. -/
inductive UndoneBy (J : JsonLib) (root : Json) : StoreOp → StoreOp → Prop
  | addGroup {group : String} : UndoneBy J root (.addGroup (some group)) (.delGroup group)
  | updateGroup {data name newname : String} {new : Json} (hnew : J.loads data = some new)
      (hname : new.strField tagName = some newname) (hne : newname ≠ "") :
      UndoneBy J root (.updateGroup none data name) (.delGroup newname)
  | setGroupMember {group name member out : String} {data : Option String} {kind : Member}
      (hmember : memberAlias J data name = some member)
      (hlist : ∀ i x, GroupAt root group i x → x.canPush kind.parentTag = true ∧ member ∉ x.strings kind.parentTag) :
      UndoneBy J root (.setGroupMember group data name kind out) (.delGroupMember group (some member) kind)
  | addHost {host nqn : String} (hallowed : Disallowed root host) : UndoneBy J root (.addHost (some host)) (.delHost (some host) nqn)
  | updateHost {host data nqn : String} {arg : HostOut} {new : Json} (hnew : J.loads data = some new)
      (hname : new.strField tagAlias = some host) (hallowed : Disallowed root host) :
      UndoneBy J root (.updateHost none data arg) (.delHost (some host) nqn)
  | addTarget {tgt : String} : UndoneBy J root (.addTarget (some tgt)) (.delTarget (some tgt))
  | updateTarget {tgt data : String} {arg : TargetArg} {new : Json} (hnew : J.loads data = some new)
      (hname : new.strField tagAlias = some tgt) : UndoneBy J root (.updateTarget none data arg) (.delTarget (some tgt))
  | setSubsys {tgt subnqn data : String} {arg : SubsysArg} {new : Json} (hnew : J.loads data = some new)
      (hname : new.strField tagSubnqn = some subnqn) : UndoneBy J root (.setSubsys tgt none data arg) (.delSubsys tgt (some subnqn))
  | setPortid {tgt data : String} {id : Int} {arg : PortArg} {new : Json} (hnew : J.loads data = some new)
      (hsame : ∀ value, new.objectGet tagPortid = some value → value.integerValue = requestPortid id new)
      (hfresh : ∀ i t, TargetAt root tgt i t → requestPortid id new ∉ t.intKeys tagPortids tagPortid) :
      UndoneBy J root (.setPortid tgt id data arg) (.delPortid tgt (requestPortid id new))
  | setNs {tgt subnqn data : String} {arg : NsArg} {new nsid : Json} (hnew : J.loads data = some new)
      (hnsid : new.objectGet tagNsid = some nsid)
      (hfresh : ∀ i t j s, TargetAt root tgt i t → SubsysAt t subnqn j s →
        cInt nsid.integerValue ∉ s.intKeys tagNsids tagNsid) :
      UndoneBy J root (.setNs tgt subnqn data arg) (.delNs tgt subnqn (cInt nsid.integerValue))
  | setAcl {tgt subnqn data member : String} {host : Option String} {arg : HostOut} (hname : aclAlias J host data = some (.ok member))
      (hlist : ∀ i t j s, TargetAt root tgt i t → SubsysAt t subnqn j s → s.canPush tagHosts = true) :
      UndoneBy J root (.setAcl tgt subnqn host data arg) (.delAcl tgt subnqn member)

section

variable {J : JsonLib} {root root' : Json} {op undo : StoreOp}

theorem GroupsRefer.ungrouped (h : GroupsRefer root) (kind : Member) {name : String}
    (hfresh : name ∉ root.keys kind.parentTag tagAlias) : Ungrouped root kind.parentTag name := by
  intro group hgroup hmem
  cases kind with
  | host => exact hfresh ((h group hgroup).1.known name hmem)
  | target => exact hfresh ((h group hgroup).2.known name hmem)

end

end NvmeDem
