import NvmeDem.Dem.Requests
import NvmeDem.Lemmas.Targets

/-!
# An out-of-band interface that is set is not loaded

What `setupOobTarget` loads is an object with a text and a number, under the key of the interface of a target. `setInterface` copies the
number as it copies a text, so that a body that has a number is the end of the daemon; and what it stores of another body, it stores under
the key of the interfaces that a target reported. A load finds what it would have found before (`oob_interface_not_loaded`).
-/

namespace NvmeDem

open Jansson

/-- A body with an interface as `setupOobTarget` takes it. -/
def Loadable (J : JsonLib) (data : String) : Prop :=
  ∃ (new newobj : Json) (address : String) (port : Int), J.loads data = some new ∧ new.objectGet tagInterface = some newobj ∧
    newobj.strField tagIfaddress = some address ∧ newobj.intField tagIfport = some port

/-- The interface of a target in the lists is the one that is loaded for it from the root, whatever the target holds before. -/
def LoadsBack (d : Daemon) (tgt : String) : Prop :=
  ∃ (target : Target) (i : Nat), findTarget d.lists tgt = some target ∧ findArray (d.root.arrayOr tagTargets) tagAlias tgt = some i ∧
    ∀ fresh : Target, ∃ loaded : Target, setupOobTarget (arrayGet (d.root.arrayOr tagTargets) i) fresh = .ok (true, loaded) ∧
      loaded.oob = target.oob

/-- The interface is set, and loaded again. -/
def RoundTrip (J : JsonLib) (w : World) (d : Daemon) (tgt data : String) : Prop :=
  ∃ a, setInterface J w d tgt data = .ok a ∧ a.ret = 0 ∧ LoadsBack a.dem tgt

section

variable {J : JsonLib} {w : World} {d : Daemon} {tgt data : String} {target : Target} {i : Nat}

/-- A number is not a text that can be copied. -/
theorem jsonUpdateStringEx_of_intField {w x : Json} {tag res : String} {size : Nat} {n : Int} (hw : w.isObject = true)
    (h : x.intField tag = some n) : jsonUpdateStringEx w x tag size res = .error .nullString := by
  obtain ⟨z, hz, hn⟩ := Option.bind_eq_some_iff.mp h
  unfold jsonUpdateStringEx
  rw [hz]
  dsimp only
  rw [if_pos hw]
  cases z with
  | integer m => rfl
  | _ => cases hn

/-- The interface of a body is looked for in the entry of a target. -/
theorem interfaceOf_cases {α : Type} {root : Json} {out : α} :
    (∃ r : Reply α, interfaceOf J root tgt data out = .inl r ∧ r.ret ≠ 0 ∧ r.root = root) ∨
      ∃ (i : Nat) (newobj : Json), interfaceOf J root tgt data out = .inr (i, newobj) ∧
        findArray (root.arrayOr tagTargets) tagAlias tgt = some i ∧
        (J.loads data).bind (fun new => new.objectGet tagInterface) = some newobj := by
  unfold interfaceOf
  cases htargets : root.objectGet tagTargets with
  | none => exact Or.inl ⟨_, rfl, enoent_ne, rfl⟩
  | some targets =>
    dsimp only
    cases hfind : findArray targets tagAlias tgt with
    | none => exact Or.inl ⟨_, rfl, enoent_ne, rfl⟩
    | some i =>
      dsimp only
      cases hnew : (J.loads data).bind (fun new => new.objectGet tagInterface) with
      | none => exact Or.inl ⟨_, rfl, einval_ne, rfl⟩
      | some newobj =>
        refine Or.inr ⟨i, newobj, rfl, ?_, rfl⟩
        rw [arrayOr_of_objectGet htargets]
        exact hfind

/-- With a number as its port an interface is not stored. -/
theorem setJsonOobInterface_loadable {root : Json} {iface : OobIface} {port : String} {r : Reply OobIface} (hbody : Loadable J data)
    (h : setJsonOobInterface J root tgt data iface port = .ok r) : r.ret ≠ 0 := by
  obtain ⟨new, newobj, address, portNum, hnew, hobj, -, hport⟩ := hbody
  unfold setJsonOobInterface at h
  rcases @interfaceOf_cases J tgt data _ root iface with ⟨r', heq, hret, -⟩ | ⟨i, newobj', heq, -, hnewobj⟩
  · rw [heq] at h
    obtain rfl := Except.ok.inj h
    exact hret
  · rw [heq] at h
    rw [hnew] at hnewobj
    obtain rfl := Option.some.inj (hobj.symm.trans hnewobj)
    obtain ⟨⟨iter, text⟩, hiter, h⟩ := bind_eq_ok h
    have hiterobj : iter.isObject = true := by
      rw [isObject_jsonUpdateStringEx hiter, isObject_jsonUpdateString]
      rfl
    dsimp only at h
    rw [jsonUpdateStringEx_of_intField hiterobj hport] at h
    cases h

/-- What is stored is not what is loaded. -/
theorem setJsonOobInterface_entry {root : Json} {iface : OobIface} {port : String} {r : Reply OobIface}
    (h : setJsonOobInterface J root tgt data iface port = .ok r) (hi : findArray (root.arrayOr tagTargets) tagAlias tgt = some i) :
    (arrayGet (r.root.arrayOr tagTargets) i).objectGet tagInterface = (arrayGet (root.arrayOr tagTargets) i).objectGet tagInterface := by
  unfold setJsonOobInterface at h
  rcases @interfaceOf_cases J tgt data _ root iface with ⟨r', heq, -, hroot⟩ | ⟨i', newobj, heq, hi', -⟩
  · rw [heq] at h
    obtain rfl := Except.ok.inj h
    rw [hroot]
  · rw [heq] at h
    obtain rfl := Option.some.inj (hi'.symm.trans hi)
    obtain ⟨⟨iter, address⟩, -, h⟩ := bind_eq_ok h
    obtain ⟨⟨iter', text⟩, -, h⟩ := bind_eq_ok h
    obtain rfl := Except.ok.inj h
    obtain ⟨hlt, -⟩ := List.getElem?_eq_some_iff.mp (findArray_arrayOr_some hi).1
    have hentry : arrayGet ((root.putAt tagTargets i' ((arrayGet (root.arrayOr tagTargets) i').objectSet tagInterfaces iter')).arrayOr
        tagTargets) i' = (arrayGet (root.arrayOr tagTargets) i').objectSet tagInterfaces iter' := by
      apply arrayGet_arrayOr
      rw [Json.entries_putAt]
      exact List.getElem?_set_self hlt
    dsimp only
    rw [hentry]
    exact Json.objectGet_objectSet_ne (by decide) _ _

theorem setupOobTarget_congr {parent parent' : Json} (h : parent'.objectGet tagInterface = parent.objectGet tagInterface)
    (fresh : Target) : setupOobTarget parent' fresh = setupOobTarget parent fresh := by
  unfold setupOobTarget
  rw [h]

/-- The interface of an out-of-band target is the answer to the call of the store. -/
theorem setInterface_oob (hlist : findTarget d.lists tgt = some target) (hmode : target.mgmtMode = .outOfBandMgmt) {a : Answer}
    (h : setInterface J w d tgt data = .ok a) :
    ∃ r : Reply OobIface, setJsonOobInterface J d.root tgt data w.oob w.name = .ok r ∧ a.dem.root = r.root ∧
      (r.ret ≠ 0 → a.ret ≠ 0) := by
  unfold setInterface at h
  rw [hlist] at h
  dsimp only at h
  rw [hmode] at h
  obtain ⟨r, hr, ⟨hne, rfl⟩ | ⟨hzero, h⟩⟩ := afterStore_ok h
  · exact ⟨r, hr, rfl, fun _ => hne⟩
  · obtain rfl := Except.ok.inj h
    exact ⟨r, hr, rfl, fun hne => absurd hzero hne⟩

end

/-- No interface that could be loaded is stored, and what is loaded for a target is not changed by an interface that is. -/
theorem oob_interface_not_loaded (J : JsonLib) (w : World) (d : Daemon) (tgt data : String) (target : Target)
    (hlist : findTarget d.lists tgt = some target) (hmode : target.mgmtMode = .outOfBandMgmt) :
    (Loadable J data → ¬RoundTrip J w d tgt data) ∧
      ∀ (a : Answer) (i : Nat), setInterface J w d tgt data = .ok a → findArray (d.root.arrayOr tagTargets) tagAlias tgt = some i →
        ∀ fresh : Target, setupOobTarget (arrayGet (a.dem.root.arrayOr tagTargets) i) fresh =
          setupOobTarget (arrayGet (d.root.arrayOr tagTargets) i) fresh := by
  constructor
  · rintro hbody ⟨a, ha, hzero, -⟩
    obtain ⟨r, hr, -, hret⟩ := setInterface_oob hlist hmode ha
    exact hret (setJsonOobInterface_loadable hbody hr) hzero
  · intro a i ha hi fresh
    obtain ⟨r, hr, hroot, -⟩ := setInterface_oob hlist hmode ha
    refine setupOobTarget_congr ?_ fresh
    rw [hroot]
    exact setJsonOobInterface_entry hr hi

/-- A daemon with a target that is managed out of band, and has an interface. -/
def oobDaemon : Daemon where
  root := .object [(tagTargets, .array [.object [(tagAlias, .string "t"), (tagMgmtMode, .string tagOutOfBandMgmt),
    (tagInterface, .object [(tagIfaddress, .string "10.0.0.1"), (tagIfport, .integer 22345)])]])]
  lists := { targetList := [{ ptr := 1, name := "t", mgmtMode := .outOfBandMgmt, oob := { address := "10.0.0.1", port := 22345 } }] }

/-- A parser of two bodies: the same interface with a number as its port, and with a text. -/
def ifaceLib : JsonLib := .ofTexts [
  ("number", .object [(tagInterface, .object [(tagIfaddress, .string "10.0.0.2"), (tagIfport, .integer 22346)])]),
  ("text", .object [(tagInterface, .object [(tagIfaddress, .string "10.0.0.2"), (tagIfport, .string "22346")])])]

/-- The number ends the daemon. The text is stored, and what is loaded is the interface from before. -/
theorem number_not_stored :
    (Loadable ifaceLib "number" ∧ setInterface ifaceLib {} oobDaemon "t" "number" = .error .nullString ∧
      ¬RoundTrip ifaceLib {} oobDaemon "t" "number") ∧
    ∃ a : Answer, setInterface ifaceLib {} oobDaemon "t" "text" = .ok a ∧ a.ret = 0 ∧ ¬LoadsBack a.dem "t" := by
  have hnumber : setInterface ifaceLib {} oobDaemon "t" "number" = .error .nullString := rfl
  refine ⟨⟨⟨_, _, "10.0.0.2", 22346, rfl, rfl, rfl, rfl⟩, hnumber, ?_⟩, _, rfl, rfl, ?_⟩
  · rintro ⟨a, ha, -⟩
    rw [hnumber] at ha
    cases ha
  rintro ⟨target, i, htarget, hi, hloads⟩
  obtain ⟨loaded, hloaded, hoob⟩ := hloads { ptr := 1, name := "t" }
  obtain rfl := Option.some.inj htarget
  obtain rfl := Option.some.inj hi
  obtain rfl := (Prod.mk.inj (Except.ok.inj hloaded)).2
  exact absurd hoob (by decide)

theorem oobDaemon_not_loaded : ¬RoundTrip ifaceLib {} oobDaemon "t" "number" :=
  (oob_interface_not_loaded ifaceLib {} oobDaemon "t" "number" _ rfl rfl).1 ⟨_, _, "10.0.0.2", 22346, rfl, rfl, rfl, rfl⟩

end NvmeDem
