import NvmeDem.Lemmas.Targets

/-!
# What a body asks for

An update of a host or of a target that is in the store reads a few fields of its body: the alias, and the fields that the entry is given.
What it does is a function of these (`updateJsonHost_eq`, `updateJsonTarget_eq`): two bodies that ask for the same do the same.
-/

namespace NvmeDem

open Jansson

/-! ## Fields -/

/-- A text of a body, if the body has one. -/
def textField (size : Nat) (tag : String) (new : Json) : Except Fault (Option String) :=
  match new.objectGet tag with
  | none => .ok none
  | some value => (strcpy size value.stringValue).map some

def numberField (tag : String) (new : Json) : Option Int := (new.objectGet tag).map Json.integerValue

/-- An object and the caller's buffer after a text was given, or was not. -/
def setText (w : Json) (tag res : String) : Option String → Json × String
  | none => (w, res)
  | some s => (jsonSetString w tag s, s)

def setNumber (w : Json) (tag : String) (res : Int) : Option Int → Json × Int
  | none => (w, res)
  | some n => (jsonSetInt w tag n, cInt n)

section

variable {w x : Json} {tag res : String} {size : Nat}

theorem jsonUpdateStringEx_eq (hw : w.isObject = true) :
    jsonUpdateStringEx w x tag size res = (textField size tag x).map (setText w tag res) := by
  unfold jsonUpdateStringEx textField
  cases x.objectGet tag with
  | none => rfl
  | some z =>
    dsimp only
    rw [if_pos hw]
    cases strcpy size z.stringValue <;> rfl

theorem jsonUpdateIntEx_eq (hw : w.isObject = true) (n : Int) :
    jsonUpdateIntEx w x tag n = setNumber w tag n (numberField tag x) := by
  unfold jsonUpdateIntEx numberField
  cases x.objectGet tag with
  | none => rfl
  | some z =>
    dsimp only
    rw [if_pos hw]
    rfl

@[simp] theorem isObject_setText (s : Option String) : (setText w tag res s).1.isObject = w.isObject := by
  cases s with
  | none => rfl
  | some s => exact isObject_jsonSetString w tag s

@[simp] theorem isObject_setNumber (n : Int) (m : Option Int) : (setNumber w tag n m).1.isObject = w.isObject := by
  cases m with
  | none => rfl
  | some m => exact isObject_jsonSetInt w tag m

theorem objectGet_setText_ne {k : String} (h : k ≠ tag) (s : Option String) :
    (setText w tag res s).1.objectGet k = w.objectGet k := by
  cases s with
  | none => rfl
  | some s => exact objectGet_jsonSetString_ne h w s

theorem objectGet_setNumber_ne {k : String} (h : k ≠ tag) (n : Int) (m : Option Int) :
    (setNumber w tag n m).1.objectGet k = w.objectGet k := by
  cases m with
  | none => rfl
  | some m => exact objectGet_jsonSetInt_ne h w m

/-- A text is read back from an object that had none. -/
theorem strField_setText (hw : w.isObject = true) (h : w.objectGet tag = none) (s : Option String) :
    (setText w tag res s).1.strField tag = s := by
  cases s with
  | none => exact congrArg (fun o => Option.bind o Json.stringValue) h
  | some s => exact strField_jsonSetString_self hw (Or.inr h)

theorem intField_setNumber (hw : w.isObject = true) (h : w.objectGet tag = none) (n : Int) (m : Option Int) :
    (setNumber w tag n m).1.intField tag = m := by
  cases m with
  | none => exact congrArg (fun o => Option.bind o Json.integer?) h
  | some m => exact intField_jsonSetInt_self hw (Or.inr h)

end

/-! ## Wishes -/

/-- What a body asks for: another alias, and what it gives in its other fields. -/
structure Wish (β : Type) where
  rename : Option String
  fields : Except Fault β

/-- The alias that a body gives an entry, which keeps its own if there is none. -/
def aliasIn (size : Nat) (name : String) (new : Json) : Except Fault String :=
  match new.objectGet tagAlias with
  | some value => strcpy size value.stringValue
  | none => strcpy size (some name)

def wish {β : Type} (size : Nat) (fields : Json → Except Fault β) (name : String) (new : Json) : Wish β :=
  match aliasIn size name new with
  | .error f => { rename := none, fields := .error f }
  | .ok newalias => { rename := if newalias = name then none else some newalias, fields := fields new }

/-- What a text asks for: nothing, if it is not JSON. -/
def asks {β : Type} (J : JsonLib) (size : Nat) (fields : Json → Except Fault β) (name data : String) : Option (Wish β) :=
  if data = "" then none else (J.loads data).map (wish size fields name)

/-- What is asked for comes from a value. -/
theorem asks_some {β : Type} {J : JsonLib} {size : Nat} {fields : Json → Except Fault β} {name data : String} {u : Wish β}
    (h : asks J size fields name data = some u) : ∃ new, u = wish size fields name new := by
  unfold asks at h
  split at h
  · cases h
  · obtain ⟨new, -, hnew⟩ := Option.map_eq_some_iff.mp h
    exact ⟨new, hnew.symm⟩

theorem asks_rename {β : Type} {J : JsonLib} {size : Nat} {fields : Json → Except Fault β} {name data buf : String} {u : Wish β}
    (h : asks J size fields name data = some u) (hrename : u.rename = some buf) : buf ≠ name := by
  obtain ⟨new, rfl⟩ := asks_some h
  unfold wish at hrename
  cases hname : aliasIn size name new with
  | error f =>
    rw [hname] at hrename
    cases hrename
  | ok newalias =>
    rw [hname] at hrename
    dsimp only at hrename
    by_cases hsame : newalias = name
    · rw [if_pos hsame] at hrename
      cases hrename
    · rw [if_neg hsame] at hrename
      exact Option.some.inj hrename ▸ hsame

theorem asks_fields {β : Type} {J : JsonLib} {size : Nat} {fields : Json → Except Fault β} {name data : String} {u : Wish β} {f : β}
    (h : asks J size fields name data = some u) (hf : u.fields = .ok f) : ∃ new, fields new = .ok f := by
  obtain ⟨new, rfl⟩ := asks_some h
  unfold wish at hf
  cases hname : aliasIn size name new with
  | error e =>
    rw [hname] at hf
    cases hf
  | ok newalias =>
    rw [hname] at hf
    exact ⟨new, hf⟩

/-! ## Hosts -/

def hostFields (new : Json) : Except Fault (Option String) := textField maxNqnSize tagHostnqn new

def hostAsks (J : JsonLib) (name data : String) : Option (Wish (Option String)) := asks J maxAliasSize hostFields name data

def setHostNqn (root : Json) (name : String) (i : Nat) (out : HostOut) (nqn : Option String) : Reply HostOut :=
  let r := setText (arrayGet (root.arrayOr tagHosts) i) tagHostnqn out.nqn nqn
  { ret := 0
    resp := s!"{tagHost} '{out.newalias}' {addedOrUpdated (some name)}"
    root := root.putAt tagHosts i r.1
    out := { out with nqn := r.2 } }

/-- The update of the host at the place `i`. -/
def grantHost (root : Json) (name : String) (i : Nat) (out : HostOut) (u : Wish (Option String)) :
    Except Fault (Reply HostOut) :=
  match u.rename with
  | none => u.fields.map (setHostNqn root name i { out with newalias := name })
  | some newalias =>
    if (findArray (root.arrayOr tagHosts) tagAlias newalias).isSome then
      .ok { ret := -eexist, resp := s!"{tagHosts} '{newalias}' exists", root := root, out := { out with newalias := newalias } }
    else
      u.fields.map (setHostNqn
        (renameInGroups
          (renameInAllowedHosts
            (root.putAt tagHosts i (jsonSetString (arrayGet (root.arrayOr tagHosts) i) tagAlias newalias)) name newalias)
          tagHosts name newalias)
        name i { out with newalias := newalias })

/-- An entry that was found is an object. -/
theorem isObject_of_find {array : Json} {tag val : String} {i : Nat} (h : findArray array tag val = some i) :
    (arrayGet array i).isObject = true := Json.isObject_of_strField (findArray_some h).2

theorem jsonUpdateString_alias {w new value : Json} {newalias : String} (hw : w.isObject = true)
    (hvalue : new.objectGet tagAlias = some value) (h : value.stringValue = some newalias) :
    jsonUpdateString w new tagAlias = jsonSetString w tagAlias newalias := by
  unfold jsonUpdateString
  rw [hvalue]
  dsimp only
  rw [if_pos hw, h]

section

variable {J : JsonLib} {root x t : Json} {old newalias name data : String} {i : Nat} {out : HostOut}

/-- The entry after a renaming, which touches no other entry of its own array. -/
theorem arrayGet_renamedHosts (h : (root.entries tagHosts)[i]? = some t) :
    arrayGet ((renameInGroups (renameInAllowedHosts (root.putAt tagHosts i x) old newalias) tagHosts old newalias).arrayOr tagHosts) i
      = x := by
  obtain ⟨hlt, -⟩ := List.getElem?_eq_some_iff.mp h
  apply arrayGet_arrayOr
  rw [entries_renameInGroups_ne (by decide), entries_renameInAllowedHosts_ne (by decide), Json.entries_putAt]
  exact List.getElem?_set_self hlt

theorem updateJsonHostNqn_eq {new : Json} (hobj : (arrayGet (root.arrayOr tagHosts) i).isObject = true) :
    updateJsonHostNqn root new (some name) i out = (hostFields new).map (setHostNqn root name i out) := by
  unfold updateJsonHostNqn hostFields
  rw [jsonUpdateStringEx_eq hobj]
  cases textField maxNqnSize tagHostnqn new <;> rfl

theorem updateJsonHostBody_eq {new : Json} (hnew : J.loads data = some new)
    (h : findArray (root.arrayOr tagHosts) tagAlias name = some i) :
    updateJsonHostBody J root (some name) (some i) data out = grantHost root name i out (wish maxAliasSize hostFields name new) := by
  have hobj := isObject_of_find h
  have hentry := (findArray_arrayOr_some h).1
  unfold updateJsonHostBody grantHost wish aliasIn
  rw [hnew]
  dsimp only
  cases hvalue : new.objectGet tagAlias with
  | none =>
    dsimp only
    cases hcopy : strcpy maxAliasSize (some name) with
    | error f => rfl
    | ok newalias =>
      obtain rfl := Option.some.inj (strcpy_ok hcopy)
      simp only [if_true]
      exact updateJsonHostNqn_eq hobj
  | some value =>
    dsimp only
    cases hcopy : strcpy maxAliasSize value.stringValue with
    | error f => rfl
    | ok newalias =>
      dsimp only
      by_cases hsame : newalias = name
      · subst hsame
        simp only [looksForName, ne_eq, not_true_eq_false, decide_false, if_true]
        exact updateJsonHostNqn_eq hobj
      · have hlooks : looksForName (some name) newalias = true := decide_eq_true (Ne.symm hsame)
        rw [if_pos hlooks, if_neg hsame, jsonUpdateString_alias hobj hvalue (strcpy_ok hcopy)]
        dsimp only
        refine if_congr Iff.rfl rfl (updateJsonHostNqn_eq ?_)
        rw [arrayGet_renamedHosts hentry, isObject_jsonSetString]
        exact hobj

/-- What an update does to a host that is in the store. -/
theorem updateJsonHost_eq (h : findArray (root.arrayOr tagHosts) tagAlias name = some i) :
    updateJsonHost J root (some name) data out =
      (hostAsks J name data).elim (.ok (invalidJsonSyntax root out)) (grantHost root name i out) := by
  unfold updateJsonHost hostAsks asks
  by_cases hdata : data = ""
  · rw [if_pos hdata, if_pos hdata]
    rfl
  · rw [if_neg hdata, if_neg hdata, Json.ensureArray_of_entries (findArray_arrayOr_some h).1]
    dsimp only
    rw [h]
    dsimp only
    cases hnew : J.loads data with
    | none =>
      unfold updateJsonHostBody
      rw [hnew]
      rfl
    | some new => exact updateJsonHostBody_eq hnew h

end

/-! ## Targets -/

/-- What the interface of a body gives; an out-of-band interface has no type. -/
structure IfaceWish where
  type : Option String
  family : Option String
  address : Option String
  port : Option Int

def oobWish (newobj : Json) : Except Fault IfaceWish := do
  let family ← textField configAddressSize tagIffamily newobj
  let address ← textField configAddressSize tagIfaddress newobj
  return { type := none, family := family, address := address, port := numberField tagIfport newobj }

def inbWish (newobj : Json) : Except Fault IfaceWish := do
  let type ← textField configTypeSize tagType newobj
  let family ← textField configFamilySize tagFamily newobj
  let address ← textField configAddressSize tagAddress newobj
  return { type := type, family := family, address := address, port := numberField tagTrsvcid newobj }

/-- The interface is read for a target that is managed out of band or in band. -/
def ifaceWish (mode : MgmtMode) (new : Json) : Option (Except Fault IfaceWish) :=
  match mode with
  | .localMgmt => none
  | .outOfBandMgmt => (new.objectGet tagInterface).map oobWish
  | .inBandMgmt => (new.objectGet tagInterface).map inbWish

structure TargetWish where
  refresh : Option Int
  mode : Option String
  iface : Option (Except Fault IfaceWish)

def targetFields (new : Json) : Except Fault TargetWish := do
  let mode ← textField maxString tagMgmtMode new
  return { refresh := numberField tagRefresh new, mode := mode, iface := ifaceWish (getMgmtMode (mode.getD "")) new }

def targetAsks (J : JsonLib) (name data : String) : Option (Wish TargetWish) := asks J maxString targetFields name data

def setOob (obj : Json) (oob : OobIface) (u : IfaceWish) : Json × OobIface :=
  let obj := (((obj.objectDel tagType).objectDel tagFamily).objectDel tagAddress).objectDel tagTrsvcid
  let family := setText obj tagIffamily oob.address u.family
  let address := setText family.1 tagIfaddress family.2 u.address
  let port := setNumber address.1 tagIfport oob.port u.port
  (port.1, { address := address.2, port := port.2 })

def setInb (obj : Json) (inb : PortArg) (u : IfaceWish) : Json × PortArg :=
  let obj := ((obj.objectDel tagIffamily).objectDel tagIfaddress).objectDel tagIfport
  let type := setText obj tagType inb.type u.type
  let family := setText type.1 tagFamily inb.family u.family
  let address := setText family.1 tagAddress inb.address u.address
  let port := setNumber address.1 tagTrsvcid inb.portNum u.port
  (port.1, { inb with type := type.2, family := family.2, address := address.2, portNum := port.2 })

/-- An interface is set if what is there is an object. -/
def setIface (iter : Json) (target : TargetArg) (iface : Option (Except Fault IfaceWish)) : Except Fault (Json × TargetArg) :=
  let obj := (iter.objectGet tagInterface).getD (.object [])
  match target.mgmtMode, iface with
  | .localMgmt, _ => .ok (iter.objectDel tagInterface, target)
  | _, none => .ok (iter, target)
  | .outOfBandMgmt, some u =>
    if obj.isObject then
      u.map (fun u => (iter.objectSet tagInterface (setOob obj target.oob u).1, { target with oob := (setOob obj target.oob u).2 }))
    else .ok (iter, target)
  | .inBandMgmt, some u =>
    if obj.isObject then
      u.map (fun u => (iter.objectSet tagInterface (setInb obj target.inb u).1, { target with inb := (setInb obj target.inb u).2 }))
    else .ok (iter, target)

def setTargetFields (iter : Json) (target : TargetArg) (u : TargetWish) : Except Fault (Json × TargetArg) :=
  let refresh := setNumber iter tagRefresh target.refresh u.refresh
  let mode := setText refresh.1 tagMgmtMode "" u.mode
  setIface mode.1 { target with refresh := refresh.2, mgmtMode := getMgmtMode (u.mode.getD "") } u.iface

def setTarget (root : Json) (name : String) (i : Nat) (buf : String) (target : TargetArg) (u : TargetWish) :
    Except Fault (Reply TargetArg) :=
  (setTargetFields (arrayGet (root.arrayOr tagTargets) i) { target with name := cCut maxAliasSize buf } u).map (fun r =>
    { ret := 0
      resp := s!"{tagTarget} '{buf}' {addedOrUpdated (some name)}"
      root := root.putAt tagTargets i r.1
      out := r.2 })

/-- The update of the target at the place `i`. -/
def grantTarget (root : Json) (name : String) (i : Nat) (target : TargetArg) (u : Wish TargetWish) :
    Except Fault (Reply TargetArg) :=
  match u.rename with
  | none => u.fields.bind (setTarget root name i name target)
  | some buf =>
    if (findArray (root.arrayOr tagTargets) tagAlias buf).isSome then
      .ok { ret := -eexist, resp := s!"{tagTarget} '{buf}' exists", root := root, out := target }
    else
      u.fields.bind (setTarget
        (renameInGroups (root.putAt tagTargets i (jsonSetString (arrayGet (root.arrayOr tagTargets) i) tagAlias buf))
          tagTargets name buf)
        name i buf target)

theorem setText_snd (w : Json) (tag res : String) (s : Option String) : (setText w tag res s).2 = s.getD res := by
  cases s <;> rfl

section

variable {obj newobj iter new : Json} {target : TargetArg}

theorem updateOobInterface_eq (hobj : obj.isObject = true) (oob : OobIface) :
    updateOobInterface obj newobj oob = (oobWish newobj).map (setOob obj oob) := by
  unfold updateOobInterface oobWish setOob
  dsimp only
  rw [jsonUpdateStringEx_eq (by simpa using hobj)]
  cases textField configAddressSize tagIffamily newobj with
  | error f => rfl
  | ok family =>
    simp only [Except.map, bind, Except.bind]
    rw [jsonUpdateStringEx_eq (by simpa using hobj)]
    cases textField configAddressSize tagIfaddress newobj with
    | error f => rfl
    | ok address =>
      simp only [Except.map, pure, Except.pure]
      rw [jsonUpdateIntEx_eq (by simpa using hobj)]

theorem updateInbInterface_eq (hobj : obj.isObject = true) (inb : PortArg) :
    updateInbInterface obj newobj inb = (inbWish newobj).map (setInb obj inb) := by
  unfold updateInbInterface inbWish setInb
  dsimp only
  rw [jsonUpdateStringEx_eq (by simpa using hobj)]
  cases textField configTypeSize tagType newobj with
  | error f => rfl
  | ok type =>
    simp only [Except.map, bind, Except.bind]
    rw [jsonUpdateStringEx_eq (by simpa using hobj)]
    cases textField configFamilySize tagFamily newobj with
    | error f => rfl
    | ok family =>
      simp only [Except.map]
      rw [jsonUpdateStringEx_eq (by simpa using hobj)]
      cases textField configAddressSize tagAddress newobj with
      | error f => rfl
      | ok address =>
        simp only [Except.map, pure, Except.pure]
        rw [jsonUpdateIntEx_eq (by simpa using hobj)]

/-! What is not an object stays as it is, and nothing is copied. -/

theorem objectDel_of_not_isObject (hobj : obj.isObject = false) (tag : String) : obj.objectDel tag = obj := by
  cases obj with
  | object fs => cases hobj
  | _ => rfl

theorem jsonUpdateStringEx_of_not_isObject (hobj : obj.isObject = false) (tag res : String) (size : Nat) :
    jsonUpdateStringEx obj newobj tag size res = .ok (obj, res) := by
  unfold jsonUpdateStringEx
  cases newobj.objectGet tag with
  | none => rfl
  | some z => simp [hobj]

theorem jsonUpdateIntEx_of_not_isObject (hobj : obj.isObject = false) (tag : String) (n : Int) :
    jsonUpdateIntEx obj newobj tag n = (obj, n) := by
  unfold jsonUpdateIntEx
  cases newobj.objectGet tag with
  | none => rfl
  | some z => simp [hobj]

theorem updateOobInterface_of_not_isObject (hobj : obj.isObject = false) (oob : OobIface) :
    updateOobInterface obj newobj oob = .ok (obj, oob) := by
  simp [updateOobInterface, objectDel_of_not_isObject hobj, jsonUpdateStringEx_of_not_isObject hobj,
    jsonUpdateIntEx_of_not_isObject hobj, bind, Except.bind, pure, Except.pure]

theorem updateInbInterface_of_not_isObject (hobj : obj.isObject = false) (inb : PortArg) :
    updateInbInterface obj newobj inb = .ok (obj, inb) := by
  simp [updateInbInterface, objectDel_of_not_isObject hobj, jsonUpdateStringEx_of_not_isObject hobj,
    jsonUpdateIntEx_of_not_isObject hobj, bind, Except.bind, pure, Except.pure]

/-- What is there and is not an object is put back. -/
theorem objectSet_interface (h : ((iter.objectGet tagInterface).getD (.object [])).isObject = false) :
    iter.objectSet tagInterface ((iter.objectGet tagInterface).getD (.object [])) = iter := by
  cases hget : iter.objectGet tagInterface with
  | none =>
    rw [hget] at h
    cases h
  | some obj => exact Json.objectSet_objectGet hget

theorem updateInterface_eq : updateInterface iter new target = setIface iter target (ifaceWish target.mgmtMode new) := by
  obtain ⟨name, refresh, mgmtMode, oob, inb⟩ := target
  unfold updateInterface setIface ifaceWish
  cases mgmtMode with
  | localMgmt => rfl
  | outOfBandMgmt =>
    cases new.objectGet tagInterface with
    | none => rfl
    | some newobj =>
      dsimp only [Option.map]
      cases hobj : ((iter.objectGet tagInterface).getD (.object [])).isObject with
      | true =>
        rw [updateOobInterface_eq hobj, if_pos rfl]
        cases oobWish newobj <;> rfl
      | false =>
        rw [updateOobInterface_of_not_isObject hobj, if_neg Bool.false_ne_true, Except.map, objectSet_interface hobj]
  | inBandMgmt =>
    cases new.objectGet tagInterface with
    | none => rfl
    | some newobj =>
      dsimp only [Option.map]
      cases hobj : ((iter.objectGet tagInterface).getD (.object [])).isObject with
      | true =>
        rw [updateInbInterface_eq hobj, if_pos rfl]
        cases inbWish newobj <;> rfl
      | false =>
        rw [updateInbInterface_of_not_isObject hobj, if_neg Bool.false_ne_true, Except.map, objectSet_interface hobj]

theorem updateTargetFields_eq (hobj : iter.isObject = true) :
    updateTargetFields iter new target = (targetFields new).bind (setTargetFields iter target) := by
  unfold updateTargetFields targetFields setTargetFields
  rw [jsonUpdateIntEx_eq hobj]
  dsimp only
  rw [jsonUpdateStringEx_eq (by simpa using hobj)]
  cases textField maxString tagMgmtMode new with
  | error f => rfl
  | ok mode =>
    simp only [Except.map, bind, Except.bind, pure, Except.pure]
    rw [updateInterface_eq, setText_snd]

end

section

variable {J : JsonLib} {root x t : Json} {newalias name data buf : String} {i : Nat} {target : TargetArg}

theorem arrayGet_renamedTargets (h : (root.entries tagTargets)[i]? = some t) :
    arrayGet ((renameInGroups (root.putAt tagTargets i x) tagTargets name buf).arrayOr tagTargets) i = x := by
  obtain ⟨hlt, -⟩ := List.getElem?_eq_some_iff.mp h
  apply arrayGet_arrayOr
  rw [entries_renameInGroups_ne (by decide), Json.entries_putAt]
  exact List.getElem?_set_self hlt

theorem updateJsonTargetFields_eq {new : Json} (hobj : (arrayGet (root.arrayOr tagTargets) i).isObject = true) :
    updateJsonTargetFields root new (some name) i buf target = (targetFields new).bind (setTarget root name i buf target) := by
  unfold updateJsonTargetFields setTarget
  rw [updateTargetFields_eq hobj]
  cases targetFields new with
  | error f => rfl
  | ok u =>
    simp only [Except.bind]
    cases setTargetFields (arrayGet (root.arrayOr tagTargets) i) { target with name := cCut maxAliasSize buf } u <;> rfl

theorem updateJsonTargetBody_eq {new : Json} (hnew : J.loads data = some new)
    (h : findArray (root.arrayOr tagTargets) tagAlias name = some i) :
    updateJsonTargetBody J root (some name) (some i) data target =
      grantTarget root name i target (wish maxString targetFields name new) := by
  have hobj := isObject_of_find h
  have hentry := (findArray_arrayOr_some h).1
  unfold updateJsonTargetBody grantTarget wish aliasIn
  rw [hnew]
  dsimp only
  cases hvalue : new.objectGet tagAlias with
  | none =>
    dsimp only
    cases hcopy : strcpy maxString (some name) with
    | error f => rfl
    | ok newalias =>
      obtain rfl := Option.some.inj (strcpy_ok hcopy)
      simp only [if_true]
      exact updateJsonTargetFields_eq hobj
  | some value =>
    dsimp only
    cases hcopy : strcpy maxString value.stringValue with
    | error f => rfl
    | ok newalias =>
      dsimp only
      by_cases hsame : newalias = name
      · subst hsame
        simp only [looksForName, ne_eq, not_true_eq_false, decide_false, if_true]
        exact updateJsonTargetFields_eq hobj
      · have hlooks : looksForName (some name) newalias = true := decide_eq_true (Ne.symm hsame)
        rw [if_pos hlooks, if_neg hsame, jsonUpdateString_alias hobj hvalue (strcpy_ok hcopy)]
        dsimp only
        refine if_congr Iff.rfl rfl (updateJsonTargetFields_eq ?_)
        rw [arrayGet_renamedTargets hentry, isObject_jsonSetString]
        exact hobj

/-- What an update does to a target that is in the store. -/
theorem updateJsonTarget_eq (h : findArray (root.arrayOr tagTargets) tagAlias name = some i) :
    updateJsonTarget J root (some name) data target =
      (targetAsks J name data).elim (.ok (invalidJsonSyntax root target)) (grantTarget root name i target) := by
  unfold updateJsonTarget targetAsks asks
  by_cases hdata : data = ""
  · rw [if_pos hdata, if_pos hdata]
    rfl
  · rw [if_neg hdata, if_neg hdata, Json.ensureArray_of_entries (findArray_arrayOr_some h).1]
    dsimp only
    rw [h]
    dsimp only
    cases hnew : J.loads data with
    | none =>
      unfold updateJsonTargetBody
      rw [hnew]
      rfl
    | some new => exact updateJsonTargetBody_eq hnew h

end

/-! ## What an update leaves is read back -/

section

variable {w : Json} {k tag res : String}

theorem strField_setText_ne (h : k ≠ tag) (s : Option String) : (setText w tag res s).1.strField k = w.strField k :=
  congrArg (fun o => Option.bind o Json.stringValue) (objectGet_setText_ne h s)

theorem strField_setNumber_ne (h : k ≠ tag) (n : Int) (m : Option Int) : (setNumber w tag n m).1.strField k = w.strField k :=
  congrArg (fun o => Option.bind o Json.stringValue) (objectGet_setNumber_ne h n m)

end

section

variable {iter t : Json} {name : String} {target : TargetArg} {u u' : Wish TargetWish} {f : TargetWish}

theorem setOob_read (oob : OobIface) (v : IfaceWish) :
    (setOob (.object []) oob v).1.strField tagIffamily = v.family ∧ (setOob (.object []) oob v).1.strField tagIfaddress = v.address ∧
      (setOob (.object []) oob v).1.intField tagIfport = v.port := by
  unfold setOob
  dsimp only
  refine ⟨?_, ?_, ?_⟩
  · rw [strField_setNumber_ne (by decide), strField_setText_ne (by decide)]
    exact strField_setText rfl rfl _
  · rw [strField_setNumber_ne (by decide)]
    exact strField_setText (by rw [isObject_setText]; rfl) (by rw [objectGet_setText_ne (by decide)]; rfl) _
  · refine intField_setNumber (by rw [isObject_setText, isObject_setText]; rfl) ?_ _ _
    rw [objectGet_setText_ne (by decide), objectGet_setText_ne (by decide)]
    rfl

theorem setInb_read (inb : PortArg) (v : IfaceWish) :
    (setInb (.object []) inb v).1.strField tagType = v.type ∧ (setInb (.object []) inb v).1.strField tagFamily = v.family ∧
      (setInb (.object []) inb v).1.strField tagAddress = v.address ∧ (setInb (.object []) inb v).1.intField tagTrsvcid = v.port := by
  unfold setInb
  dsimp only
  refine ⟨?_, ?_, ?_, ?_⟩
  · rw [strField_setNumber_ne (by decide), strField_setText_ne (by decide), strField_setText_ne (by decide)]
    exact strField_setText rfl rfl _
  · rw [strField_setNumber_ne (by decide), strField_setText_ne (by decide)]
    exact strField_setText (by rw [isObject_setText]; rfl) (by rw [objectGet_setText_ne (by decide)]; rfl) _
  · rw [strField_setNumber_ne (by decide)]
    refine strField_setText (by rw [isObject_setText, isObject_setText]; rfl) ?_ _
    rw [objectGet_setText_ne (by decide), objectGet_setText_ne (by decide)]
    rfl
  · refine intField_setNumber (by rw [isObject_setText, isObject_setText, isObject_setText]; rfl) ?_ _ _
    rw [objectGet_setText_ne (by decide), objectGet_setText_ne (by decide), objectGet_setText_ne (by decide)]
    rfl

/-- What can be asked of an interface: nothing for a local target, and no type out of band. -/
structure ProperWish (f : TargetWish) : Prop where
  localMgmt : getMgmtMode (f.mode.getD "") = .localMgmt → f.iface = none
  type : getMgmtMode (f.mode.getD "") = .outOfBandMgmt → ∀ v, f.iface = some (.ok v) → v.type = none

theorem type_oobWish {newobj : Json} {v : IfaceWish} (h : oobWish newobj = .ok v) : v.type = none := by
  unfold oobWish at h
  obtain ⟨family, -, h⟩ := bind_eq_ok h
  obtain ⟨address, -, h⟩ := bind_eq_ok h
  rw [← Except.ok.inj h]

theorem targetFields_proper {new : Json} (h : targetFields new = .ok f) : ProperWish f := by
  unfold targetFields at h
  obtain ⟨mode, -, h⟩ := bind_eq_ok h
  obtain rfl := Except.ok.inj h
  refine ⟨fun hmode => ?_, fun hmode v hv => ?_⟩
  · dsimp only at hmode ⊢
    rw [hmode]
    rfl
  · dsimp only at hmode hv
    rw [hmode] at hv
    obtain ⟨newobj, -, hv⟩ := Option.map_eq_some_iff.mp hv
    exact type_oobWish hv

theorem setObject_ok {isObject : Prop} [Decidable isObject] {v : Except Fault IfaceWish} {obj : IfaceWish → Json}
    {record : IfaceWish → TargetArg} {r : Json × TargetArg}
    (h : (if isObject then v.map (fun x => (iter.objectSet tagInterface (obj x), record x)) else .ok (iter, target)) = .ok r)
    (hrecord : ∀ x, (record x).mgmtMode = target.mgmtMode) :
    (∀ k, k ≠ tagInterface → r.1.objectGet k = iter.objectGet k) ∧ r.2.mgmtMode = target.mgmtMode := by
  split at h
  · obtain ⟨x, -, hx⟩ := map_eq_ok h
    obtain rfl := hx
    exact ⟨fun k hk => Json.objectGet_objectSet_ne hk _ _, hrecord x⟩
  · obtain rfl := Except.ok.inj h
    exact ⟨fun k _ => rfl, rfl⟩

/-- An interface is set, and nothing else is. -/
theorem setIface_ok {iface : Option (Except Fault IfaceWish)} {r : Json × TargetArg} (h : setIface iter target iface = .ok r) :
    (∀ k, k ≠ tagInterface → r.1.objectGet k = iter.objectGet k) ∧ r.2.mgmtMode = target.mgmtMode := by
  unfold setIface at h
  split at h
  · obtain rfl := Except.ok.inj h
    exact ⟨fun k hk => Json.objectGet_objectDel_ne hk _, rfl⟩
  · obtain rfl := Except.ok.inj h
    exact ⟨fun k _ => rfl, rfl⟩
  · dsimp only at h
    exact setObject_ok h (fun _ => rfl)
  · dsimp only at h
    exact setObject_ok h (fun _ => rfl)

/-- Nothing goes wrong over an interface that is not an object. -/
theorem setIface_null (h : iter.objectGet tagInterface = some .null) (iface : Option (Except Fault IfaceWish)) :
    ∃ r : Json × TargetArg, setIface iter target iface = .ok r := by
  unfold setIface
  rw [h]
  cases target.mgmtMode with
  | localMgmt => exact ⟨_, rfl⟩
  | outOfBandMgmt => cases iface <;> exact ⟨_, rfl⟩
  | inBandMgmt => cases iface <;> exact ⟨_, rfl⟩

/-- An entry without an interface after one was asked for. -/
def withIface (iter : Json) (obj : IfaceWish → Json) : Option (Except Fault IfaceWish) → Except Fault Json
  | none => .ok iter
  | some v => v.map (fun v => iter.objectSet tagInterface (obj v))

theorem withIface_injective {obj : IfaceWish → Json} {v v' : Option (Except Fault IfaceWish)} (hobj : iter.isObject = true)
    (hnone : iter.objectGet tagInterface = none)
    (hinj : ∀ x x', v = some (.ok x) → v' = some (.ok x') → obj x = obj x' → x = x')
    (h : withIface iter obj v = withIface iter obj v') : v = v' := by
  have hset : ∀ x, iter.objectSet tagInterface (obj x) ≠ iter := by
    intro x heq
    have hget := congrArg (fun j => j.objectGet tagInterface) heq
    rw [Json.objectGet_objectSet_self hobj, hnone] at hget
    cases hget
  rcases v with _ | f | x <;> rcases v' with _ | f' | x'
  · rfl
  · cases h
  · exact absurd (Except.ok.inj h).symm (hset x')
  · cases h
  · rw [Except.error.inj h]
  · cases h
  · exact absurd (Except.ok.inj h) (hset x)
  · cases h
  · have hget := congrArg (fun j => j.objectGet tagInterface) (Except.ok.inj h)
    rw [Json.objectGet_objectSet_self hobj, Json.objectGet_objectSet_self hobj] at hget
    rw [hinj x x' rfl rfl (Option.some.inj hget)]

theorem setIface_map {oob : OobIface} {inb : PortArg} {refresh : Int} {name : String} (hnone : iter.objectGet tagInterface = none)
    (v : Option (Except Fault IfaceWish)) :
    (setIface iter { name := name, refresh := refresh, mgmtMode := .outOfBandMgmt, oob := oob, inb := inb } v).map Prod.fst =
        withIface iter (fun x => (setOob (.object []) oob x).1) v ∧
      (setIface iter { name := name, refresh := refresh, mgmtMode := .inBandMgmt, oob := oob, inb := inb } v).map Prod.fst =
        withIface iter (fun x => (setInb (.object []) inb x).1) v := by
  unfold setIface
  rw [hnone]
  rcases v with _ | f | x
  · exact ⟨rfl, rfl⟩
  · exact ⟨rfl, rfl⟩
  · exact ⟨rfl, rfl⟩

/-- The interface that was asked for is read back from an entry that had none. -/
theorem setIface_injective {v v' : Option (Except Fault IfaceWish)} (hobj : iter.isObject = true)
    (hnone : iter.objectGet tagInterface = none) (hlocal : target.mgmtMode = .localMgmt → v = none ∧ v' = none)
    (htype : target.mgmtMode = .outOfBandMgmt → ∀ x, v = some (.ok x) ∨ v' = some (.ok x) → x.type = none)
    (h : (setIface iter target v).map Prod.fst = (setIface iter target v').map Prod.fst) : v = v' := by
  obtain ⟨name, refresh, mgmtMode, oob, inb⟩ := target
  cases mgmtMode with
  | localMgmt => rw [(hlocal rfl).1, (hlocal rfl).2]
  | outOfBandMgmt =>
    rw [(setIface_map hnone v).1, (setIface_map hnone v').1] at h
    refine withIface_injective hobj hnone (fun x x' hx hx' heq => ?_) h
    obtain ⟨hfamily, haddress, hport⟩ := setOob_read oob x
    obtain ⟨hfamily', haddress', hport'⟩ := setOob_read oob x'
    have hnone := htype rfl x (Or.inl hx)
    have hnone' := htype rfl x' (Or.inr hx')
    obtain ⟨type, family, address, port⟩ := x
    obtain ⟨type', family', address', port'⟩ := x'
    dsimp only at heq hnone hnone' hfamily haddress hport hfamily' haddress' hport'
    rw [heq] at hfamily haddress hport
    rw [hnone, hnone', ← hfamily, ← haddress, ← hport, hfamily', haddress', hport']
  | inBandMgmt =>
    rw [(setIface_map hnone v).2, (setIface_map hnone v').2] at h
    refine withIface_injective hobj hnone (fun x x' _ _ heq => ?_) h
    obtain ⟨htype, hfamily, haddress, hport⟩ := setInb_read inb x
    obtain ⟨htype', hfamily', haddress', hport'⟩ := setInb_read inb x'
    obtain ⟨type, family, address, port⟩ := x
    obtain ⟨type', family', address', port'⟩ := x'
    dsimp only at heq htype hfamily haddress hport htype' hfamily' haddress' hport'
    rw [heq] at htype hfamily haddress hport
    rw [← htype, ← hfamily, ← haddress, ← hport, htype', hfamily', haddress', hport']

end

end NvmeDem
