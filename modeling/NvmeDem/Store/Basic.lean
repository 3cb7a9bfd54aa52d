import Mathlib.Algebra.Group.Nat.Defs
import NvmeDem.Lib.Json
import NvmeDem.Lib.Keyed

/-!
# What every store function rests on

The tags of the configuration, the results a store function can give, the array searches and the update macros of
`json.h`.

A store function of `json.c` edits the JSON root, writes a text for the client, fills the structures its caller passed in and
returns zero or a negative error number: `Reply`. It may also never return: the C code copies or compares the NULL that the
library gives for the text of a value that is not a string. Such a call is a `Fault` and has no reply.

A text is copied into buffers of fixed sizes, and one that does not fit is written past the end: that is a `Fault` as well.

Bodies are parsed by the JSON library, which is not part of the repository: `JsonLib.loads` stands for it.
-/

namespace NvmeDem

open Jansson

/-! ## Tags -/

def tagGroups : String := "Groups"
def tagGroup : String := "Group"
def tagTargets : String := "Targets"
def tagTarget : String := "Target"
def tagHosts : String := "Hosts"
def tagHost : String := "Host"
def tagAlias : String := "Alias"
def tagRefresh : String := "Refresh"
def tagType : String := "TRTYPE"
def tagFamily : String := "ADRFAM"
def tagAddress : String := "TRADDR"
def tagTrsvcid : String := "TRSVCID"
def tagPortid : String := "PORTID"
def tagPortids : String := "PortIDs"
def tagSubsystems : String := "Subsystems"
def tagSubsystem : String := "Subsystem"
def tagSubnqn : String := "SUBNQN"
def tagHostnqn : String := "HOSTNQN"
def tagAllowAny : String := "AllowAnyHost"
def tagInterface : String := "Interface"
def tagName : String := "Name"
def tagDevid : String := "DeviceID"
def tagDevnsid : String := "DeviceNSID"
def tagNsid : String := "NSID"
def tagNsids : String := "NSIDs"
def tagIffamily : String := "FAMILY"
def tagIfaddress : String := "ADDRESS"
def tagIfport : String := "PORT"
def tagMgmtMode : String := "MgmtMode"
def tagOutOfBandMgmt : String := "OutOfBandMgmt"
def tagInBandMgmt : String := "InBandMgmt"

/-! ## Results -/

/-- How a call ends that does not return. -/
inductive Fault where
  /-- A string function is given the NULL that stands for the text of a value that is not a string. -/
  | nullString
  /-- A NULL pointer is followed. -/
  | nullPointer
  /-- A pointer that was never set is followed. -/
  | wildPointer
  /-- Memory outside an array is read or written. -/
  | outOfBounds
  /-- Memory that was given back is read or written. -/
  | freed
  /-- A record that is on a linked list is linked into it once more. -/
  | relinked
  deriving DecidableEq, Repr

def enoent : Int := 2
def enomem : Int := 12
def efault : Int := 14
def eexist : Int := 17
def einval : Int := 22

/-- What a store function leaves: its return value, the text for the client, the JSON root and what it filled in for its
caller. -/
structure Reply (α : Type) where
  ret : Int
  resp : String
  root : Json
  out : α

/-- The JSON library's parser: the value of a text, or nothing when the text is not JSON. -/
structure JsonLib where
  loads : String → Option Json

/-- A parser of the texts of a table; any other text is not JSON to it. -/
def JsonLib.ofTexts (texts : List (String × Json)) : JsonLib := ⟨fun data => texts.lookup data⟩

/-! ## Sizes of the buffers, without the terminating zero -/

def maxString : Nat := 128
def maxAliasSize : Nat := 64
def maxNqnSize : Nat := 256
def configTypeSize : Nat := 8
def configFamilySize : Nat := 8
def configAddressSize : Nat := 40

/-! ## C values -/

/-- A C `int` takes the low 32 bits of a number, as a signed value. -/
def cInt (n : Int) : Int := n.bmod (2 ^ 32)

/-- `%s` of a pointer that may be NULL. -/
def cStr (s : Option String) : String := s.getD "(null)"

/-- The first characters of a string, as many as a buffer holds. -/
def cCut (n : Nat) (s : String) : String := String.ofList (s.toList.take n)

/-- Copy a text that may be NULL into a buffer. -/
def strcpy (size : Nat) : Option String → Except Fault String
  | none => .error .nullString
  | some s => if s.length ≤ size then .ok s else .error .outOfBounds

theorem strcpy_of_le {size : Nat} {s : String} (h : s.length ≤ size) : strcpy size (some s) = .ok s := by
  simp [strcpy, h]

theorem cCut_of_le {size : Nat} {s : String} (h : s.length ≤ size) : cCut size s = s := by
  have hlen : s.toList.length ≤ size := by rwa [String.length_toList]
  unfold cCut
  rw [List.take_of_length_le hlen, String.ofList_toList]

def invalidJsonSyntax {α : Type} (root : Json) (out : α) : Reply α :=
  { ret := -einval, resp := "invalid json syntax", root := root, out := out }

/-! ## Searching an array -/

/-- The first entry whose field `tag` is the string `val`. -/
def findArray (array : Json) (tag val : String) : Option Nat :=
  array.elems.findIdx? (fun iter => decide (iter.strField tag = some val))

/-- The first entry whose field `tag` is the integer `val`. -/
def findArrayInt (array : Json) (tag : String) (val : Int) : Option Nat :=
  array.elems.findIdx? (fun iter => decide (iter.intField tag = some val))

/-- The first element that is the string `val`. -/
def findArrayString (array : Json) (val : String) : Option Nat :=
  array.elems.findIdx? (fun iter => decide (iter.stringValue = some val))

/-- `findArray` with a pointer that may be NULL: the first entry that has a string under `tag` is compared with it. -/
def findArrayPtr (array : Json) (tag : String) : Option String → Except Fault (Option Nat)
  | some val => .ok (findArray array tag val)
  | none =>
    if array.elems.any (fun iter => (iter.strField tag).isSome) then .error .nullString else .ok none

/-- `findArrayString` with a pointer that may be NULL. -/
def findArrayStringPtr (array : Json) : Option String → Except Fault (Option Nat)
  | some val => .ok (findArrayString array val)
  | none => if array.elems.any (fun iter => iter.stringValue.isSome) then .error .nullString else .ok none

/-- The entry at a place of an array; a value that is no object when there is none. -/
def arrayGet (array : Json) (i : Nat) : Json := (array.elems[i]?).getD .null

/-- Whether an update looks for the name it would give: the name of a new entry unless it is empty, the name of an entry
that is there (`old`) if it changes. -/
def looksForName (old : Option String) (new : String) : Bool :=
  match old with
  | none => decide (new ≠ "")
  | some name => decide (name ≠ new)

/-- What a reply says was done: to a new entry, or to the one that the URI names. -/
def addedOrUpdated (name : Option String) : String := if name.isNone then "added" else "updated"

/-! ## The macros of `json.h` -/

/-- A string field of a new object set from a pointer that may be NULL: the library makes no string of NULL. -/
def jsonSetStringPtr (x : Json) (y : String) : Option String → Json
  | some z => x.objectSet y (.string z)
  | none => x

/-- An array field read, made if absent: the object after it, and the array unless the field is something else. -/
def jsonGetArray (x : Json) (y : String) : Json × Option Json :=
  (x.ensureArray y, ((x.ensureArray y).objectGet y).filter (fun z => z.isArray))

/-- A string field set: a field that is there and is not a string stays as it is. -/
def jsonSetString (x : Json) (y z : String) : Json :=
  match x.objectGet y with
  | some (.string _) => x.objectSet y (.string z)
  | some _ => x
  | none => x.objectSet y (.string z)

/-- An integer field set: a field that is there and is not an integer stays as it is. -/
def jsonSetInt (x : Json) (y : String) (z : Int) : Json :=
  match x.objectGet y with
  | some (.integer _) => x.objectSet y (.integer z)
  | some _ => x
  | none => x.objectSet y (.integer z)

/-- A string field of `w` set from the field of the same name of `x`, if `x` has it. -/
def jsonUpdateString (w x : Json) (y : String) : Json :=
  match x.objectGet y with
  | none => w
  | some z =>
    if w.isObject then
      match z.stringValue with
      | some s => jsonSetString w y s
      | none => w
    else w

/-- `jsonUpdateString` that also copies the text to the caller's buffer `res`. -/
def jsonUpdateStringEx (w x : Json) (y : String) (size : Nat) (res : String) : Except Fault (Json × String) :=
  match x.objectGet y with
  | none => .ok (w, res)
  | some z =>
    if w.isObject then
      match strcpy size z.stringValue with
      | .error f => .error f
      | .ok s => .ok (jsonSetString w y s, s)
    else .ok (w, res)

/-- An integer field of `w` set from the field of the same name of `x`, and copied to the caller's `int`. -/
def jsonUpdateIntEx (w x : Json) (y : String) (res : Int) : Json × Int :=
  match x.objectGet y with
  | none => (w, res)
  | some z => if w.isObject then (jsonSetInt w y z.integerValue, cInt z.integerValue) else (w, res)

/-- An entry appended to the array under a key, for a caller that goes on writing to it: when the value under the key is not an
array, the library has freed the entry. -/
def pushShared (x : Json) (y : String) (z : Json) : Except Fault Json :=
  if x.canPush y then .ok (x.pushAt y z) else .error .freed

/-! ## What the searches find -/

theorem findArray_some {array : Json} {tag val : String} {i : Nat} (h : findArray array tag val = some i) :
    array.elems[i]? = some (arrayGet array i) ∧ (arrayGet array i).strField tag = some val := by
  obtain ⟨x, hx, hp⟩ := Keyed.getElem?_of_findIdx? h
  have hg : arrayGet array i = x := by simp [arrayGet, hx]
  rw [hg]
  exact ⟨hx, of_decide_eq_true hp⟩

theorem findArray_none {array : Json} {tag val : String} (h : findArray array tag val = none) :
    val ∉ array.elems.filterMap (Json.strField tag) := by
  intro hmem
  obtain ⟨x, hx, hv⟩ := List.mem_filterMap.mp hmem
  exact of_decide_eq_false (List.findIdx?_eq_none_iff.mp h x hx) hv

theorem findArrayInt_some {array : Json} {tag : String} {val : Int} {i : Nat}
    (h : findArrayInt array tag val = some i) :
    array.elems[i]? = some (arrayGet array i) ∧ (arrayGet array i).intField tag = some val := by
  obtain ⟨x, hx, hp⟩ := Keyed.getElem?_of_findIdx? h
  have hg : arrayGet array i = x := by simp [arrayGet, hx]
  rw [hg]
  exact ⟨hx, of_decide_eq_true hp⟩

theorem findArrayInt_none {array : Json} {tag : String} {val : Int} (h : findArrayInt array tag val = none) :
    val ∉ array.elems.filterMap (Json.intField tag) := by
  intro hmem
  obtain ⟨x, hx, hv⟩ := List.mem_filterMap.mp hmem
  exact of_decide_eq_false (List.findIdx?_eq_none_iff.mp h x hx) hv

theorem findArrayString_some {array : Json} {val : String} {i : Nat} (h : findArrayString array val = some i) :
    array.elems[i]? = some (.string val) := by
  obtain ⟨x, hx, hp⟩ := Keyed.getElem?_of_findIdx? h
  have hv := of_decide_eq_true hp
  cases x with
  | string s =>
    simp only [Json.stringValue, Option.some.injEq] at hv
    rw [hx, hv]
  | _ => simp [Json.stringValue] at hv

theorem findArrayString_none {array : Json} {val : String} (h : findArrayString array val = none) :
    val ∉ array.elems.filterMap Json.stringValue := by
  intro hmem
  obtain ⟨x, hx, hv⟩ := List.mem_filterMap.mp hmem
  exact of_decide_eq_false (List.findIdx?_eq_none_iff.mp h x hx) hv

/-- A search that returns from a NULL found nothing. -/
theorem findArrayPtr_ok {array : Json} {tag : String} {val : Option String} {r : Option Nat}
    (h : findArrayPtr array tag val = .ok r) :
    (∃ v, val = some v ∧ findArray array tag v = r) ∨ (val = none ∧ r = none) := by
  cases val with
  | some v => exact Or.inl ⟨v, rfl, Except.ok.inj h⟩
  | none =>
    simp only [findArrayPtr] at h
    split at h
    · cases h
    · exact Or.inr ⟨rfl, (Except.ok.inj h).symm⟩

theorem findArrayStringPtr_ok {array : Json} {val : Option String} {r : Option Nat}
    (h : findArrayStringPtr array val = .ok r) :
    (∃ v, val = some v ∧ findArrayString array v = r) ∨ (val = none ∧ r = none) := by
  cases val with
  | some v => exact Or.inl ⟨v, rfl, Except.ok.inj h⟩
  | none =>
    simp only [findArrayStringPtr] at h
    split at h
    · cases h
    · exact Or.inr ⟨rfl, (Except.ok.inj h).symm⟩

/-! ## What the macros leave -/

/-- A field that can be set to a text: it is a text, or absent. -/
def TextOrAbsent (j : Json) (k : String) : Prop := (j.strField k).isSome = true ∨ j.objectGet k = none

/-- A field that can be set to a number: it is a number, or absent. -/
def NumberOrAbsent (j : Json) (k : String) : Prop := (j.intField k).isSome = true ∨ j.objectGet k = none

theorem objectGet_jsonSetString_ne {k y : String} (h : k ≠ y) (x : Json) (z : String) :
    (jsonSetString x y z).objectGet k = x.objectGet k := by
  unfold jsonSetString
  split
  · exact Json.objectGet_objectSet_ne h x _
  · rfl
  · exact Json.objectGet_objectSet_ne h x _

theorem isObject_jsonSetString (x : Json) (y z : String) : (jsonSetString x y z).isObject = x.isObject := by
  unfold jsonSetString
  split <;> simp

/-- A string field that was a string, or absent, is set. -/
theorem strField_jsonSetString_self {x : Json} {y z : String} (hx : x.isObject = true)
    (h : TextOrAbsent x y) : (jsonSetString x y z).strField y = some z := by
  unfold jsonSetString
  split
  · simp [Json.strField, hx, Json.stringValue]
  · rename_i v hns hv
    exfalso
    rcases h with h | h
    · cases v with
      | string s => exact hns s rfl
      | _ => simp [Json.strField, hv, Json.stringValue] at h
    · rw [hv] at h
      cases h
  · simp [Json.strField, hx, Json.stringValue]

theorem objectGet_jsonSetInt_ne {k y : String} (h : k ≠ y) (x : Json) (z : Int) :
    (jsonSetInt x y z).objectGet k = x.objectGet k := by
  unfold jsonSetInt
  split
  · exact Json.objectGet_objectSet_ne h x _
  · rfl
  · exact Json.objectGet_objectSet_ne h x _

theorem isObject_jsonSetInt (x : Json) (y : String) (z : Int) : (jsonSetInt x y z).isObject = x.isObject := by
  unfold jsonSetInt
  split <;> simp

/-- An integer field that was an integer, or absent, is set. -/
theorem intField_jsonSetInt_self {x : Json} {y : String} {z : Int} (hx : x.isObject = true)
    (h : NumberOrAbsent x y) : (jsonSetInt x y z).intField y = some z := by
  unfold jsonSetInt
  split
  · simp [Json.intField, hx, Json.integer?]
  · rename_i v hni hv
    exfalso
    rcases h with h | h
    · cases v with
      | integer n => exact hni n rfl
      | _ => simp [Json.intField, hv, Json.integer?] at h
    · rw [hv] at h
      cases h
  · simp [Json.intField, hx, Json.integer?]

/-- A field that is there and is not a number stays as it is. -/
theorem jsonSetInt_of_not {x : Json} {y : String} (h : ¬NumberOrAbsent x y) (z : Int) :
    jsonSetInt x y z = x ∧ x.intField y = none := by
  obtain ⟨hint, hget⟩ := not_or.mp h
  refine ⟨?_, by simpa using hint⟩
  obtain ⟨v, hv⟩ := Option.ne_none_iff_exists'.mp hget
  unfold jsonSetInt
  rw [hv]
  cases v with
  | integer n => simp [Json.intField, hv, Json.integer?] at hint
  | _ => rfl

theorem objectGet_jsonUpdateString_ne {k y : String} (h : k ≠ y) (w x : Json) :
    (jsonUpdateString w x y).objectGet k = w.objectGet k := by
  unfold jsonUpdateString
  split
  · rfl
  · split
    · split
      · exact objectGet_jsonSetString_ne h w _
      · rfl
    · rfl

theorem isObject_jsonUpdateString (w x : Json) (y : String) : (jsonUpdateString w x y).isObject = w.isObject := by
  unfold jsonUpdateString
  split
  · rfl
  · split
    · split
      · exact isObject_jsonSetString w y _
      · rfl
    · rfl

/-- A name that is renamed from a body has the body's text. -/
theorem strField_jsonUpdateString_self {w x : Json} {y s : String} (hw : (w.strField y).isSome = true)
    (hs : x.strField y = some s) : (jsonUpdateString w x y).strField y = some s := by
  have hobj : w.isObject = true := by
    cases hg : w.objectGet y with
    | none => simp [Json.strField, hg] at hw
    | some v => exact Json.isObject_of_objectGet hg
  obtain ⟨z, hz, hzs⟩ := Option.bind_eq_some_iff.mp hs
  simp only [jsonUpdateString, hz, hobj, if_true, hzs]
  exact strField_jsonSetString_self hobj (Or.inl hw)

theorem strcpy_ok {size : Nat} {v : Option String} {s : String} (h : strcpy size v = .ok s) : v = some s := by
  cases v with
  | none => cases h
  | some t =>
    simp only [strcpy] at h
    split at h
    · rw [Except.ok.inj h]
    · cases h

/-- What `jsonUpdateStringEx` leaves when it returns: the object with the body's text, or the object as it was. -/
theorem jsonUpdateStringEx_ok {w x w' : Json} {y res res' : String} {size : Nat}
    (h : jsonUpdateStringEx w x y size res = .ok (w', res')) :
    (∃ s, x.strField y = some s ∧ w.isObject = true ∧ w' = jsonSetString w y s ∧ res' = s) ∨
      (w' = w ∧ res' = res) := by
  unfold jsonUpdateStringEx at h
  split at h
  · simp only [Except.ok.injEq, Prod.mk.injEq] at h
    exact Or.inr ⟨h.1.symm, h.2.symm⟩
  · rename_i z hz
    split at h
    · rename_i hobj
      split at h
      · cases h
      · rename_i s hs
        simp only [Except.ok.injEq, Prod.mk.injEq] at h
        exact Or.inl ⟨s, by simp [Json.strField, hz, strcpy_ok hs], hobj, h.1.symm, h.2.symm⟩
    · simp only [Except.ok.injEq, Prod.mk.injEq] at h
      exact Or.inr ⟨h.1.symm, h.2.symm⟩

/-- A text that the body has is set, and copied to the caller. -/
theorem jsonUpdateStringEx_some {w x w' : Json} {y s res res' : String} {size : Nat} (hs : x.strField y = some s)
    (hw : w.isObject = true) (h : jsonUpdateStringEx w x y size res = .ok (w', res')) :
    w' = jsonSetString w y s ∧ res' = s := by
  obtain ⟨z, hz, hzs⟩ := Option.bind_eq_some_iff.mp hs
  simp only [jsonUpdateStringEx, hz, hw, if_true, hzs] at h
  split at h
  · cases h
  · rename_i t ht
    obtain rfl := Option.some.inj (strcpy_ok ht)
    simp only [Except.ok.injEq, Prod.mk.injEq] at h
    exact ⟨h.1.symm, h.2.symm⟩

/-- A text that the body does not have is neither set nor copied. -/
theorem jsonUpdateStringEx_none {w x w' : Json} {y res res' : String} {size : Nat} (hs : x.strField y = none)
    (h : jsonUpdateStringEx w x y size res = .ok (w', res')) : w' = w ∧ res' = res := by
  rcases jsonUpdateStringEx_ok h with ⟨s, hs', -, -, -⟩ | h
  · rw [hs] at hs'
    cases hs'
  · exact h

theorem objectGet_jsonUpdateStringEx_ne {k y res res' : String} {w x w' : Json} {size : Nat} (hne : k ≠ y)
    (h : jsonUpdateStringEx w x y size res = .ok (w', res')) : w'.objectGet k = w.objectGet k := by
  rcases jsonUpdateStringEx_ok h with ⟨s, -, -, rfl, -⟩ | ⟨rfl, -⟩
  · exact objectGet_jsonSetString_ne hne w s
  · rfl

theorem isObject_jsonUpdateStringEx {y res res' : String} {w x w' : Json} {size : Nat}
    (h : jsonUpdateStringEx w x y size res = .ok (w', res')) : w'.isObject = w.isObject := by
  rcases jsonUpdateStringEx_ok h with ⟨s, -, -, rfl, -⟩ | ⟨rfl, -⟩
  · exact isObject_jsonSetString w y s
  · rfl

theorem objectGet_jsonUpdateIntEx_ne {k y : String} (h : k ≠ y) (w x : Json) (res : Int) :
    (jsonUpdateIntEx w x y res).1.objectGet k = w.objectGet k := by
  unfold jsonUpdateIntEx
  split
  · rfl
  · split
    · exact objectGet_jsonSetInt_ne h w _
    · rfl

theorem isObject_jsonUpdateIntEx (w x : Json) (y : String) (res : Int) :
    (jsonUpdateIntEx w x y res).1.isObject = w.isObject := by
  unfold jsonUpdateIntEx
  split
  · rfl
  · split
    · exact isObject_jsonSetInt w y _
    · rfl

/-- A number that the body has is set, and copied to the caller. -/
theorem jsonUpdateIntEx_some {w x z : Json} {y : String} (hz : x.objectGet y = some z) (hw : w.isObject = true)
    (hy : NumberOrAbsent w y) (res : Int) :
    (jsonUpdateIntEx w x y res).1.intField y = some z.integerValue ∧
      (jsonUpdateIntEx w x y res).2 = cInt z.integerValue := by
  simp only [jsonUpdateIntEx, hz, hw, if_true]
  exact ⟨intField_jsonSetInt_self hw hy, trivial⟩

theorem pushShared_ok {x x' z : Json} {y : String} (h : pushShared x y z = .ok x') :
    x.canPush y = true ∧ x' = x.pushAt y z := by
  unfold pushShared at h
  split at h
  · rename_i hp
    exact ⟨hp, (Except.ok.inj h).symm⟩
  · cases h

/-- A call in `Except` that returns came through every step. -/
theorem bind_eq_ok {ε α β : Type} {x : Except ε α} {f : α → Except ε β} {r : β} (h : x >>= f = .ok r) :
    ∃ a, x = .ok a ∧ f a = .ok r := by
  cases x with
  | error e => cases h
  | ok a => exact ⟨a, rfl, h⟩

theorem map_eq_ok {ε α β : Type} {x : Except ε α} {f : α → β} {r : β} (h : x.map f = .ok r) : ∃ a, x = .ok a ∧ f a = r := by
  cases x with
  | error e => cases h
  | ok a => exact ⟨a, rfl, Except.ok.inj h⟩

end NvmeDem
