import NvmeDem.Lib.Keyed
import Mathlib.Data.List.Forall2

/-!
# JSON trees as a reference-counted C library holds them

A JSON value is a tree. An object keeps its fields in the order they were first set; reading a field of anything that is
not an object gives nothing, and so does reading an element of anything that is not an array. The writers follow the same
rule: setting a field of a value that is not an object, or appending to a value that is not an array, changes nothing.

A program that walks such a tree holds pointers into it and edits what they point to. Here an edit is written as the value
that replaces the one pointed to, and put back level by level: `putAt`, `pushAt` and `removeAt` edit the array under a key,
`ensureArray` puts an empty array under a key that is absent. The lemmas say what each of them does to the entries of an
array (`entries`) and to the fields of the object around it, so that no later proof unfolds a tree.

A string is a C string: one character for each byte.
-/

namespace Jansson

/-- A JSON value. A real is kept as its text: nothing here computes with one. -/
inductive Json where
  | null
  | bool (b : Bool)
  | integer (n : Int)
  | real (text : String)
  | string (s : String)
  | array (elems : List Json)
  | object (fields : List (String × Json))

namespace Json

/-! ## Reading -/

/-- Whether a value is an object. -/
def isObject : Json → Bool
  | .object _ => true
  | _ => false

/-- Whether a value is an array. -/
def isArray : Json → Bool
  | .array _ => true
  | _ => false

/-- The field of an object under a key; nothing for any other value. -/
def objectGet : Json → String → Option Json
  | .object fs, k => fs.lookup k
  | _, _ => none

/-- The elements of an array; none for any other value. -/
def elems : Json → List Json
  | .array xs => xs
  | _ => []

/-- The text of a string; nothing for any other value. -/
def stringValue : Json → Option String
  | .string s => some s
  | _ => none

/-- The number of an integer; nothing for any other value. -/
def integer? : Json → Option Int
  | .integer n => some n
  | _ => none

/-- The number of an integer; zero for any other value. -/
def integerValue : Json → Int
  | .integer n => n
  | _ => 0

/-- The text under a key, if the field is there and is a string. -/
def strField (tag : String) (j : Json) : Option String := (j.objectGet tag).bind stringValue

/-- The number under a key, if the field is there and is an integer. -/
def intField (tag : String) (j : Json) : Option Int := (j.objectGet tag).bind integer?

/-- The entries of the array under a key: none when the field is absent or not an array. -/
def entries (j : Json) (k : String) : List Json := ((j.objectGet k).map elems).getD []

/-- The names of the entries of the array under a key: the texts under `tag`, of the entries that have one. -/
def keys (j : Json) (k tag : String) : List String := (j.entries k).filterMap (strField tag)

/-- The numbers of the entries of the array under a key: the integers under `tag`, of the entries that have one. -/
def intKeys (j : Json) (k tag : String) : List Int := (j.entries k).filterMap (intField tag)

/-- The texts in the array under a key. -/
def strings (j : Json) (k : String) : List String := (j.entries k).filterMap stringValue

/-- The array under a key, or a new empty one when the field is absent. -/
def arrayOr (j : Json) (k : String) : Json := (j.objectGet k).getD (.array [])

/-! ## Writing -/

/-- The fields of an object with one of them set: replaced in its place, or added at the end. -/
def setField (k : String) (v : Json) : List (String × Json) → List (String × Json)
  | [] => [(k, v)]
  | (k', v') :: fs => if k' = k then (k, v) :: fs else (k', v') :: setField k v fs

/-- Set a field of an object. -/
def objectSet : Json → String → Json → Json
  | .object fs, k, v => .object (setField k v fs)
  | j, _, _ => j

/-- Delete a field of an object. -/
def objectDel : Json → String → Json
  | .object fs, k => .object (fs.filter (fun f => f.1 ≠ k))
  | j, _ => j

/-- Append a value to an array. -/
def arrayAppend : Json → Json → Json
  | .array xs, x => .array (xs ++ [x])
  | j, _ => j

/-- Put a value in the place of an element of an array. -/
def arraySet : Json → Nat → Json → Json
  | .array xs, i, x => .array (xs.set i x)
  | j, _, _ => j

/-- Remove an element of an array; those after it move down. -/
def arrayRemove : Json → Nat → Json
  | .array xs, i => .array (xs.eraseIdx i)
  | j, _ => j

/-- Apply a function to every element of an array. -/
def arrayMap (f : Json → Json) : Json → Json
  | .array xs => .array (xs.map f)
  | j => j

/-- Apply a function to every element of an array and its place. -/
def arrayMapIdx (f : Nat → Json → Json) : Json → Json
  | .array xs => .array (xs.mapIdx f)
  | j => j

/-- Put an empty array under a key that is absent. -/
def ensureArray (j : Json) (k : String) : Json :=
  match j.objectGet k with
  | none => j.objectSet k (.array [])
  | some _ => j

/-- Append a value to the array under a key, which is made if absent. -/
def pushAt (j : Json) (k : String) (x : Json) : Json := j.objectSet k ((j.arrayOr k).arrayAppend x)

/-- Put a value in the place of an entry of the array under a key. -/
def putAt (j : Json) (k : String) (i : Nat) (x : Json) : Json := j.objectSet k ((j.arrayOr k).arraySet i x)

/-- Remove an entry of the array under a key. -/
def removeAt (j : Json) (k : String) (i : Nat) : Json := j.objectSet k ((j.arrayOr k).arrayRemove i)

/-- An array without the elements that fail a test. -/
def arrayFilter (p : Json → Bool) : Json → Json
  | .array xs => .array (xs.filter p)
  | j => j

/-- Apply a function to the value under a key, if the field is there. -/
def adjust (j : Json) (k : String) (f : Json → Json) : Json :=
  match j.objectGet k with
  | none => j
  | some v => j.objectSet k (f v)

/-! ## Fields after a write -/

theorem lookup_cons_of_ne {k k₀ : String} (h : k ≠ k₀) (v₀ : Json) (fs : List (String × Json)) :
    ((k₀, v₀) :: fs).lookup k = fs.lookup k := by
  rw [List.lookup_cons, beq_false_of_ne h]

theorem lookup_setField_self (k : String) (v : Json) (fs : List (String × Json)) :
    (setField k v fs).lookup k = some v := by
  induction fs with
  | nil => simp [setField]
  | cons f fs ih =>
    obtain ⟨k', v'⟩ := f
    unfold setField
    split
    · simp
    · rename_i hne
      rw [lookup_cons_of_ne (Ne.symm hne)]
      exact ih

theorem lookup_setField_ne {k k' : String} (h : k' ≠ k) (v : Json) (fs : List (String × Json)) :
    (setField k v fs).lookup k' = fs.lookup k' := by
  induction fs with
  | nil => exact lookup_cons_of_ne h v []
  | cons f fs ih =>
    obtain ⟨k₀, v₀⟩ := f
    unfold setField
    split
    · rename_i he
      subst he
      rw [lookup_cons_of_ne h, lookup_cons_of_ne h]
    · rw [List.lookup_cons, List.lookup_cons, ih]

theorem lookup_filter_ne {k k' : String} (h : k' ≠ k) (fs : List (String × Json)) :
    (fs.filter (fun f => f.1 ≠ k)).lookup k' = fs.lookup k' := by
  induction fs with
  | nil => rfl
  | cons f fs ih =>
    obtain ⟨k₀, v₀⟩ := f
    by_cases h₀ : k₀ = k
    · subst h₀
      rw [List.filter_cons_of_neg (by simp), ih, lookup_cons_of_ne h]
    · rw [List.filter_cons_of_pos (by simpa using h₀), List.lookup_cons, List.lookup_cons, ih]

/-- A field that is set is read back. -/
@[simp] theorem objectGet_objectSet_self {j : Json} (hj : j.isObject = true) (k : String) (v : Json) :
    (j.objectSet k v).objectGet k = some v := by
  cases j with
  | object fs => exact lookup_setField_self k v fs
  | _ => simp [isObject] at hj

/-- Setting a field leaves the others as they were. -/
@[simp] theorem objectGet_objectSet_ne {k k' : String} (h : k' ≠ k) (j v : Json) :
    (j.objectSet k v).objectGet k' = j.objectGet k' := by
  cases j with
  | object fs => exact lookup_setField_ne h v fs
  | _ => rfl

/-- Deleting a field leaves the others as they were. -/
@[simp] theorem objectGet_objectDel_ne {k k' : String} (h : k' ≠ k) (j : Json) :
    (j.objectDel k).objectGet k' = j.objectGet k' := by
  cases j with
  | object fs => exact lookup_filter_ne h fs
  | _ => rfl

/-- A field that is deleted is gone. -/
@[simp] theorem objectGet_objectDel_self (j : Json) (k : String) : (j.objectDel k).objectGet k = none := by
  cases j with
  | object fs =>
    show (fs.filter (fun f => f.1 ≠ k)).lookup k = none
    rw [List.lookup_eq_none_iff]
    intro p hp
    have := (List.mem_filter.mp hp).2
    simp only [ne_eq, decide_not, Bool.not_eq_eq_eq_not, Bool.not_true, decide_eq_false_iff_not] at this
    simpa using fun h => this h.symm
  | _ => rfl

/-- A value that has a field is an object. -/
theorem isObject_of_objectGet {j v : Json} {k : String} (h : j.objectGet k = some v) : j.isObject = true := by
  cases j with
  | object fs => rfl
  | _ => simp [objectGet] at h

theorem isObject_of_strField {j : Json} {tag s : String} (h : j.strField tag = some s) : j.isObject = true := by
  obtain ⟨v, hv, -⟩ := Option.bind_eq_some_iff.mp h
  exact isObject_of_objectGet hv

theorem isObject_of_intField {j : Json} {tag : String} {n : Int} (h : j.intField tag = some n) : j.isObject = true := by
  obtain ⟨v, hv, -⟩ := Option.bind_eq_some_iff.mp h
  exact isObject_of_objectGet hv

@[simp] theorem isObject_objectSet (j : Json) (k : String) (v : Json) : (j.objectSet k v).isObject = j.isObject := by
  cases j <;> rfl

@[simp] theorem isObject_objectDel (j : Json) (k : String) : (j.objectDel k).isObject = j.isObject := by
  cases j <;> rfl

/-- A value that is not an object has no fields. -/
theorem objectGet_of_not_isObject {j : Json} (h : j.isObject = false) (k : String) : j.objectGet k = none := by
  cases j with
  | object fs => simp [isObject] at h
  | _ => rfl

/-- Setting a field of a value that is not an object changes nothing. -/
theorem objectSet_of_not_isObject {j : Json} (h : j.isObject = false) (k : String) (v : Json) :
    j.objectSet k v = j := by
  cases j with
  | object fs => simp [isObject] at h
  | _ => rfl

/-- Setting a field to the value it has changes nothing. -/
theorem objectSet_objectGet {j v : Json} {k : String} (h : j.objectGet k = some v) : j.objectSet k v = j := by
  cases j with
  | object fs =>
    have hset : setField k v fs = fs := by
      induction fs with
      | nil => simp [objectGet] at h
      | cons f fs ih =>
        obtain ⟨k₀, v₀⟩ := f
        unfold setField
        simp only [objectGet] at h ih
        split
        · rename_i he
          subst he
          simp at h
          rw [h]
        · rename_i hne
          rw [lookup_cons_of_ne (Ne.symm hne)] at h
          rw [ih h]
    simp only [objectSet, hset]
  | _ => simp [objectGet] at h

theorem setField_setField (k : String) (v v' : Json) (fs : List (String × Json)) :
    setField k v' (setField k v fs) = setField k v' fs := by
  induction fs with
  | nil => simp [setField]
  | cons f fs ih =>
    obtain ⟨k₀, v₀⟩ := f
    by_cases h : k₀ = k
    · simp [setField, h]
    · simp [setField, h, ih]

/-- A field set twice has the last value. -/
theorem objectSet_objectSet (j : Json) (k : String) (v v' : Json) :
    (j.objectSet k v).objectSet k v' = j.objectSet k v' := by
  cases j with
  | object fs => simp only [objectSet, setField_setField]
  | _ => rfl

theorem strField_objectSet_ne {k tag : String} (h : tag ≠ k) (j v : Json) :
    (j.objectSet k v).strField tag = j.strField tag := by
  simp only [strField, objectGet_objectSet_ne h]

theorem entries_objectSet_ne {k k' : String} (h : k' ≠ k) (j v : Json) :
    (j.objectSet k v).entries k' = j.entries k' := by
  simp only [entries, objectGet_objectSet_ne h]

theorem strField_objectDel_ne {k tag : String} (h : tag ≠ k) (j : Json) :
    (j.objectDel k).strField tag = j.strField tag := by
  simp only [strField, objectGet_objectDel_ne h]

theorem entries_objectDel_self (j : Json) (k : String) : (j.objectDel k).entries k = [] := by
  simp [entries]

/-- The entries of a field that was set: the elements of the value, or nothing when the field could not be set. -/
theorem entries_objectSet_self (j : Json) (k : String) (v : Json) :
    (j.objectSet k v).entries k = if j.isObject = true then v.elems else [] := by
  cases hj : j.isObject with
  | true => simp [entries, hj]
  | false => simp [objectSet_of_not_isObject hj, entries, objectGet_of_not_isObject hj]

/-! ## Entries of an array after an edit -/

@[simp] theorem elems_arraySet (a : Json) (i : Nat) (x : Json) : (a.arraySet i x).elems = a.elems.set i x := by
  cases a <;> rfl

@[simp] theorem elems_arrayRemove (a : Json) (i : Nat) : (a.arrayRemove i).elems = a.elems.eraseIdx i := by
  cases a <;> rfl

@[simp] theorem elems_arrayMap (f : Json → Json) (a : Json) : (a.arrayMap f).elems = a.elems.map f := by
  cases a <;> rfl

@[simp] theorem elems_arrayMapIdx (f : Nat → Json → Json) (a : Json) : (a.arrayMapIdx f).elems = a.elems.mapIdx f := by
  cases a <;> rfl

@[simp] theorem elems_arrayFilter (p : Json → Bool) (a : Json) : (a.arrayFilter p).elems = a.elems.filter p := by
  cases a <;> rfl

/-- The entries under a key are the elements of the array that `arrayOr` gives. -/
theorem elems_arrayOr (j : Json) (k : String) : (j.arrayOr k).elems = j.entries k := by
  unfold arrayOr entries
  cases j.objectGet k <;> rfl

/-- An entry put in the place of another. -/
theorem entries_putAt (j : Json) (k : String) (i : Nat) (x : Json) :
    (j.putAt k i x).entries k = (j.entries k).set i x := by
  unfold putAt
  rw [entries_objectSet_self, elems_arraySet, elems_arrayOr]
  cases hj : j.isObject with
  | true => simp
  | false => simp [entries, objectGet_of_not_isObject hj]

/-- An entry removed. -/
theorem entries_removeAt (j : Json) (k : String) (i : Nat) :
    (j.removeAt k i).entries k = (j.entries k).eraseIdx i := by
  unfold removeAt
  rw [entries_objectSet_self, elems_arrayRemove, elems_arrayOr]
  cases hj : j.isObject with
  | true => simp
  | false => simp [entries, objectGet_of_not_isObject hj]

/-- An entry pushed stands at the end, unless the value under the key is not an array: then nothing changes. -/
theorem entries_pushAt (j : Json) (k : String) (x : Json) :
    (j.pushAt k x).entries k = j.entries k ++ [x] ∨ (j.pushAt k x).entries k = j.entries k := by
  unfold pushAt
  rw [entries_objectSet_self]
  cases hj : j.isObject with
  | false => right; simp [entries, objectGet_of_not_isObject hj]
  | true =>
    rw [if_pos rfl, ← elems_arrayOr]
    cases j.arrayOr k with
    | array xs => exact Or.inl rfl
    | _ => exact Or.inr rfl

/-- The array under a key after the key was set. -/
theorem arrayOr_objectSet {j : Json} (hj : j.isObject = true) (k : String) (v : Json) :
    (j.objectSet k v).arrayOr k = v := by
  simp [arrayOr, hj]

/-- Whether a value pushed to the array under a key can stand there: the value under the key is an array or absent. -/
def canPush (j : Json) (k : String) : Bool := j.isObject && (j.arrayOr k).isArray

theorem objectGet_of_strField {j : Json} {tag s : String} (h : strField tag j = some s) :
    j.objectGet tag = some (.string s) := by
  obtain ⟨v, hv, hs⟩ := Option.bind_eq_some_iff.mp h
  cases v with
  | string t =>
    simp only [stringValue, Option.some.injEq] at hs
    rw [hv, hs]
  | _ => simp [stringValue] at hs

theorem entries_of_not_isArray {j : Json} {k : String} (h : ¬(j.arrayOr k).isArray = true) : j.entries k = [] := by
  rw [← elems_arrayOr]
  cases hv : j.arrayOr k with
  | array xs =>
    rw [hv] at h
    exact absurd rfl h
  | _ => rfl

theorem canPush_of_entries {j x : Json} {k : String} {i : Nat} (h : (j.entries k)[i]? = some x) : j.canPush k = true := by
  cases hg : j.objectGet k with
  | none => simp [entries, hg] at h
  | some v =>
    rw [canPush, isObject_of_objectGet hg, arrayOr, hg]
    cases v with
    | array xs => rfl
    | _ => simp [entries, hg, elems] at h

theorem entries_pushAt_of_canPush {j : Json} {k : String} (h : j.canPush k = true) (x : Json) :
    (j.pushAt k x).entries k = j.entries k ++ [x] := by
  obtain ⟨hj, ha⟩ := Bool.and_eq_true_iff.mp h
  unfold pushAt
  rw [entries_objectSet_self, if_pos hj, ← elems_arrayOr]
  cases harr : j.arrayOr k with
  | array xs => rfl
  | _ => simp [harr, isArray] at ha

/-- The place of a new entry. -/
theorem getElem?_entries_pushAt {j : Json} {k : String} (h : j.canPush k = true) (x : Json) :
    ((j.pushAt k x).entries k)[(j.entries k).length]? = some x := by
  rw [entries_pushAt_of_canPush h, List.getElem?_append_right (Nat.le_refl _), Nat.sub_self]
  rfl

theorem isArray_arraySet (a : Json) (i : Nat) (x : Json) : (a.arraySet i x).isArray = a.isArray := by
  cases a <;> rfl

theorem isArray_arrayRemove (a : Json) (i : Nat) : (a.arrayRemove i).isArray = a.isArray := by
  cases a <;> rfl

theorem isArray_arrayAppend (a x : Json) : (a.arrayAppend x).isArray = a.isArray := by
  cases a <;> rfl

/-- A field set to an array, or to a value that is an array if the field was one or absent. -/
theorem canPush_objectSet {j v : Json} {k : String} (hv : v.isArray = (j.arrayOr k).isArray) (k' : String) :
    (j.objectSet k v).canPush k' = j.canPush k' := by
  unfold canPush
  cases hj : j.isObject with
  | false => simp [hj]
  | true =>
    by_cases hk : k' = k
    · subst hk
      rw [isObject_objectSet, arrayOr_objectSet hj, hv, hj]
    · rw [isObject_objectSet, arrayOr, objectGet_objectSet_ne hk, hj, arrayOr]

@[simp] theorem canPush_putAt (j : Json) (k : String) (i : Nat) (x : Json) (k' : String) :
    (j.putAt k i x).canPush k' = j.canPush k' := canPush_objectSet (isArray_arraySet ..) k'

@[simp] theorem canPush_removeAt (j : Json) (k : String) (i : Nat) (k' : String) :
    (j.removeAt k i).canPush k' = j.canPush k' := canPush_objectSet (isArray_arrayRemove ..) k'

@[simp] theorem canPush_pushAt (j : Json) (k : String) (x : Json) (k' : String) :
    (j.pushAt k x).canPush k' = j.canPush k' := canPush_objectSet (isArray_arrayAppend ..) k'

theorem canPush_adjust {f : Json → Json} (hf : ∀ v, (f v).isArray = v.isArray) (j : Json) (k k' : String) :
    (j.adjust k f).canPush k' = j.canPush k' := by
  unfold adjust
  split
  · rfl
  · rename_i v hv
    exact canPush_objectSet (by rw [hf, arrayOr, hv, Option.getD_some]) k'

theorem canPush_adjust_ne {k k' : String} (h : k' ≠ k) (j : Json) (f : Json → Json) :
    (j.adjust k f).canPush k' = j.canPush k' := by
  unfold adjust
  split
  · rfl
  · rw [canPush, isObject_objectSet, arrayOr, objectGet_objectSet_ne h]
    rfl

/-- An entry pushed and then replaced in its place is the other entry pushed. -/
theorem putAt_pushAt {j : Json} {k : String} (h : j.canPush k = true) (x x' : Json) :
    (j.pushAt k x).putAt k (j.entries k).length x' = j.pushAt k x' := by
  obtain ⟨hj, ha⟩ := Bool.and_eq_true_iff.mp h
  have hor : (j.pushAt k x).arrayOr k = (j.arrayOr k).arrayAppend x := arrayOr_objectSet hj k _
  rw [putAt, hor, pushAt, objectSet_objectSet, pushAt, ← elems_arrayOr]
  cases harr : j.arrayOr k with
  | array xs => simp [arrayAppend, arraySet, elems]
  | _ => simp [harr, isArray] at ha

/-- An entry replaced and then removed is the entry removed. -/
theorem removeAt_putAt (j : Json) (k : String) (i : Nat) (x : Json) : (j.putAt k i x).removeAt k i = j.removeAt k i := by
  cases hj : j.isObject with
  | true =>
    unfold removeAt putAt
    rw [arrayOr_objectSet hj, objectSet_objectSet]
    cases j.arrayOr k with
    | array xs => simp [arraySet, arrayRemove, List.eraseIdx_set_eq]
    | _ => rfl
  | false =>
    unfold putAt
    rw [objectSet_of_not_isObject hj]

/-- An entry replaced twice is the last one. -/
theorem putAt_putAt (j : Json) (k : String) (i : Nat) (x x' : Json) : (j.putAt k i x).putAt k i x' = j.putAt k i x' := by
  cases hj : j.isObject with
  | true =>
    unfold putAt
    rw [arrayOr_objectSet hj, objectSet_objectSet]
    cases j.arrayOr k with
    | array xs => simp [arraySet, List.set_set]
    | _ => rfl
  | false =>
    unfold putAt
    rw [objectSet_of_not_isObject hj]

/-- An entry pushed and then removed leaves the array that was made for it. -/
theorem removeAt_pushAt {j : Json} {k : String} (h : j.canPush k = true) (x : Json) :
    (j.pushAt k x).removeAt k (j.entries k).length = j.ensureArray k := by
  obtain ⟨hj, ha⟩ := Bool.and_eq_true_iff.mp h
  have hremove : ((j.arrayOr k).arrayAppend x).arrayRemove (j.entries k).length = j.arrayOr k := by
    rw [← elems_arrayOr]
    cases harr : j.arrayOr k with
    | array xs => simp [arrayAppend, arrayRemove, elems, List.eraseIdx_append_of_length_le]
    | _ => simp [harr, isArray] at ha
  unfold removeAt pushAt
  rw [arrayOr_objectSet hj, objectSet_objectSet, hremove]
  unfold ensureArray arrayOr
  cases hv : j.objectGet k with
  | none => rfl
  | some v => exact objectSet_objectGet hv

/-- Nothing is pushed to what is not an array. -/
theorem pushAt_of_not_canPush {j : Json} {k : String} (h : j.canPush k = false) (x : Json) : j.pushAt k x = j := by
  unfold pushAt
  cases hj : j.isObject with
  | false => exact objectSet_of_not_isObject hj k _
  | true =>
    rw [canPush, hj, Bool.true_and] at h
    cases hv : j.objectGet k with
    | none => simp [arrayOr, hv, isArray] at h
    | some v =>
      rw [arrayOr, hv, Option.getD_some] at h ⊢
      cases v with
      | array xs => cases h
      | _ => exact objectSet_objectGet hv

/-- A field that is absent is not deleted. -/
theorem objectDel_of_none {j : Json} {k : String} (h : j.objectGet k = none) : j.objectDel k = j := by
  cases j with
  | object fs =>
    have hall : ∀ f ∈ fs, f.1 ≠ k := by
      intro f hf heq
      have hmem := List.lookup_eq_none_iff.mp h f hf
      simp [heq] at hmem
    exact congrArg object (List.filter_eq_self.mpr (fun f hf => by simpa using hall f hf))
  | _ => rfl

theorem entries_putAt_ne {k k' : String} (h : k' ≠ k) (j : Json) (i : Nat) (x : Json) :
    (j.putAt k i x).entries k' = j.entries k' := entries_objectSet_ne h j _

theorem entries_removeAt_ne {k k' : String} (h : k' ≠ k) (j : Json) (i : Nat) :
    (j.removeAt k i).entries k' = j.entries k' := entries_objectSet_ne h j _

theorem entries_pushAt_ne {k k' : String} (h : k' ≠ k) (j x : Json) : (j.pushAt k x).entries k' = j.entries k' :=
  entries_objectSet_ne h j _

theorem strField_putAt_ne {k tag : String} (h : tag ≠ k) (j : Json) (i : Nat) (x : Json) :
    (j.putAt k i x).strField tag = j.strField tag := strField_objectSet_ne h j _

theorem strField_removeAt_ne {k tag : String} (h : tag ≠ k) (j : Json) (i : Nat) :
    (j.removeAt k i).strField tag = j.strField tag := strField_objectSet_ne h j _

theorem strField_pushAt_ne {k tag : String} (h : tag ≠ k) (j x : Json) :
    (j.pushAt k x).strField tag = j.strField tag := strField_objectSet_ne h j _

/-- An array that was absent and is made has no entries, so no entry list changes. -/
@[simp] theorem entries_ensureArray (j : Json) (k k' : String) : (j.ensureArray k).entries k' = j.entries k' := by
  unfold ensureArray
  split
  · rename_i hnone
    by_cases h : k' = k
    · subst h
      rw [entries_objectSet_self]
      simp [entries, hnone, elems]
    · exact entries_objectSet_ne h j _
  · rfl

/-- A new empty array is no string. -/
@[simp] theorem strField_ensureArray (j : Json) (k tag : String) : (j.ensureArray k).strField tag = j.strField tag := by
  unfold ensureArray
  split
  · rename_i hnone
    by_cases h : tag = k
    · subst h
      cases hj : j.isObject with
      | true => simp [strField, hj, hnone, stringValue]
      | false => rw [objectSet_of_not_isObject hj]
    · exact strField_objectSet_ne h j _
  · rfl

@[simp] theorem isObject_ensureArray (j : Json) (k : String) : (j.ensureArray k).isObject = j.isObject := by
  unfold ensureArray
  split <;> simp

/-- The entries of an array of objects mapped by `adjust` and `arrayMap`. -/
theorem entries_adjust_arrayMap (j : Json) (k : String) (f : Json → Json) :
    (j.adjust k (arrayMap f)).entries k = (j.entries k).map f := by
  unfold adjust
  split
  · rename_i hnone
    simp [entries, hnone]
  · rename_i v hv
    rw [entries_objectSet_self, if_pos (isObject_of_objectGet hv), elems_arrayMap]
    simp [entries, hv]

theorem entries_adjust_arrayMapIdx (j : Json) (k : String) (f : Nat → Json → Json) :
    (j.adjust k (arrayMapIdx f)).entries k = (j.entries k).mapIdx f := by
  unfold adjust
  split
  · rename_i hnone
    simp [entries, hnone]
  · rename_i v hv
    rw [entries_objectSet_self, if_pos (isObject_of_objectGet hv), elems_arrayMapIdx]
    simp [entries, hv]

theorem entries_adjust_ne {k k' : String} (h : k' ≠ k) (j : Json) (f : Json → Json) :
    (j.adjust k f).entries k' = j.entries k' := by
  unfold adjust
  split
  · rfl
  · exact entries_objectSet_ne h j _

theorem strField_adjust_ne {k tag : String} (h : tag ≠ k) (j : Json) (f : Json → Json) :
    (j.adjust k f).strField tag = j.strField tag := by
  unfold adjust
  split
  · rfl
  · exact strField_objectSet_ne h j _

/-! ## Arrays edited whole -/

theorem arrayFilter_eq_self {p : Json → Bool} {a : Json} (h : ∀ x ∈ a.elems, p x = true) : a.arrayFilter p = a := by
  cases a with
  | array xs => exact congrArg array (List.filter_eq_self.mpr h)
  | _ => rfl

theorem arrayMap_congr {f g : Json → Json} {a : Json} (h : ∀ x ∈ a.elems, f x = g x) : a.arrayMap f = a.arrayMap g := by
  cases a with
  | array xs => exact congrArg array (List.map_congr_left h)
  | _ => rfl

theorem arrayMap_eq_self {f : Json → Json} {a : Json} (h : ∀ x ∈ a.elems, f x = x) : a.arrayMap f = a := by
  cases a with
  | array xs => exact congrArg array ((List.map_congr_left h).trans (List.map_id' xs))
  | _ => rfl

/-- A map that looks at the places and gives at each of them what a map of the elements gives. -/
theorem arrayMapIdx_eq_arrayMap {f : Nat → Json → Json} {g : Json → Json} {a : Json}
    (h : ∀ i, ∀ x ∈ a.elems, f i x = g x) : a.arrayMapIdx f = a.arrayMap g := by
  cases a with
  | array xs =>
    refine congrArg array (List.ext_getElem? (fun i => ?_))
    rw [List.getElem?_mapIdx, List.getElem?_map]
    cases hx : xs[i]? with
    | none => rfl
    | some x => exact congrArg some (h i x (List.mem_of_getElem? hx))
  | _ => rfl

theorem adjust_congr {f g : Json → Json} {j : Json} {k : String} (h : f (j.arrayOr k) = g (j.arrayOr k)) :
    j.adjust k f = j.adjust k g := by
  unfold adjust
  cases hv : j.objectGet k with
  | none => rfl
  | some v =>
    simp only [arrayOr, hv, Option.getD_some] at h
    exact congrArg (j.objectSet k) h

theorem adjust_eq_self {f : Json → Json} {j : Json} {k : String} (h : f (j.arrayOr k) = j.arrayOr k) : j.adjust k f = j := by
  unfold adjust
  cases hv : j.objectGet k with
  | none => rfl
  | some v =>
    simp only [arrayOr, hv, Option.getD_some] at h
    exact (congrArg (j.objectSet k) h).trans (objectSet_objectGet hv)

/-- An edit of an array that has an entry, as a field set. -/
theorem adjust_of_entries {f : Json → Json} {j x : Json} {k : String} {i : Nat} (h : (j.entries k)[i]? = some x) :
    j.adjust k f = j.objectSet k (f (j.arrayOr k)) := by
  unfold adjust
  cases hv : j.objectGet k with
  | none => simp [entries, hv] at h
  | some v => simp only [arrayOr, hv, Option.getD_some]

/-! ## Two entries put -/

theorem arrayOr_putAt {j : Json} (hj : j.isObject = true) (k : String) (i : Nat) (x : Json) :
    (j.putAt k i x).arrayOr k = (j.arrayOr k).arraySet i x := arrayOr_objectSet hj k _

/-- Entries put in two places: it makes no difference which is put first. -/
theorem putAt_comm {i i' : Nat} (h : i ≠ i') (j : Json) (k : String) (x x' : Json) :
    (j.putAt k i x).putAt k i' x' = (j.putAt k i' x').putAt k i x := by
  cases hj : j.isObject with
  | false => simp only [putAt, objectSet_of_not_isObject hj]
  | true =>
    have hset : ((j.arrayOr k).arraySet i x).arraySet i' x' = ((j.arrayOr k).arraySet i' x').arraySet i x := by
      cases j.arrayOr k with
      | array xs => exact congrArg array (List.set_comm x x' h)
      | _ => rfl
    have hput : ∀ (n m : Nat) (y z : Json),
        (j.putAt k n y).putAt k m z = j.objectSet k (((j.arrayOr k).arraySet n y).arraySet m z) := by
      intro n m y z
      show (j.putAt k n y).objectSet k (((j.putAt k n y).arrayOr k).arraySet m z) = _
      rw [arrayOr_putAt hj]
      exact objectSet_objectSet j k _ _
    rw [hput, hput, hset]

/-! ## Absent arrays -/

/-- A key under which there is an entry is not absent. -/
theorem ensureArray_of_entries {j x : Json} {k : String} {i : Nat} (h : (j.entries k)[i]? = some x) :
    j.ensureArray k = j := by
  unfold ensureArray
  split
  · rename_i hnone
    simp [entries, hnone] at h
  · rfl

/-- The array that is made under an absent key is the one that is read from an absent key. -/
@[simp] theorem arrayOr_ensureArray (j : Json) (k : String) : (j.ensureArray k).arrayOr k = j.arrayOr k := by
  cases hg : j.objectGet k with
  | some v => simp [ensureArray, hg]
  | none =>
    cases hj : j.isObject with
    | true => simp [ensureArray, hg, arrayOr, hj]
    | false => simp [ensureArray, hg, objectSet_of_not_isObject hj]

/-- Pushing to an array makes it if absent, so making it first adds nothing. -/
theorem pushAt_ensureArray (j : Json) (k : String) (x : Json) : (j.ensureArray k).pushAt k x = j.pushAt k x := by
  unfold pushAt
  rw [arrayOr_ensureArray]
  unfold ensureArray
  split
  · exact objectSet_objectSet j k _ _
  · rfl

/-- One absent field, somewhere in the tree, has become an empty array; or nothing has changed. -/
inductive Fills : Json → Json → Prop
  | refl (j : Json) : Fills j j
  | make {j : Json} {k : String} (h : j.objectGet k = none) : Fills j (j.objectSet k (.array []))
  | field {j v v' : Json} {k : String} (h : j.objectGet k = some v) (hv : Fills v v') : Fills j (j.objectSet k v')
  | elem {xs : List Json} {i : Nat} {x x' : Json} (h : xs[i]? = some x) (hx : Fills x x') :
      Fills (.array xs) (.array (xs.set i x'))

theorem Fills.ensureArray (j : Json) (k : String) : Fills j (j.ensureArray k) := by
  unfold Json.ensureArray
  split
  · rename_i hnone
    exact .make hnone
  · exact .refl j

/-- An entry of an array under a key that was filled fills the value around it. -/
theorem Fills.putAt {j x x' : Json} {k : String} {i : Nat} (h : (j.entries k)[i]? = some x) (hx : Fills x x') :
    Fills j (j.putAt k i x') := by
  cases hg : j.objectGet k with
  | none => simp [entries, hg] at h
  | some v =>
    cases v with
    | array xs =>
      have hxs : xs[i]? = some x := by simpa [entries, hg, elems] using h
      simp only [Json.putAt, arrayOr, hg, Option.getD_some, arraySet]
      exact .field hg (.elem hxs hx)
    | _ => simp [entries, hg, elems] at h

theorem Fills.isArray {j j' : Json} (h : Fills j j') : j'.isArray = j.isArray := by
  cases h with
  | refl => rfl
  | make => cases j <;> rfl
  | field => cases j <;> rfl
  | elem => rfl

/-- An array that was made, or filled, is an array. -/
theorem Fills.canPush {j j' : Json} (h : Fills j j') (k : String) : j'.canPush k = j.canPush k := by
  cases h with
  | refl => rfl
  | make hnone => exact canPush_objectSet (by simp [arrayOr, hnone]) k
  | field hv hf => exact canPush_objectSet (by simp [arrayOr, hv, hf.isArray]) k
  | elem => rfl

theorem Fills.elems {j j' : Json} (h : Fills j j') : List.Forall₂ Fills j.elems j'.elems := by
  cases h with
  | refl => exact List.forall₂_same.mpr (fun x _ => .refl x)
  | make => cases j <;> exact List.forall₂_same.mpr (fun x _ => .refl x)
  | field => cases j <;> exact List.forall₂_same.mpr (fun x _ => .refl x)
  | @elem xs i x x' h hx =>
    show List.Forall₂ Fills xs (xs.set i x')
    exact Keyed.forall₂_set .refl h hx

/-- The entries of an array are filled one by one: none is added and none is lost. -/
theorem Fills.entries {j j' : Json} (h : Fills j j') (k : String) : List.Forall₂ Fills (j.entries k) (j'.entries k) := by
  have hsame : List.Forall₂ Fills (j.entries k) (j.entries k) := List.forall₂_same.mpr (fun x _ => .refl x)
  cases h with
  | refl => exact hsame
  | @make _ k₀ hnone =>
    have heq : j.objectSet k₀ (.array []) = j.ensureArray k₀ := by simp [Json.ensureArray, hnone]
    rw [heq, entries_ensureArray]
    exact hsame
  | @field _ v v' k₀ hv hf =>
    by_cases hk : k = k₀
    · subst hk
      rw [entries_objectSet_self, if_pos (isObject_of_objectGet hv)]
      simpa [Json.entries, hv] using hf.elems
    · rw [entries_objectSet_ne hk]
      exact hsame
  | elem => simp [Json.entries, objectGet]

/-- A value that was filled is a string only if it was, and the same one. -/
theorem Fills.stringValue {j j' : Json} (h : Fills j j') : j'.stringValue = j.stringValue := by
  cases h with
  | refl => rfl
  | make => cases j <;> rfl
  | field => cases j <;> rfl
  | elem => rfl

theorem Fills.integer? {j j' : Json} (h : Fills j j') : j'.integer? = j.integer? := by
  cases h with
  | refl => rfl
  | make => cases j <;> rfl
  | field => cases j <;> rfl
  | elem => rfl

/-- A scalar that a field may be read as is read from a filled object as it was before. -/
theorem Fills.bind_objectGet {α : Type*} {f : Json → Option α} (hf : ∀ {v v'}, Fills v v' → f v' = f v)
    (harr : f (.array []) = none) {j j' : Json} (h : Fills j j') (tag : String) :
    (j'.objectGet tag).bind f = (j.objectGet tag).bind f := by
  cases h with
  | refl => rfl
  | @make _ k hnone =>
    by_cases hk : tag = k
    · subst hk
      cases hj : j.isObject with
      | true => simp [hj, hnone, harr]
      | false => rw [objectSet_of_not_isObject hj]
    · rw [objectGet_objectSet_ne hk]
  | @field _ v v' k hv hx =>
    by_cases hk : tag = k
    · subst hk
      simp [isObject_of_objectGet hv, hv, hf hx]
    · rw [objectGet_objectSet_ne hk]
  | elem => rfl

theorem Fills.strField {j j' : Json} (h : Fills j j') (tag : String) : j'.strField tag = j.strField tag :=
  h.bind_objectGet Fills.stringValue rfl tag

theorem Fills.intField {j j' : Json} (h : Fills j j') (tag : String) : j'.intField tag = j.intField tag :=
  h.bind_objectGet Fills.integer? rfl tag

/-- What the entries of an array are named by does not change when a value is filled. -/
theorem Fills.filterMap_entries {β : Type*} {f : Json → Option β} (hf : ∀ {x x'}, Fills x x' → f x' = f x) {j j' : Json}
    (h : Fills j j') (k : String) : (j'.entries k).filterMap f = (j.entries k).filterMap f := by
  have hall := h.entries k
  generalize j.entries k = xs at hall
  generalize j'.entries k = ys at hall
  induction hall with
  | nil => rfl
  | cons hx _ ih => simp only [List.filterMap_cons, hf hx, ih]

theorem Fills.keys {j j' : Json} (h : Fills j j') (k tag : String) : j'.keys k tag = j.keys k tag :=
  h.filterMap_entries (fun hx => hx.strField tag) k

theorem Fills.intKeys {j j' : Json} (h : Fills j j') (k tag : String) : j'.intKeys k tag = j.intKeys k tag :=
  h.filterMap_entries (fun hx => hx.intField tag) k

theorem Fills.strings {j j' : Json} (h : Fills j j') (k : String) : j'.strings k = j.strings k :=
  h.filterMap_entries Fills.stringValue k

/-- An entry of a filled value is a filled entry. -/
theorem Fills.mem_entries {j j' x' : Json} (h : Fills j j') {k : String} (hx : x' ∈ j'.entries k) :
    ∃ x ∈ j.entries k, Fills x x' := by
  obtain ⟨i, hi, rfl⟩ := List.getElem_of_mem hx
  obtain ⟨hlen, hget⟩ := List.forall₂_iff_get.mp (h.entries k)
  exact ⟨_, List.getElem_mem (hlen ▸ hi), hget i (hlen ▸ hi) hi⟩

end Json

end Jansson
