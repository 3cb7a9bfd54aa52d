import NvmeDem.Lib.Ends
import NvmeDem.Lemmas.Loaded
import NvmeDem.Lemmas.Targets

/-!
# Whether the strings of a request fit where they are copied

A request copies the texts of its URI and of its body to arrays on the stack and of the caller, one after the other and without a look at
their lengths. What each request needs, for every copy that it gets as far as, to stay inside (`request_copies_iff`); the arrays of the
caller are part of it, in what the caller gets back with a return of 0 (`Inside`).
-/

namespace NvmeDem

open Jansson
open Ends

/-! ## Calls that write inside -/

/-- A call does not write outside an array, and what it gives its caller when it does what it was asked is as it should be. -/
def Inside {α : Type} (post : α → Prop) (x : Except Fault (Reply α)) : Prop :=
  Well (fun f => f ≠ .outOfBounds) (fun r => r.ret = 0 → post r.out) x

/-- A buffer of the caller has what it had before, or a text that fits. -/
def KeptOrFits (size : Nat) (old new : String) : Prop := new = old ∨ new.length ≤ size

section

variable {α : Type} {post : α → Prop}

/-- A request that is refused copies nothing further. -/
theorem inside_refused {r : Reply α} (h : r.ret ≠ 0) : Inside post (.ok r) := fun hret => absurd hret h

theorem inside_invalidJsonSyntax (root : Json) (out : α) : Inside post (.ok (invalidJsonSyntax root out)) :=
  inside_refused einval_ne

end

theorem strcpy_of_not_le {size : Nat} {s : String} (h : ¬s.length ≤ size) : strcpy size (some s) = .error .outOfBounds :=
  if_neg h

theorem pushShared_error {x z : Json} {y : String} {f : Fault} (h : pushShared x y z = .error f) : f ≠ .outOfBounds := by
  unfold pushShared at h
  split at h
  · cases h
  · rintro rfl
    cases h

theorem nullString_ne : Fault.nullString ≠ .outOfBounds := nofun

/-! ## The conditions on a request -/

/-- The entry that the URI names, if it names one, is there. -/
def UriFound (array : Json) (tag : String) (uri : Option String) : Prop :=
  ∀ name, uri = some name → (findArray array tag name).isSome = true

/-- A request is refused because the name it gives is taken. -/
def Taken (array : Json) (tag : String) (uri : Option String) (name : String) : Prop :=
  looksForName uri name = true ∧ (findArray array tag name).isSome = true

/-- A text of the body fits. -/
def FieldFits (new : Json) (tag : String) (size : Nat) : Prop := ∀ s, new.strField tag = some s → s.length ≤ size

/-- The name that a request copies: the one of its body, or else the one of its URI. -/
def chosenName (new : Json) (uri : Option String) : Option String := (new.strField tagAlias).or uri

/-- A request whose name is copied goes on to the other fields: the name is not refused, and a new entry has a name and a place. -/
def Proceeds (root : Json) (key tag : String) (uri : Option String) (name : String) : Prop :=
  ¬Taken (root.arrayOr key) tag uri name ∧ (uri = none → name ≠ "" ∧ root.canPush key = true)

theorem proceeds_some {root : Json} {key tag old name : String} (h : ¬Taken (root.arrayOr key) tag (some old) name) :
    Proceeds root key tag (some old) name := by
  refine ⟨h, fun hnone => ?_⟩
  cases hnone

/-! ## Copying a field -/

theorem strField_of_none {new : Json} {tag : String} (h : new.objectGet tag = none) : new.strField tag = none := by
  rw [Json.strField, h]
  rfl

theorem strField_of_some {new value : Json} {tag : String} (h : new.objectGet tag = some value) :
    new.strField tag = value.stringValue := by
  rw [Json.strField, h]
  rfl

section

variable {w x : Json} {y : String} {size : Nat} {res : String}

/-- A text of the body fits, and so does what comes after it. -/
theorem well_jsonUpdateStringEx {post : Json × String → Prop} {rest : Prop} (hx : TextOrAbsent x y) (hw : w.isObject = true)
    (hpost : ∀ w', w'.isObject = true → (∀ k, k ≠ y → w'.objectGet k = w.objectGet k) → FieldFits x y size →
      (post (w', (x.strField y).getD res) ↔ rest)) :
    Well (fun f => f ≠ .outOfBounds) post (jsonUpdateStringEx w x y size res) ↔ FieldFits x y size ∧ rest := by
  unfold jsonUpdateStringEx
  rcases hx with hx | hx
  · obtain ⟨s, hs⟩ := Option.isSome_iff_exists.mp hx
    rw [Json.objectGet_of_strField hs]
    dsimp only
    rw [if_pos hw, Json.stringValue]
    by_cases hfits : s.length ≤ size
    · have hfield : FieldFits x y size := by
        intro t ht
        rw [hs] at ht
        cases ht
        exact hfits
      have hrest := hpost (jsonSetString w y s) ((isObject_jsonSetString w y s).trans hw)
        (fun k hk => objectGet_jsonSetString_ne hk w s) hfield
      rw [hs] at hrest
      rw [strcpy_of_le hfits, and_iff_right hfield]
      exact hrest
    · rw [strcpy_of_not_le hfits]
      exact iff_of_false (fun h => h rfl) (fun h => hfits (h.1 s hs))
  · have hnone : x.strField y = none := strField_of_none hx
    have hfield : FieldFits x y size := by
      intro t ht
      rw [hnone] at ht
      cases ht
    have hrest := hpost w hw (fun _ _ => rfl) hfield
    rw [hnone] at hrest
    rw [hx, and_iff_right hfield]
    exact hrest

/-- An entry that is not an object is not written, and nothing is copied. -/
theorem well_jsonUpdateStringEx_of_not {post : Json × String → Prop} (hw : ¬w.isObject = true) (hpost : post (w, res)) :
    Well (fun f => f ≠ .outOfBounds) post (jsonUpdateStringEx w x y size res) := by
  unfold jsonUpdateStringEx
  rcases x.objectGet y with _ | z
  · exact hpost
  · dsimp only
    rw [if_neg hw]
    exact hpost

theorem FieldFits.kept (h : FieldFits x y size) (res : String) : KeptOrFits size res ((x.strField y).getD res) := by
  rcases hs : x.strField y with _ | s
  · exact Or.inl rfl
  · exact Or.inr (h s hs)

end

/-! ## Looking up the entry, and copying the name -/

theorem uriFound_none (array : Json) (tag : String) : UriFound array tag none := nofun

theorem uriFound_some_iff {array : Json} {tag name : String} :
    UriFound array tag (some name) ↔ (findArray array tag name).isSome = true := by
  unfold UriFound
  simp only [Option.some.injEq, forall_eq']

section

variable {α : Type} {post : α → Prop} {fits : Prop} {array root new : Json} {tag key data : String} {uri : Option String}
  {bad : Reply α}

/-- The start of a request: the entry that the URI names is looked up. -/
def lookUp (array : Json) (tag : String) (uri : Option String) (data : String) (bad : Reply α) (missing : String → Reply α)
    (body : Option String → Option Nat → Except Fault (Reply α)) : Except Fault (Reply α) :=
  if data = "" then .ok bad
  else
    match uri with
    | none => body none none
    | some name =>
      match findArray array tag name with
      | none => .ok (missing name)
      | some i => body (some name) (some i)

theorem lookUp_inside {missing : String → Reply α} {body : Option String → Option Nat → Except Fault (Reply α)}
    (hbad : bad.ret ≠ 0) (hmissing : ∀ name, (missing name).ret ≠ 0)
    (hbody : UriFound array tag uri → (Inside post (body uri (uri.bind (findArray array tag))) ↔ fits)) :
    Inside post (lookUp array tag uri data bad missing body) ↔ (data ≠ "" → UriFound array tag uri → fits) := by
  unfold lookUp
  by_cases hdata : data = ""
  · rw [if_pos hdata]
    exact iff_of_true (inside_refused hbad) (fun h => absurd hdata h)
  · rw [if_neg hdata, forall_prop_of_true hdata]
    rcases uri with _ | name
    · rw [forall_prop_of_true (uriFound_none array tag)]
      exact hbody (uriFound_none array tag)
    · rw [uriFound_some_iff] at hbody ⊢
      rw [Option.bind_some] at hbody
      dsimp only
      rcases hfind : findArray array tag name with _ | i
      · exact iff_of_true (inside_refused (hmissing name)) nofun
      · rw [hfind] at hbody
        rw [forall_prop_of_true Option.isSome_some]
        exact hbody Option.isSome_some

/-- How a request copies its name, the one of the body or else the one of the URI, and goes on (`go`) with the entry: a body with
a name that is not taken renames the entry of the URI (`renamed`) or makes a new one (`entry`). -/
def copyName (size : Nat) (root : Json) (key : String) (entry : String → Json) (uri : Option String) (at? : Option Nat)
    (new : Json) (bad : Reply α) (refused lost : String → Reply α) (renamed : String → Nat → String → Json)
    (go : Json → Nat → String → Except Fault (Reply α)) : Except Fault (Reply α) :=
  match new.objectGet tagAlias with
  | some value =>
    match strcpy size value.stringValue with
    | .error f => .error f
    | .ok name =>
      if looksForName uri name then
        if (findArray (root.arrayOr key) tagAlias name).isSome then .ok (refused name)
        else
          match uri, at? with
          | some old, some i => go (renamed old i name) i name
          | _, _ =>
            match pushShared root key (entry name) with
            | .error f => .error f
            | .ok root' => go root' (root.entries key).length name
      else
        match at? with
        | some i => go root i name
        | none => .ok (lost name)
  | none =>
    match uri, at? with
    | some old, some i =>
      match strcpy size (some old) with
      | .error f => .error f
      | .ok name => go root i name
    | _, _ => .ok bad

/-- The name fits, and when it is not refused the rest does, wherever the entry stands. -/
theorem copyName_inside {size : Nat} {entry : String → Json} {refused lost : String → Reply α}
    {renamed : String → Nat → String → Json} {go : Json → Nat → String → Except Fault (Reply α)}
    (hfound : UriFound (root.arrayOr key) tagAlias uri) (halias : TextOrAbsent new tagAlias) (hbad : bad.ret ≠ 0) (hrefused : ∀ name, (refused name).ret ≠ 0)
    (hlost : ∀ name, (lost name).ret ≠ 0)
    (hkept : ∀ old i name, uri = some old → findArray (root.arrayOr key) tagAlias old = some i → name.length ≤ size →
      (Inside post (go root i name) ↔ fits))
    (hrenamed : ∀ old i name, uri = some old → findArray (root.arrayOr key) tagAlias old = some i → name.length ≤ size →
      (Inside post (go (renamed old i name) i name) ↔ fits))
    (hmade : ∀ name, uri = none → root.canPush key = true → name.length ≤ size →
      (Inside post (go (root.pushAt key (entry name)) (root.entries key).length name) ↔ fits)) :
    Inside post
        (copyName size root key entry uri (uri.bind (findArray (root.arrayOr key) tagAlias)) new bad refused lost renamed go) ↔
      ∀ name, chosenName new uri = some name → name.length ≤ size ∧ (Proceeds root key tagAlias uri name → fits) := by
  unfold copyName chosenName
  rcases halias with halias | halias
  · obtain ⟨name, hs⟩ := Option.isSome_iff_exists.mp halias
    rw [Json.objectGet_of_strField hs, hs]
    simp only [Json.stringValue, Option.some_or, Option.some.injEq, forall_eq']
    by_cases hshort : name.length ≤ size
    · rw [strcpy_of_le hshort, and_iff_right hshort]
      dsimp only
      by_cases hlook : looksForName uri name = true
      · rw [if_pos hlook]
        by_cases htaken : (findArray (root.arrayOr key) tagAlias name).isSome = true
        · rw [if_pos htaken]
          exact iff_of_true (inside_refused (hrefused name)) (fun h => absurd ⟨hlook, htaken⟩ h.1)
        · rw [if_neg htaken]
          rcases uri with _ | old
          · rcases hpush : pushShared root key (entry name) with f | root'
            · refine iff_of_true (pushShared_error hpush) (fun h => ?_)
              have hcan : root.canPush key = true := (h.2 rfl).2
              rw [pushShared, if_pos hcan] at hpush
              cases hpush
            · obtain ⟨hcan, rfl⟩ := pushShared_ok hpush
              have hgoes : Proceeds root key tagAlias none name :=
                ⟨fun h => htaken h.2, fun _ => ⟨of_decide_eq_true hlook, hcan⟩⟩
              rw [forall_prop_of_true hgoes]
              exact hmade name rfl hcan hshort
          · obtain ⟨i, hi⟩ := Option.isSome_iff_exists.mp (hfound old rfl)
            have hgoes : Proceeds root key tagAlias (some old) name := proceeds_some fun h => htaken h.2
            rw [forall_prop_of_true hgoes, Option.bind_some, hi]
            exact hrenamed old i name rfl hi hshort
      · rw [if_neg hlook]
        rcases uri with _ | old
        · exact iff_of_true (inside_refused (hlost name)) (fun h => absurd (decide_eq_true (h.2 rfl).1) hlook)
        · obtain ⟨i, hi⟩ := Option.isSome_iff_exists.mp (hfound old rfl)
          have hgoes : Proceeds root key tagAlias (some old) name := proceeds_some fun h => hlook h.1
          rw [forall_prop_of_true hgoes, Option.bind_some, hi]
          exact hkept old i name rfl hi hshort
    · rw [strcpy_of_not_le hshort]
      exact iff_of_false (fun h => h rfl) (fun h => hshort h.1)
  · rw [strField_of_none halias, halias]
    rcases uri with _ | old
    · refine iff_of_true (inside_refused hbad) (fun name hname => ?_)
      cases hname
    · obtain ⟨i, hi⟩ := Option.isSome_iff_exists.mp (hfound old rfl)
      have hgoes : Proceeds root key tagAlias (some old) old :=
        proceeds_some fun h => of_decide_eq_true h.1 rfl
      simp only [Option.none_or, Option.some.injEq, forall_eq', forall_prop_of_true hgoes, Option.bind_some, hi]
      by_cases hshort : old.length ≤ size
      · rw [strcpy_of_le hshort, and_iff_right hshort]
        exact hkept old i old rfl hi hshort
      · rw [strcpy_of_not_le hshort]
        exact iff_of_false (fun h => h rfl) (fun h => hshort h.1)

end

/-! ## Groups -/

/-- The name of the body goes to a buffer of `maxString` bytes, and to one of `maxAliasSize` when it is not taken. -/
def GroupFits (J : JsonLib) (root : Json) (group : Option String) (data : String) : Prop :=
  data ≠ "" → UriFound (root.arrayOr tagGroups) tagName group → ∀ new, J.loads data = some new →
    ∀ name, new.strField tagName = some name →
      name.length ≤ maxAliasSize ∨ (name.length ≤ maxString ∧ Taken (root.arrayOr tagGroups) tagName group name)

theorem updateJsonGroupBody_inside (J : JsonLib) (root : Json) (group : Option String) (at? : Option Nat) (data name : String) :
    Inside (fun out => out.length ≤ maxAliasSize) (updateJsonGroupBody J root group at? data name) ↔
      ∀ new, J.loads data = some new → ∀ name, new.strField tagName = some name →
        name.length ≤ maxAliasSize ∨ (name.length ≤ maxString ∧ Taken (root.arrayOr tagGroups) tagName group name) := by
  unfold updateJsonGroupBody
  rcases hloads : J.loads data with _ | new
  · exact iff_of_true (inside_invalidJsonSyntax root name) nofun
  · simp only [Option.some.injEq, forall_eq']
    rcases hvalue : new.objectGet tagName with _ | value
    · rw [strField_of_none hvalue]
      exact iff_of_true (inside_invalidJsonSyntax root name) nofun
    · rw [strField_of_some hvalue]
      dsimp only
      rcases value.stringValue with _ | newname
      · exact iff_of_true nullString_ne nofun
      · simp only [Option.some.injEq, forall_eq']
        by_cases hfits : newname.length ≤ maxString
        · rw [strcpy_of_le hfits]
          by_cases htaken : (looksForName group newname && (findArray (root.arrayOr tagGroups) tagName newname).isSome) = true
          · simp only [if_pos htaken]
            exact iff_of_true (inside_refused eexist_ne) (Or.inr ⟨hfits, (Bool.and_eq_true _ _).mp htaken⟩)
          · simp only [if_neg htaken]
            rw [or_iff_left (fun h => htaken ((Bool.and_eq_true _ _).mpr h.2))]
            by_cases hshort : newname.length ≤ maxAliasSize
            · rw [strcpy_of_le hshort]
              refine iff_of_true ?_ hshort
              rcases at? with _ | i
              · rcases hpush : pushShared root tagGroups (newGroupFrom newname) with f | root'
                · exact pushShared_error hpush
                · exact fun _ => hshort
              · exact fun _ => hshort
            · rw [strcpy_of_not_le hshort]
              exact iff_of_false (fun h => h rfl) hshort
        · rw [strcpy_of_not_le hfits]
          refine iff_of_false (fun h => h rfl) ?_
          rintro (h | h)
          · exact hfits (Nat.le_trans h (by decide))
          · exact hfits h.1

theorem updateJsonGroup_inside (J : JsonLib) (root : Json) (group : Option String) (data name : String) :
    Inside (fun out => out.length ≤ maxAliasSize) (updateJsonGroup J root group data name) ↔ GroupFits J root group data := by
  have hlook : updateJsonGroup J root group data name =
      lookUp (root.arrayOr tagGroups) tagName group data (invalidJsonSyntax root name)
        (fun g => { ret := -enoent
                    resp := s!"{tagGroup} '{g}' not found"
                    root := root.ensureArray tagGroups
                    out := name })
        (fun group at? => updateJsonGroupBody J (root.ensureArray tagGroups) group at? data name) := by
    cases group <;> rfl
  rw [hlook, GroupFits]
  refine lookUp_inside einval_ne (fun _ => enoent_ne) (fun _ => ?_)
  rw [updateJsonGroupBody_inside, Json.arrayOr_ensureArray]

/-! ## Hosts -/

/-- The alias goes to a buffer of `maxAliasSize` bytes, and the NQN to one of `maxNqnSize` when the host is made or changed. -/
def HostFits (J : JsonLib) (root : Json) (host : Option String) (data : String) : Prop :=
  data ≠ "" → UriFound (root.arrayOr tagHosts) tagAlias host → ∀ new, J.loads data = some new →
    ∀ name, chosenName new host = some name →
      name.length ≤ maxAliasSize ∧ (Proceeds root tagHosts tagAlias host name → FieldFits new tagHostnqn maxNqnSize)

/-- What a caller copies of a host is the new alias and the NQN. -/
def HostOutFits (out new : HostOut) : Prop := new.newalias.length ≤ maxAliasSize ∧ KeptOrFits maxNqnSize out.nqn new.nqn

theorem updateJsonHostNqn_inside {root new x : Json} (host : Option String) {i : Nat} {out : HostOut} {name : String}
    (hnqn : TextOrAbsent new tagHostnqn) (hx : (root.entries tagHosts)[i]? = some x) (hobj : x.isObject = true)
    (hname : name.length ≤ maxAliasSize) :
    Inside (HostOutFits out) (updateJsonHostNqn root new host i { out with newalias := name }) ↔
      FieldFits new tagHostnqn maxNqnSize := by
  have hcopy := @well_jsonUpdateStringEx x new tagHostnqn maxNqnSize out.nqn (fun p => KeptOrFits maxNqnSize out.nqn p.2) True hnqn
    hobj (fun w' _ _ hfits => iff_true_intro (hfits.kept out.nqn))
  rw [and_true] at hcopy
  unfold updateJsonHostNqn
  rw [arrayGet_arrayOr hx, ← hcopy]
  rcases jsonUpdateStringEx x new tagHostnqn maxNqnSize out.nqn with f | ⟨x', nqn⟩
  · exact Iff.rfl
  · exact ⟨fun h => (h rfl).2, fun h _ => ⟨hname, h⟩⟩

theorem proceeds_ensureArray {root : Json} {key tag name : String} {uri : Option String} :
    Proceeds (root.ensureArray key) key tag uri name ↔ Proceeds root key tag uri name := by
  unfold Proceeds Json.canPush
  rw [Json.arrayOr_ensureArray, Json.isObject_ensureArray]

theorem updateJsonHostBody_inside {J : JsonLib} {root : Json} {host : Option String} {data : String} (out : HostOut)
    (hfound : UriFound (root.arrayOr tagHosts) tagAlias host)
    (hstrings : ∀ new, J.loads data = some new → TextOrAbsent new tagAlias ∧ TextOrAbsent new tagHostnqn) :
    Inside (HostOutFits out)
        (updateJsonHostBody J root host (host.bind (findArray (root.arrayOr tagHosts) tagAlias)) data out) ↔
      ∀ new, J.loads data = some new → ∀ name, chosenName new host = some name →
        name.length ≤ maxAliasSize ∧ (Proceeds root tagHosts tagAlias host name → FieldFits new tagHostnqn maxNqnSize) := by
  unfold updateJsonHostBody
  rcases hloads : J.loads data with _ | new
  · exact iff_of_true (inside_invalidJsonSyntax root out) nofun
  · obtain ⟨halias, hnqn⟩ := hstrings new hloads
    simp only [Option.some.injEq, forall_eq']
    refine @copyName_inside HostOut (HostOutFits out) (FieldFits new tagHostnqn maxNqnSize) root new tagHosts host
      (invalidJsonSyntax root out) maxAliasSize (fun name => jsonSetString (.object []) tagAlias name)
      (fun name => { ret := -eexist, resp := s!"{tagHosts} '{name}' exists", root := root, out := { out with newalias := name } })
      (fun name => { ret := -efault, resp := "Internal logic error", root := root, out := { out with newalias := name } })
      (fun old i name => renameInGroups (renameInAllowedHosts (root.putAt tagHosts i
        (jsonUpdateString (arrayGet (root.arrayOr tagHosts) i) new tagAlias)) old name) tagHosts old name)
      (fun root i name => updateJsonHostNqn root new host i { out with newalias := name }) hfound halias
      einval_ne (fun _ => eexist_ne) (fun _ => efault_ne) ?kept ?renamed ?made
    case kept =>
      intro old i name _ hi hname
      obtain ⟨hx, hold⟩ := findArray_arrayOr_some hi
      exact updateJsonHostNqn_inside host hnqn hx (Json.isObject_of_strField hold) hname
    case renamed =>
      intro old i name _ hi hname
      obtain ⟨hx, hold⟩ := findArray_arrayOr_some hi
      exact updateJsonHostNqn_inside host hnqn (getElem?_renamed hx)
        ((isObject_jsonUpdateString _ new tagAlias).trans (Json.isObject_of_strField hold)) hname
    case made =>
      intro name _ hcan hname
      exact updateJsonHostNqn_inside host hnqn (Json.getElem?_entries_pushAt hcan _) rfl hname

theorem updateJsonHost_inside (J : JsonLib) (root : Json) (host : Option String) (data : String) (out : HostOut)
    (hstrings : ∀ new, J.loads data = some new → TextOrAbsent new tagAlias ∧ TextOrAbsent new tagHostnqn) :
    Inside (HostOutFits out) (updateJsonHost J root host data out) ↔ HostFits J root host data := by
  have hlook : updateJsonHost J root host data out =
      lookUp (root.arrayOr tagHosts) tagAlias host data (invalidJsonSyntax root out)
        (fun h => { ret := -enoent, resp := s!"{tagHost} '{h}' not found", root := root.ensureArray tagHosts, out := out })
        (fun host at? => updateJsonHostBody J (root.ensureArray tagHosts) host at? data out) := by
    cases host <;> rfl
  rw [hlook, HostFits]
  refine lookUp_inside einval_ne (fun _ => enoent_ne) (fun hfound => ?_)
  rw [← Json.arrayOr_ensureArray root tagHosts] at hfound ⊢
  rw [updateJsonHostBody_inside out hfound hstrings]
  simp only [proceeds_ensureArray]

/-! ## Targets -/

/-- The texts of a request that are names, of itself and of its interface, are strings. -/
structure NamesAreStrings (new : Json) : Prop where
  name : TextOrAbsent new tagAlias
  hostnqn : TextOrAbsent new tagHostnqn
  subnqn : TextOrAbsent new tagSubnqn
  mgmtMode : TextOrAbsent new tagMgmtMode
  type : TextOrAbsent new tagType
  family : TextOrAbsent new tagFamily
  address : TextOrAbsent new tagAddress
  iface : ∀ newobj : Json, new.objectGet tagInterface = some newobj →
    ∀ tag : String, tag ∈ [tagIffamily, tagIfaddress, tagType, tagFamily, tagAddress] → TextOrAbsent newobj tag

/-- What a caller copies of a port, and of the interface of an in-band target. -/
structure PortOutFits (out new : PortArg) : Prop where
  type : KeptOrFits configTypeSize out.type new.type
  family : KeptOrFits configFamilySize out.family new.family
  address : KeptOrFits configAddressSize out.address new.address

/-- What a caller copies of a target, which has the interfaces `oob` and `inb` before. -/
structure TargetOutFits (oob : OobIface) (inb : PortArg) (new : TargetArg) : Prop where
  name : new.name.length ≤ maxAliasSize
  oobAddress : KeptOrFits configAddressSize oob.address new.oob.address
  inb : PortOutFits inb new.inb

/-- The texts of an interface: the family and the address of an out-of-band one go to the same field. -/
def IfaceFits (newobj : Json) : MgmtMode → Prop
  | .localMgmt => True
  | .outOfBandMgmt => FieldFits newobj tagIffamily configAddressSize ∧ FieldFits newobj tagIfaddress configAddressSize
  | .inBandMgmt => FieldFits newobj tagType configTypeSize ∧ FieldFits newobj tagFamily configFamilySize ∧
      FieldFits newobj tagAddress configAddressSize

/-- The texts after the name of a target, where the entry to be changed has an interface that can be written or none. -/
def TargetFieldsFit (x new : Json) : Prop :=
  FieldFits new tagMgmtMode maxString ∧
    ∀ newobj, new.objectGet tagInterface = some newobj → ((x.objectGet tagInterface).getD (.object [])).isObject = true →
      IfaceFits newobj (modeOf new)

theorem length_cCut_le (n : Nat) (s : String) : (cCut n s).length ≤ n := by
  rw [cCut, String.length_ofList]
  exact List.length_take_le n s.toList

theorem KeptOrFits.trans {size : Nat} {a b c : String} (h : KeptOrFits size a b) (h' : KeptOrFits size b c) :
    KeptOrFits size a c := by
  rcases h' with rfl | h'
  · exact h
  · exact Or.inr h'

section

variable {obj newobj : Json}

theorem updateOobInterface_inside {oob : OobIface} (hobj : obj.isObject = true) (hfamily : TextOrAbsent newobj tagIffamily)
    (haddress : TextOrAbsent newobj tagIfaddress) :
    Well (fun f => f ≠ .outOfBounds) (fun r => KeptOrFits configAddressSize oob.address r.2.address)
        (updateOobInterface obj newobj oob) ↔
      FieldFits newobj tagIffamily configAddressSize ∧ FieldFits newobj tagIfaddress configAddressSize := by
  unfold updateOobInterface
  rw [well_bind]
  refine well_jsonUpdateStringEx hfamily (by simpa using hobj) (fun w' hw' _ hf => ?_)
  rw [well_bind]
  refine (well_jsonUpdateStringEx haddress hw' (fun w'' _ _ ha => ?_)).trans (and_true _).to_iff
  exact iff_true_intro ((hf.kept _).trans (ha.kept _))

theorem updateOobInterface_of_not {oob : OobIface} (hobj : ¬obj.isObject = true) :
    Well (fun f => f ≠ .outOfBounds) (fun r => KeptOrFits configAddressSize oob.address r.2.address)
      (updateOobInterface obj newobj oob) := by
  have hdel : ¬((((obj.objectDel tagType).objectDel tagFamily).objectDel tagAddress).objectDel tagTrsvcid).isObject = true := by
    simpa using hobj
  unfold updateOobInterface
  rw [well_bind]
  refine well_jsonUpdateStringEx_of_not hdel ?_
  rw [well_bind]
  exact well_jsonUpdateStringEx_of_not hdel (Or.inl rfl)

theorem updateInbInterface_inside {inb : PortArg} (hobj : obj.isObject = true) (htype : TextOrAbsent newobj tagType)
    (hfamily : TextOrAbsent newobj tagFamily) (haddress : TextOrAbsent newobj tagAddress) :
    Well (fun f => f ≠ .outOfBounds) (fun r => PortOutFits inb r.2) (updateInbInterface obj newobj inb) ↔
      FieldFits newobj tagType configTypeSize ∧ FieldFits newobj tagFamily configFamilySize ∧
        FieldFits newobj tagAddress configAddressSize := by
  unfold updateInbInterface
  rw [well_bind]
  refine well_jsonUpdateStringEx htype (by simpa using hobj) (fun w₁ hw₁ _ ht => ?_)
  rw [well_bind]
  refine well_jsonUpdateStringEx hfamily hw₁ (fun w₂ hw₂ _ hf => ?_)
  rw [well_bind]
  refine (well_jsonUpdateStringEx haddress hw₂ (fun w₃ _ _ ha => ?_)).trans (and_true _).to_iff
  exact iff_true_intro ⟨ht.kept _, hf.kept _, ha.kept _⟩

theorem updateInbInterface_of_not {inb : PortArg} (hobj : ¬obj.isObject = true) :
    Well (fun f => f ≠ .outOfBounds) (fun r => PortOutFits inb r.2) (updateInbInterface obj newobj inb) := by
  have hdel : ¬(((obj.objectDel tagIffamily).objectDel tagIfaddress).objectDel tagIfport).isObject = true := by
    simpa using hobj
  unfold updateInbInterface
  rw [well_bind]
  refine well_jsonUpdateStringEx_of_not hdel ?_
  rw [well_bind]
  refine well_jsonUpdateStringEx_of_not hdel ?_
  rw [well_bind]
  exact well_jsonUpdateStringEx_of_not hdel ⟨Or.inl rfl, Or.inl rfl, Or.inl rfl⟩

theorem updateInterface_inside {x new : Json} {target : TargetArg} (hnames : NamesAreStrings new)
    (hname : target.name.length ≤ maxAliasSize) :
    Well (fun f => f ≠ .outOfBounds) (fun r => TargetOutFits target.oob target.inb r.2) (updateInterface x new target) ↔
      ∀ newobj, new.objectGet tagInterface = some newobj →
        ((x.objectGet tagInterface).getD (.object [])).isObject = true → IfaceFits newobj target.mgmtMode := by
  have hkept : TargetOutFits target.oob target.inb target := ⟨hname, Or.inl rfl, Or.inl rfl, Or.inl rfl, Or.inl rfl⟩
  have hoob : ∀ mode, ∀ r : Json × OobIface, TargetOutFits target.oob target.inb { target with mgmtMode := mode, oob := r.2 } ↔
      KeptOrFits configAddressSize target.oob.address r.2.address :=
    fun mode r => ⟨fun h => h.oobAddress, fun h => { hkept with oobAddress := h }⟩
  have hinb : ∀ mode, ∀ r : Json × PortArg, TargetOutFits target.oob target.inb { target with mgmtMode := mode, inb := r.2 } ↔
      PortOutFits target.inb r.2 :=
    fun mode r => ⟨fun h => h.inb, fun h => { hkept with inb := h }⟩
  unfold updateInterface
  rcases target.mgmtMode with _ | _ | _
  · exact iff_of_true hkept (fun _ _ _ => trivial)
  · rcases hiface : new.objectGet tagInterface with _ | newobj
    · exact iff_of_true hkept nofun
    · have htext := hnames.iface newobj hiface
      simp only [Option.some.injEq, forall_eq', well_map]
      rw [well_congr (hinb _)]
      by_cases hobj : ((x.objectGet tagInterface).getD (.object [])).isObject = true
      · rw [forall_prop_of_true hobj]
        exact updateInbInterface_inside hobj (htext _ (by decide)) (htext _ (by decide)) (htext _ (by decide))
      · exact iff_of_true (updateInbInterface_of_not hobj) (fun h => absurd h hobj)
  · rcases hiface : new.objectGet tagInterface with _ | newobj
    · exact iff_of_true hkept nofun
    · have htext := hnames.iface newobj hiface
      simp only [Option.some.injEq, forall_eq', well_map]
      rw [well_congr (hoob _)]
      by_cases hobj : ((x.objectGet tagInterface).getD (.object [])).isObject = true
      · rw [forall_prop_of_true hobj]
        exact updateOobInterface_inside hobj (htext _ (by decide)) (htext _ (by decide))
      · exact iff_of_true (updateOobInterface_of_not hobj) (fun h => absurd h hobj)

theorem updateTargetFields_inside {x new : Json} {target : TargetArg} (hobj : x.isObject = true) (hnames : NamesAreStrings new)
    (hname : target.name.length ≤ maxAliasSize) :
    Well (fun f => f ≠ .outOfBounds) (fun r => TargetOutFits target.oob target.inb r.2) (updateTargetFields x new target) ↔
      TargetFieldsFit x new := by
  have hmode : getMgmtMode ((new.strField tagMgmtMode).getD "") = modeOf new := by
    unfold modeOf
    cases new.strField tagMgmtMode <;> rfl
  have hrefresh := objectGet_jsonUpdateIntEx_ne (show tagInterface ≠ tagRefresh by decide) x new target.refresh
  unfold updateTargetFields
  rw [well_bind]
  refine well_jsonUpdateStringEx hnames.mgmtMode ((isObject_jsonUpdateIntEx ..).trans hobj) (fun w _ hget _ => ?_)
  rw [← hrefresh, ← hget _ (by decide), ← hmode]
  exact @updateInterface_inside _ _ { target with refresh := _, mgmtMode := _ } hnames hname

/-- The part of a target update after its name, on the entry at a place. -/
theorem updateJsonTargetFields_inside {root x new : Json} (tgt : Option String) {i : Nat} (buf : String) {target : TargetArg}
    (hnames : NamesAreStrings new) (hx : (root.entries tagTargets)[i]? = some x) (hobj : x.isObject = true) :
    Inside (TargetOutFits target.oob target.inb) (updateJsonTargetFields root new tgt i buf target) ↔ TargetFieldsFit x new := by
  rw [← @updateTargetFields_inside _ _ { target with name := cCut maxAliasSize buf } hobj hnames (length_cCut_le _ _)]
  unfold updateJsonTargetFields
  rw [arrayGet_arrayOr hx]
  rcases updateTargetFields x new { target with name := cCut maxAliasSize buf } with f | ⟨x', target'⟩
  · exact Iff.rfl
  · exact forall_prop_of_true rfl

end

/-- The entry that the URI names, or one without fields. -/
def uriEntry (array : Json) (tag : String) (uri : Option String) : Json :=
  ((uri.bind (findArray array tag)).map (arrayGet array)).getD (.object [])

/-- The name goes to a buffer of `maxString` bytes and is cut to the size of an alias after that. -/
def TargetFits (J : JsonLib) (root : Json) (tgt : Option String) (data : String) : Prop :=
  data ≠ "" → UriFound (root.arrayOr tagTargets) tagAlias tgt → ∀ new, J.loads data = some new →
    ∀ name, chosenName new tgt = some name →
      name.length ≤ maxString ∧
        (Proceeds root tagTargets tagAlias tgt name → TargetFieldsFit (uriEntry (root.arrayOr tagTargets) tagAlias tgt) new)

theorem uriEntry_found {array : Json} {tag name : String} {i : Nat} (h : findArray array tag name = some i) :
    uriEntry array tag (some name) = arrayGet array i := by
  rw [uriEntry, Option.bind_some, h]
  rfl

/-- A new name leaves the interface as it is. -/
theorem targetFieldsFit_renamed {x new : Json} : TargetFieldsFit (jsonUpdateString x new tagAlias) new ↔ TargetFieldsFit x new := by
  unfold TargetFieldsFit
  rw [objectGet_jsonUpdateString_ne (show tagInterface ≠ tagAlias by decide)]

/-- A target that is made has no interface. -/
theorem targetFieldsFit_new {new array : Json} {tag : String} (name : String) :
    TargetFieldsFit (newTarget (some name)) new ↔ TargetFieldsFit (uriEntry array tag none) new := by
  have hiface : (newTarget (some name)).objectGet tagInterface = (uriEntry array tag none).objectGet tagInterface := rfl
  unfold TargetFieldsFit
  rw [hiface]

/-- The place of a renamed target, after the walk over the groups. -/
theorem getElem?_renamedTarget {root x y : Json} {i : Nat} {old newalias : String} (hx : (root.entries tagTargets)[i]? = some x) :
    ((renameInGroups (root.putAt tagTargets i y) tagTargets old newalias).entries tagTargets)[i]? = some y := by
  rw [entries_renameInGroups_ne (by decide), Json.entries_putAt]
  exact List.getElem?_set_self (List.getElem?_eq_some_iff.mp hx).1

theorem updateJsonTargetBody_inside {J : JsonLib} {root : Json} {tgt : Option String} {data : String} {target : TargetArg}
    (hfound : UriFound (root.arrayOr tagTargets) tagAlias tgt)
    (hstrings : ∀ new, J.loads data = some new → NamesAreStrings new) :
    Inside (TargetOutFits target.oob target.inb)
        (updateJsonTargetBody J root tgt (tgt.bind (findArray (root.arrayOr tagTargets) tagAlias)) data target) ↔
      ∀ new, J.loads data = some new → ∀ name, chosenName new tgt = some name →
        name.length ≤ maxString ∧ (Proceeds root tagTargets tagAlias tgt name →
          TargetFieldsFit (uriEntry (root.arrayOr tagTargets) tagAlias tgt) new) := by
  unfold updateJsonTargetBody
  rcases hloads : J.loads data with _ | new
  · exact iff_of_true (inside_invalidJsonSyntax root target) nofun
  · have hnames := hstrings new hloads
    simp only [Option.some.injEq, forall_eq']
    refine @copyName_inside TargetArg (TargetOutFits target.oob target.inb)
      (TargetFieldsFit (uriEntry (root.arrayOr tagTargets) tagAlias tgt) new) root new tagTargets tgt
      (invalidJsonSyntax root target) maxString (fun name => newTarget (some name))
      (fun name => { ret := -eexist, resp := s!"{tagTarget} '{name}' exists", root := root, out := target })
      (fun name => { ret := -efault
                     resp := "Internal logic error"
                     root := root
                     out := { target with name := cCut maxAliasSize name } })
      (fun old i name => renameInGroups (root.putAt tagTargets i
        (jsonUpdateString (arrayGet (root.arrayOr tagTargets) i) new tagAlias)) tagTargets old name)
      (fun root i name => updateJsonTargetFields root new tgt i name target) hfound hnames.name
      einval_ne (fun _ => eexist_ne) (fun _ => efault_ne) ?kept ?renamed ?made
    case kept =>
      rintro old i name rfl hi _
      obtain ⟨hx, hold⟩ := findArray_arrayOr_some hi
      rw [uriEntry_found hi]
      exact updateJsonTargetFields_inside (some old) name hnames hx (Json.isObject_of_strField hold)
    case renamed =>
      rintro old i name rfl hi _
      obtain ⟨hx, hold⟩ := findArray_arrayOr_some hi
      rw [uriEntry_found hi, ← targetFieldsFit_renamed]
      exact updateJsonTargetFields_inside (some old) name hnames (getElem?_renamedTarget hx)
        ((isObject_jsonUpdateString _ new tagAlias).trans (Json.isObject_of_strField hold))
    case made =>
      rintro name rfl hcan _
      rw [← targetFieldsFit_new name]
      exact updateJsonTargetFields_inside none name hnames (Json.getElem?_entries_pushAt hcan _) rfl

theorem updateJsonTarget_inside (J : JsonLib) (root : Json) (tgt : Option String) (data : String) (target : TargetArg)
    (hstrings : ∀ new, J.loads data = some new → NamesAreStrings new) :
    Inside (TargetOutFits target.oob target.inb) (updateJsonTarget J root tgt data target) ↔ TargetFits J root tgt data := by
  have hlook : updateJsonTarget J root tgt data target =
      lookUp (root.arrayOr tagTargets) tagAlias tgt data (invalidJsonSyntax root target)
        (fun t => { ret := -enoent, resp := s!"{tagTarget} '{t}' not found", root := root.ensureArray tagTargets, out := target })
        (fun tgt at? => updateJsonTargetBody J (root.ensureArray tagTargets) tgt at? data target) := by
    cases tgt <;> rfl
  rw [hlook, TargetFits]
  refine lookUp_inside einval_ne (fun _ => enoent_ne) (fun hfound => ?_)
  rw [← Json.arrayOr_ensureArray root tagTargets] at hfound ⊢
  rw [updateJsonTargetBody_inside hfound hstrings]
  simp only [proceeds_ensureArray]

/-! ## Looking up what a target has -/

/-- The array `key` of the target `tgt`, which the functions for what a target has look through. -/
def targetArray (root : Json) (tgt key : String) : Option Json :=
  (root.objectGet tagTargets).bind (fun targets =>
    (findArray targets tagAlias tgt).bind (fun i => (jsonGetArray (arrayGet targets i) key).2))

section

variable {α : Type} {post : α → Prop} {root : Json} {tgt key : String} {noTargets noTarget noArray : Reply α}
  {go : Nat → Json → Json → Except Fault (Reply α)} {fits : Json → Prop}

/-- The start of a request for something of a target: the target and its array are looked up. -/
def inTarget (root : Json) (tgt key : String) (noTargets noTarget noArray : Reply α)
    (go : Nat → Json → Json → Except Fault (Reply α)) : Except Fault (Reply α) :=
  match root.objectGet tagTargets with
  | none => .ok noTargets
  | some targets =>
    match findArray targets tagAlias tgt with
    | none => .ok noTarget
    | some i =>
      match jsonGetArray (arrayGet targets i) key with
      | (_, none) => .ok noArray
      | (obj, some array) => go i obj array

theorem inTarget_inside (hnoTargets : noTargets.ret ≠ 0) (hnoTarget : noTarget.ret ≠ 0) (hnoArray : noArray.ret ≠ 0)
    (hgo : ∀ i obj array, Inside post (go i obj array) ↔ fits array) :
    Inside post (inTarget root tgt key noTargets noTarget noArray go) ↔
      ∀ array, targetArray root tgt key = some array → fits array := by
  unfold inTarget targetArray
  rcases root.objectGet tagTargets with _ | targets
  · exact iff_of_true (inside_refused hnoTargets) nofun
  · simp only [Option.bind_some]
    rcases findArray targets tagAlias tgt with _ | i
    · exact iff_of_true (inside_refused hnoTarget) nofun
    · simp only [Option.bind_some]
      rcases jsonGetArray (arrayGet targets i) key with ⟨obj, _ | array⟩
      · exact iff_of_true (inside_refused hnoArray) nofun
      · simp only [Option.some.injEq, forall_eq']
        exact hgo i obj array

end

/-! ## Subsystems -/

/-- A body gives an NQN that another subsystem of the target has. -/
def NqnTaken (array new : Json) (subnqn : Option String) : Prop :=
  ∃ nqn, new.strField tagSubnqn = some nqn ∧ (findArray array tagSubnqn nqn).isSome = true ∧ subnqn ≠ some nqn

/-- Both NQNs go to a buffer of `maxString` bytes, the one of the URI when the one of the body is not refused. -/
def SubsysFits (J : JsonLib) (root : Json) (tgt : String) (subnqn : Option String) (data : String) : Prop :=
  ∀ array, targetArray root tgt tagSubsystems = some array → data ≠ "" → UriFound array tagSubnqn subnqn →
    ∀ new, J.loads data = some new →
      FieldFits new tagSubnqn maxString ∧
        ∀ old, subnqn = some old → ¬NqnTaken array new subnqn → old.length ≤ maxString

/-- What a caller copies of a subsystem. -/
def SubsysOutFits (subsys new : SubsysArg) : Prop := KeptOrFits maxNqnSize subsys.nqn new.nqn

theorem changeJsonSubsys_inside {root obj array new : Json} {tgt old : String} {i j : Nat} {subsys : SubsysArg}
    (hj : findArray array tagSubnqn old = some j) (hnqn : TextOrAbsent new tagSubnqn) (hfits : FieldFits new tagSubnqn maxString) :
    Inside (SubsysOutFits subsys) (changeJsonSubsys root tgt old i j obj array new subsys) ↔ old.length ≤ maxString := by
  have hobj : (arrayGet array j).isObject = true := Json.isObject_of_strField (findArray_some hj).2
  have hlong : FieldFits new tagSubnqn maxNqnSize := fun s hs => Nat.le_trans (hfits s hs) (by decide)
  unfold changeJsonSubsys
  by_cases hold : old.length ≤ maxString
  · have hcopy := (@well_jsonUpdateStringEx (arrayGet array j) new tagSubnqn maxNqnSize old
      (fun p => KeptOrFits maxNqnSize subsys.nqn p.2) True hnqn hobj (fun w _ _ _ => iff_true_intro
        (KeptOrFits.trans (Or.inr (Nat.le_trans hold (by decide))) (hlong.kept old)))).mpr ⟨hlong, trivial⟩
    rw [strcpy_of_le hold]
    dsimp only
    refine iff_of_true ?_ hold
    rcases hupd : jsonUpdateStringEx (arrayGet array j) new tagSubnqn maxNqnSize old with f | ⟨iter, newnqn⟩
    · rw [hupd] at hcopy
      exact hcopy
    · rw [hupd] at hcopy
      exact fun _ => hcopy
  · rw [strcpy_of_not_le hold]
    exact iff_of_false (fun h => h rfl) hold

theorem setJsonSubsysBody_inside {J : JsonLib} {root obj array : Json} {tgt data : String} {subnqn : Option String} {i : Nat}
    {at? : Option Nat} {subsys : SubsysArg} (hat : at? = subnqn.bind (findArray array tagSubnqn))
    (hfound : UriFound array tagSubnqn subnqn) (hnqn : ∀ new, J.loads data = some new → TextOrAbsent new tagSubnqn) :
    Inside (SubsysOutFits subsys) (setJsonSubsysBody J root tgt subnqn i obj array at? data subsys) ↔
      ∀ new, J.loads data = some new →
        FieldFits new tagSubnqn maxString ∧
          ∀ old, subnqn = some old → ¬NqnTaken array new subnqn → old.length ≤ maxString := by
  unfold setJsonSubsysBody
  rcases hloads : J.loads data with _ | new
  · refine iff_of_true (inside_invalidJsonSyntax _ subsys) (fun new hnew => ?_)
    cases hnew
  · simp only [Option.some.injEq, forall_eq']
    rcases hnqn new hloads with htext | habsent
    · obtain ⟨nqn, hs⟩ := Option.isSome_iff_exists.mp htext
      have hfield : FieldFits new tagSubnqn maxString ↔ nqn.length ≤ maxString := by
        unfold FieldFits
        simp only [hs, Option.some.injEq, forall_eq']
      have htaken : NqnTaken array new subnqn ↔ (findArray array tagSubnqn nqn).isSome = true ∧ subnqn ≠ some nqn := by
        unfold NqnTaken
        simp only [hs, Option.some.injEq, exists_eq_left']
      rw [Json.objectGet_of_strField hs]
      simp only [Option.map_some, Json.stringValue]
      by_cases hfits : nqn.length ≤ maxString
      · rw [strcpy_of_le hfits, and_iff_right (hfield.mpr hfits)]
        dsimp only
        by_cases hrefused : ((findArray array tagSubnqn nqn).isSome && decide (subnqn ≠ some nqn)) = true
        · have htk : NqnTaken array new subnqn := by simpa [htaken] using hrefused
          rw [if_pos hrefused]
          exact iff_of_true (inside_refused eexist_ne) (fun _ _ hfree => absurd htk hfree)
        · have hfree : ¬NqnTaken array new subnqn := by simpa [htaken] using hrefused
          rw [if_neg hrefused]
          rcases subnqn with _ | old
          · refine iff_of_true (fun _ => Or.inr (Nat.le_trans hfits (by decide))) (fun old hold => ?_)
            cases hold
          · obtain ⟨j, hj⟩ := Option.isSome_iff_exists.mp (hfound old rfl)
            have hat' : at? = some j := hat.trans hj
            simp only [hat', Option.some.injEq, forall_eq', forall_prop_of_true hfree]
            exact changeJsonSubsys_inside hj (hnqn new hloads) (hfield.mpr hfits)
      · rw [strcpy_of_not_le hfits]
        exact iff_of_false (fun h => h rfl) (fun h => hfits (hfield.mp h.1))
    · have hnone : new.strField tagSubnqn = none := strField_of_none habsent
      have hfield : FieldFits new tagSubnqn maxString := by
        intro s hs
        rw [hnone] at hs
        cases hs
      have hfree : ¬NqnTaken array new subnqn := by
        rintro ⟨nqn, hs, -⟩
        rw [hnone] at hs
        cases hs
      simp only [habsent, Option.map_none, and_iff_right hfield]
      rcases subnqn with _ | old
      · refine iff_of_true (inside_refused einval_ne) (fun old hold => ?_)
        cases hold
      · obtain ⟨j, hj⟩ := Option.isSome_iff_exists.mp (hfound old rfl)
        have hat' : at? = some j := hat.trans hj
        simp only [hat', Option.some.injEq, forall_eq', forall_prop_of_true hfree]
        exact changeJsonSubsys_inside hj (hnqn new hloads) hfield

theorem setJsonSubsys_inside (J : JsonLib) (root : Json) (tgt : String) (subnqn : Option String) (data : String) (subsys : SubsysArg)
    (hnqn : ∀ new, J.loads data = some new → TextOrAbsent new tagSubnqn) :
    Inside (SubsysOutFits subsys) (setJsonSubsys J root tgt subnqn data subsys) ↔ SubsysFits J root tgt subnqn data := by
  unfold setJsonSubsys SubsysFits
  refine @inTarget_inside SubsysArg (SubsysOutFits subsys) root tgt tagSubsystems _ _ _ _ _ enoent_ne
    enoent_ne einval_ne (fun i obj array => ?_)
  rcases subnqn with _ | old
  · rw [forall_prop_of_true (uriFound_none _ _)]
    by_cases hdata : data = ""
    · rw [if_pos hdata]
      exact iff_of_true (inside_refused einval_ne) (fun h => absurd hdata h)
    · rw [if_neg hdata, forall_prop_of_true hdata]
      exact setJsonSubsysBody_inside rfl (uriFound_none _ _) hnqn
  · simp only [uriFound_some_iff]
    rcases hj : findArray array tagSubnqn old with _ | j
    · exact iff_of_true (inside_refused enoent_ne) (fun _ => nofun)
    · have hfound : UriFound array tagSubnqn (some old) := uriFound_some_iff.mpr (by rw [hj]; rfl)
      dsimp only
      rw [forall_prop_of_true Option.isSome_some]
      by_cases hdata : data = ""
      · rw [if_pos hdata]
        exact iff_of_true (fun _ => Or.inl rfl) (fun h => absurd hdata h)
      · rw [if_neg hdata, forall_prop_of_true hdata]
        exact setJsonSubsysBody_inside hj.symm hfound hnqn

/-! ## Ports -/

/-- The texts of a body that go to the fields of a port. -/
def PortFieldsFit (new : Json) : Prop :=
  FieldFits new tagType configTypeSize ∧ FieldFits new tagAddress configAddressSize ∧ FieldFits new tagFamily configFamilySize

/-- A request for a port copies its texts when it has an id. -/
def PortFits (J : JsonLib) (root : Json) (tgt : String) (id : Int) (data : String) : Prop :=
  ∀ array, targetArray root tgt tagPortids = some array → data ≠ "" →
    ∀ new, J.loads data = some new → requestPortid id new ≠ 0 → PortFieldsFit new

theorem updatePortFields_inside {iter new : Json} {portid : PortArg} (hobj : iter.isObject = true) (hnames : NamesAreStrings new) :
    Well (fun f => f ≠ .outOfBounds) (fun r => PortOutFits portid r.2) (updatePortFields iter new portid) ↔ PortFieldsFit new := by
  unfold updatePortFields
  rw [well_bind]
  refine well_jsonUpdateStringEx hnames.type ((isObject_jsonUpdateIntEx ..).trans hobj) (fun w₁ hw₁ _ ht => ?_)
  rw [well_bind]
  refine well_jsonUpdateStringEx hnames.address hw₁ (fun w₂ hw₂ _ ha => ?_)
  rw [well_bind]
  refine (well_jsonUpdateStringEx hnames.family hw₂ (fun w₃ _ _ hf => ?_)).trans (and_true _).to_iff
  exact iff_true_intro ⟨ht.kept _, hf.kept _, ha.kept _⟩

theorem setJsonPortidBody_inside {root obj array new : Json} {tgt : String} {id : Int} {i : Nat} {portid : PortArg}
    (hnames : NamesAreStrings new) :
    Inside (PortOutFits portid) (setJsonPortidBody root tgt id i obj array new portid) ↔ PortFieldsFit new := by
  unfold setJsonPortidBody
  rcases hfind : findArrayInt array tagPortid id with _ | j
  · rw [← @updatePortFields_inside (newPort id) new portid rfl hnames]
    dsimp only
    rcases updatePortFields (newPort id) new portid with f | ⟨iter, port⟩
    · exact Iff.rfl
    · exact forall_prop_of_true rfl
  · rw [← @updatePortFields_inside (arrayGet array j) new portid (Json.isObject_of_intField (findArrayInt_some hfind).2) hnames]
    dsimp only
    rcases updatePortFields (arrayGet array j) new portid with f | ⟨iter, port⟩
    · exact Iff.rfl
    · exact forall_prop_of_true rfl

theorem setJsonPortid_inside (J : JsonLib) (root : Json) (tgt : String) (id : Int) (data : String) (portid : PortArg)
    (hnames : ∀ new, J.loads data = some new → NamesAreStrings new) :
    Inside (PortOutFits portid) (setJsonPortid J root tgt id data portid) ↔ PortFits J root tgt id data := by
  unfold setJsonPortid PortFits
  refine @inTarget_inside PortArg (PortOutFits portid) root tgt tagPortids _ _ _ _ _ enoent_ne
    enoent_ne einval_ne (fun i obj array => ?_)
  by_cases hdata : data = ""
  · rw [if_pos hdata]
    exact iff_of_true (inside_refused einval_ne) (fun h => absurd hdata h)
  · rw [if_neg hdata, forall_prop_of_true hdata]
    rcases hloads : J.loads data with _ | new
    · exact iff_of_true (inside_invalidJsonSyntax _ portid) nofun
    · simp only [Option.some.injEq, forall_eq']
      by_cases hid : requestPortid id new = 0
      · rw [if_pos hid]
        exact iff_of_true (inside_refused einval_ne) (fun h => absurd hid h)
      · rw [if_neg hid, forall_prop_of_true hid]
        exact setJsonPortidBody_inside (hnames new hloads)

/-! ## Access lists -/

/-- The alias of the host that an access request gives, in its URI or in its body. -/
def aclName (J : JsonLib) (host : Option String) (data : String) : Option String :=
  host.or ((J.loads data).bind (Json.strField tagAlias))

/-- The NQN of a host that is to be put on a list goes to a buffer of `maxNqnSize` bytes. -/
def AclNqnFits (hosts sub : Json) (name : String) : Prop :=
  ∀ h, findArray hosts tagAlias name = some h → findArrayString (sub.arrayOr tagHosts) name = none →
    FieldFits (arrayGet hosts h) tagHostnqn maxNqnSize

/-- The alias goes to a buffer of `maxAliasSize` bytes. -/
def AclFits (J : JsonLib) (root : Json) (tgt subnqn : String) (host : Option String) (data : String) : Prop :=
  ∀ hosts, root.objectGet tagHosts = some hosts → ∀ array, targetArray root tgt tagSubsystems = some array →
    ∀ j, findArray array tagSubnqn subnqn = some j → ∀ name, aclName J host data = some name →
      name.length ≤ maxAliasSize ∧ AclNqnFits hosts (arrayGet array j) name

theorem setJsonAclBody_inside {root hosts obj sub : Json} {tgt subnqn newalias : String} {i j : Nat} {out : HostOut}
    (hname : newalias.length ≤ maxAliasSize) :
    Inside (HostOutFits out) (setJsonAclBody root hosts tgt subnqn newalias i j obj sub out) ↔ AclNqnFits hosts sub newalias := by
  unfold setJsonAclBody AclNqnFits
  rcases findArray hosts tagAlias newalias with _ | h
  · exact iff_of_true (inside_refused enoent_ne) nofun
  · simp only [Option.some.injEq, forall_eq']
    rcases findArrayString (sub.arrayOr tagHosts) newalias with _ | k
    · simp only [Option.isSome_none, Bool.false_eq_true, if_false, forall_prop_of_true]
      rcases hvalue : (arrayGet hosts h).objectGet tagHostnqn with _ | value
      · refine iff_of_true (inside_refused einval_ne) (fun s hs => ?_)
        rw [strField_of_none hvalue] at hs
        cases hs
      · unfold FieldFits
        rw [strField_of_some hvalue]
        dsimp only
        rcases value.stringValue with _ | nqn
        · exact iff_of_true nullString_ne nofun
        · simp only [Option.some.injEq, forall_eq']
          by_cases hfits : nqn.length ≤ maxNqnSize
          · rw [strcpy_of_le hfits]
            exact iff_of_true (fun _ => ⟨hname, Or.inr hfits⟩) hfits
          · rw [strcpy_of_not_le hfits]
            exact iff_of_false (fun h => h rfl) hfits
    · exact iff_of_true (inside_refused eexist_ne) nofun

/-- The alias of an access request is copied first of all. -/
theorem aclAlias_eq (J : JsonLib) (host : Option String) (data : String) :
    (∃ name, aclName J host data = some name ∧ aclAlias J host data = some (strcpy maxAliasSize (some name))) ∨
      (aclName J host data = none ∧ (aclAlias J host data = none ∨ aclAlias J host data = some (.error .nullString))) := by
  unfold aclName aclAlias
  rcases host with _ | name
  · rcases J.loads data with _ | new
    · exact Or.inr ⟨rfl, Or.inl rfl⟩
    · rcases hvalue : new.objectGet tagAlias with _ | value
      · exact Or.inr ⟨strField_of_none hvalue, Or.inl (by rw [Option.bind_some, hvalue]; rfl)⟩
      · have hfield := strField_of_some hvalue
        rcases hs : value.stringValue with _ | name
        · refine Or.inr ⟨hfield.trans hs, Or.inr ?_⟩
          rw [Option.bind_some, hvalue, Option.map_some, hs]
          rfl
        · refine Or.inl ⟨name, hfield.trans hs, ?_⟩
          rw [Option.bind_some, hvalue, Option.map_some, hs]
  · exact Or.inl ⟨name, rfl, rfl⟩

theorem setJsonAcl_inside (J : JsonLib) (root : Json) (tgt subnqn : String) (host : Option String) (data : String) (out : HostOut) :
    Inside (HostOutFits out) (setJsonAcl J root tgt subnqn host data out) ↔ AclFits J root tgt subnqn host data := by
  unfold setJsonAcl AclFits
  rcases root.objectGet tagHosts with _ | hosts
  · exact iff_of_true (inside_refused enoent_ne) nofun
  · simp only [Option.some.injEq, forall_eq']
    refine @inTarget_inside HostOut (HostOutFits out) root tgt tagSubsystems _ _ _ _ _ enoent_ne
      enoent_ne enoent_ne (fun i obj array => ?_)
    rcases findArray array tagSubnqn subnqn with _ | j
    · exact iff_of_true (inside_refused enoent_ne) nofun
    · simp only [Option.some.injEq, forall_eq']
      rcases aclAlias_eq J host data with ⟨name, hname, halias⟩ | ⟨hname, halias | halias⟩
      · simp only [hname, halias, Option.some.injEq, forall_eq']
        by_cases hfits : name.length ≤ maxAliasSize
        · rw [strcpy_of_le hfits, and_iff_right hfits]
          exact setJsonAclBody_inside hfits
        · rw [strcpy_of_not_le hfits]
          exact iff_of_false (fun h => h rfl) (fun h => hfits h.1)
      · rw [hname, halias]
        exact iff_of_true (inside_invalidJsonSyntax _ out) nofun
      · rw [hname, halias]
        exact iff_of_true nullString_ne nofun

/-! ## All requests -/

/-- The texts of a request are copied inside the arrays, here and by the caller, exactly if each is as short as its buffers are. -/
theorem request_copies_iff (J : JsonLib) (root : Json) (data : String)
    (hnames : ∀ new, J.loads data = some new → NamesAreStrings new) (uri : Option String) (tgt subnqn name : String)
    (id : Int) (host : HostOut) (subsys : SubsysArg) (portid : PortArg) (target : TargetArg) :
    (Inside (fun out => out.length ≤ maxAliasSize) (updateJsonGroup J root uri data name) ↔ GroupFits J root uri data) ∧
      (Inside (HostOutFits host) (updateJsonHost J root uri data host) ↔ HostFits J root uri data) ∧
      (Inside (SubsysOutFits subsys) (setJsonSubsys J root tgt uri data subsys) ↔ SubsysFits J root tgt uri data) ∧
      (Inside (PortOutFits portid) (setJsonPortid J root tgt id data portid) ↔ PortFits J root tgt id data) ∧
      (Inside (TargetOutFits target.oob target.inb) (updateJsonTarget J root uri data target) ↔ TargetFits J root uri data) ∧
      (Inside (HostOutFits host) (setJsonAcl J root tgt subnqn uri data host) ↔ AclFits J root tgt subnqn uri data) :=
  ⟨updateJsonGroup_inside J root uri data name,
    updateJsonHost_inside J root uri data host (fun new hnew => ⟨(hnames new hnew).name, (hnames new hnew).hostnqn⟩),
    setJsonSubsys_inside J root tgt uri data subsys (fun new hnew => (hnames new hnew).subnqn),
    setJsonPortid_inside J root tgt id data portid hnames, updateJsonTarget_inside J root uri data target hnames,
    setJsonAcl_inside J root tgt subnqn uri data host⟩

/-- A store with a target that has no subsystem. -/
def bareTarget : Json := .object [(tagTargets, .array [.object [(tagAlias, .string "t")]])]

/-- The text of a body that gives an NQN. -/
def subnqnText (nqn : String) : String := "\x7b\"SUBNQN\":\"" ++ nqn ++ "\"\x7d"

def subnqnBody (nqn : String) : JsonLib := .ofTexts [(subnqnText nqn, .object [(tagSubnqn, .string nqn)])]

/-- An NQN of as many letters. -/
def lettersNqn (n : Nat) : String := String.ofList (List.replicate n 'n')

theorem length_lettersNqn (n : Nat) : (lettersNqn n).length = n := by
  rw [lettersNqn, String.length_ofList, List.length_replicate]

theorem subnqnBody_fits {n size : Nat} (h : n ≤ size) :
    FieldFits (.object [(tagSubnqn, .string (lettersNqn n))]) tagSubnqn size := by
  intro s hs
  rw [← Option.some.inj (show some (lettersNqn n) = some s from hs), length_lettersNqn]
  exact h

theorem length_subnqnText (nqn : String) : (subnqnText nqn).length = 11 + nqn.length + 2 := by
  rw [subnqnText, String.length_append, String.length_append]
  rfl

theorem subnqnText_ne (nqn : String) : subnqnText nqn ≠ "" := by
  intro h
  have hlen := length_subnqnText nqn
  rw [h] at hlen
  cases hlen

theorem subnqnBody_loads (nqn : String) :
    (subnqnBody nqn).loads (subnqnText nqn) = some (.object [(tagSubnqn, .string nqn)]) := by
  simp [subnqnBody, JsonLib.ofTexts]

theorem subnqnBody_names {nqn : String} {new : Json} (h : (subnqnBody nqn).loads (subnqnText nqn) = some new) :
    new = .object [(tagSubnqn, .string nqn)] ∧ NamesAreStrings new := by
  rw [subnqnBody_loads] at h
  cases h
  exact ⟨rfl, ⟨Or.inr rfl, Or.inr rfl, Or.inl rfl, Or.inr rfl, Or.inr rfl, Or.inr rfl, Or.inr rfl, nofun⟩⟩

/-- A subsystem with an NQN of 100 bytes is made. -/
theorem request_copies_hundred :
    Inside (SubsysOutFits ⟨"", undefinedAccess⟩)
      (setJsonSubsys (subnqnBody (lettersNqn 100)) bareTarget "t" none (subnqnText (lettersNqn 100)) ⟨"", undefinedAccess⟩) := by
  refine (@request_copies_iff (subnqnBody (lettersNqn 100)) bareTarget (subnqnText (lettersNqn 100))
    (fun _ h => (subnqnBody_names h).2) none "t" "" "" 0 ⟨"", ""⟩ ⟨"", undefinedAccess⟩ ⟨0, "", "", "", 0⟩
    ⟨"", 0, .localMgmt, ⟨"", 0⟩, ⟨0, "", "", "", 0⟩⟩).2.2.1.mpr ?_
  rintro array - - - new hnew
  obtain ⟨rfl, -⟩ := subnqnBody_names hnew
  exact ⟨subnqnBody_fits (by decide), nofun⟩

/-- The request that makes the subsystem writes outside when the NQN is longer than `maxString`. -/
theorem setJsonSubsys_long {n : Nat} (h : ¬n ≤ maxString) (subsys : SubsysArg) :
    ¬Inside (SubsysOutFits subsys)
      (setJsonSubsys (subnqnBody (lettersNqn n)) bareTarget "t" none (subnqnText (lettersNqn n)) subsys) := by
  intro hinside
  have hfits := (setJsonSubsys_inside _ _ _ _ _ _ (fun _ hnew => (subnqnBody_names hnew).2.subnqn)).mp hinside
  have hshort := (hfits (.array []) rfl (subnqnText_ne _) (uriFound_none _ _) _ (subnqnBody_loads _)).1 (lettersNqn n) rfl
  rw [length_lettersNqn] at hshort
  exact h hshort

/-- An NQN of 200 bytes, which is a legal length, in a body of 213 bytes. -/
theorem long_nqn_overflow :
    ¬∀ (J : JsonLib) (root : Json) (tgt : String) (subnqn : Option String) (data : String) (subsys : SubsysArg),
      data.length ≤ 512 → (∀ new, J.loads data = some new → NamesAreStrings new ∧ FieldFits new tagSubnqn maxNqnSize) →
      Inside (SubsysOutFits subsys) (setJsonSubsys J root tgt subnqn data subsys) := by
  intro h
  have hlong : ∀ n, 13 + n ≤ 512 → n ≤ maxNqnSize → n ≤ maxString := by
    intro n hbody hlegal
    have hlen : (subnqnText (lettersNqn n)).length ≤ 512 := by
      rw [length_subnqnText, length_lettersNqn]
      omega
    by_contra hn
    refine setJsonSubsys_long hn ⟨"", undefinedAccess⟩ (h _ _ _ _ _ _ hlen (fun new hnew => ?_))
    obtain ⟨rfl, hnames⟩ := subnqnBody_names hnew
    exact ⟨hnames, subnqnBody_fits hlegal⟩
  exact absurd (hlong 200 (by decide) (by decide)) (by decide)

end NvmeDem
