import NvmeDem.Lib.JsonText
import NvmeDem.Theorems.Listing
import Mathlib.Data.List.TakeWhile

/-!
# Whether a list of names is the JSON it should be

The names go into the buffer as they are, in quotes and with commas between them. A client that reads the text gets the names that match
the query, each once and in the order of the store, exactly when

- the names differ, and none of them has a quote, a backslash or a control character,
- no entry with such a name is behind those that an `int` can count,
- for the lists of all names, the first entry has a name, because a name behind it gets its comma from its place in the array,
- for the list of a fabric, each target that matches has one port of the type, because its name is written for each of them.
-/

namespace NvmeDem

open Jansson
open Buffer
open JsonText

/-- The text says these names under the tag, each of them once. -/
def Says (tag : String) (names : List String) (resp : Block Char) : Prop :=
  IsText (namesValue tag names) (resp.text nul) ∧ names.Nodup

/-! ## The names that match -/

def modeTarget (mode : String) (iter : Json) : Bool := iter.strField tagMgmtMode = some mode

/-- A target with at least one port of the type. -/
def fabricTarget (type : String) (iter : Json) : Bool := (iter.entries tagPortids).any (fun obj => obj.strField tagType = some type)

/-- Whether a target matches a query. -/
def matchesQuery (query : Option String) (iter : Json) : Bool :=
  match query with
  | none => true
  | some query =>
    if hasParm query uriParmMode then modeTarget (parmValue query parmModeLen) iter
    else fabricTarget (parmValue query parmFabricLen) iter

/-- The names in an array, of the entries that match. -/
def matching (choose : Json → Bool) (tag : String) (array : List Json) : List String := (array.filter choose).filterMap (Json.strField tag)

/-- The names differ, need no escape, and belong to entries that the loop comes to. -/
structure Listable (choose : Json → Bool) (tag : String) (array : List Json) : Prop where
  differ : (matching choose tag array).Nodup
  plain : ∀ name ∈ matching choose tag array, Plain name.toList
  reached : matching choose tag (array.drop (cInt array.length).toNat) = []

/-- The first entry has a name, or none has. -/
def FirstNamed (tag : String) (array : List Json) : Prop :=
  (array.head?.bind (Json.strField tag)).isSome = true ∨ array.filterMap (Json.strField tag) = []

/-- How many ports of the type a loop comes to in a target. -/
def portCount (type : String) (iter : Json) : Nat :=
  ((counted (iter.entries tagPortids)).filter (fun obj => obj.strField tagType = some type)).length

/-- Each target of the type with an alias has one port of the type. -/
def OnePortEach (type : String) (array : List Json) : Prop :=
  ∀ iter ∈ array, fabricTarget type iter = true → (iter.strField tagAlias).isSome = true → portCount type iter = 1

/-- What else a list needs. -/
def QueryFits (query : Option String) (array : List Json) : Prop :=
  match query with
  | none => FirstNamed tagAlias array
  | some query =>
    if hasParm query uriParmMode then True else OnePortEach (parmValue query parmFabricLen) array

/-! ## The text in the buffer -/

/-- Names behind the first, each with its comma. -/
def following (names : List String) : List Char := names.flatMap (fun name => ',' :: '"' :: (name.toList ++ ['"']))

theorem quoted_following (name : String) (names : List String) :
    quoted ((name :: names).map String.toList) = '"' :: (name.toList ++ '"' :: following names) := by
  induction names generalizing name with
  | nil => rfl
  | cons name' names ih =>
    show '"' :: (name.toList ++ '"' :: ',' :: quoted ((name' :: names).map String.toList)) = _
    rw [ih]
    simp [following]

theorem toList_arrayJsonString (i : Nat) (name : String) :
    (arrayJsonString i name).toList = (if i = 0 then [] else [',']) ++ '"' :: (name.toList ++ ['"']) := by
  have hquote : "\"".toList = ['"'] := rfl
  unfold arrayJsonString
  split
  · simp [String.toList_append, hquote]
  · simp [String.toList_append, hquote]

/-- All the texts as one. -/
def joinedText (texts : List String) : List Char := (texts.map String.toList).flatten

theorem joinedText_cons (text : String) (texts : List String) : joinedText (text :: texts) = text.toList ++ joinedText texts := rfl

theorem joinedText_zipIdx (names : List String) (i : Nat) :
    joinedText ((names.zipIdx (i + 1)).map (fun name => arrayJsonString name.2 name.1)) = following names := by
  induction names generalizing i with
  | nil => rfl
  | cons name names ih =>
    rw [List.zipIdx_cons, List.map_cons, joinedText_cons, ih, toList_arrayJsonString]
    simp [following]

theorem joinedText_writeNames (names : List String) : joinedText (writeNames names) = quoted (names.map String.toList) := by
  unfold writeNames
  rcases names with _ | ⟨name, names⟩
  · rfl
  · rw [List.zipIdx_cons, List.map_cons, joinedText_cons, joinedText_zipIdx, toList_arrayJsonString, quoted_following]
    simp

theorem joinedText_entries (tag : String) (array : List Json) (i : Nat) :
    joinedText ((array.zipIdx (i + 1)).filterMap (listEntry tag)) = following (array.filterMap (Json.strField tag)) := by
  induction array generalizing i with
  | nil => rfl
  | cons iter array ih =>
    rw [List.zipIdx_cons]
    rcases hname : iter.strField tag with _ | obj
    · have htext : listEntry tag (iter, i + 1) = none := by rw [listEntry, hname]; rfl
      rw [List.filterMap_cons_none htext, List.filterMap_cons_none hname, ih]
    · have htext : listEntry tag (iter, i + 1) = some (arrayJsonString (i + 1) obj) := by rw [listEntry, hname]; rfl
      rw [List.filterMap_cons_some htext, List.filterMap_cons_some hname, joinedText_cons, ih, toList_arrayJsonString]
      simp [following]

theorem sprintfs_front {texts : List String} {p p' : Nat} {b b' : Block Char} (h : sprintfs texts p b = some (p', b')) :
    b'.front p' = b.front p ++ joinedText texts ∧ (texts ≠ [] → b'.cell p' = nul) := by
  obtain ⟨hfront, hcell⟩ := puts_front h
  exact ⟨hfront, fun hne => hcell (fun hnil => hne (List.map_eq_nil_iff.mp hnil))⟩

theorem joinedText_opening (tag : String) : joinedText ["\x7b", startJsonArray tag] = opening tag := by
  have hquote : "\"".toList = ['"'] := rfl
  have hbrace : "\x7b".toList = ['\x7b'] := rfl
  have hopen : "\":[".toList = ['"', ':', '['] := rfl
  simp [joinedText, startJsonArray, opening, String.toList_append, hquote, hbrace, hopen]

theorem joinedText_closing : joinedText [endJsonArray, "\x7d"] = [']', '\x7d'] := rfl

/-- What the buffer says when there is memory for a larger one. -/
theorem listJson_text {tag nameTag : String} {root : Json} {fresh : Nat → Char} {texts : List Json → List String} {resp : Block Char}
    (htag : tag.length ≤ 100) (hnil : texts [] = [])
    (h : listJson tag nameTag (fun array _ p resp => sprintfs (texts array) p resp) root (some fresh) = .ok resp) :
    resp.text nul = (opening tag ++ (joinedText (texts (root.entries tag)) ++ [']', '\x7d'])).takeWhile (· ≠ nul) := by
  obtain ⟨p, hlist⟩ : ∃ p, listText tag nameTag (fun array _ p resp => sprintfs (texts array) p resp) root (some fresh) =
      some (p, resp) := by
    unfold listJson at h
    split at h
    · cases h
    · rename_i p resp' hlist
      exact ⟨p, by rw [hlist, Except.ok.inj h]⟩
  rw [listText_eq] at hlist
  obtain ⟨⟨p₁, b₁⟩, hstart, hlist⟩ := Option.bind_eq_some_iff.mp hlist
  obtain ⟨⟨p₂, b₂⟩, hwrite, hend⟩ := Option.bind_eq_some_iff.mp hlist
  obtain ⟨hfront₁, -⟩ := sprintfs_front hstart
  obtain ⟨hp₁, hsize₁⟩ := sprintfs_eq_some hstart
  obtain ⟨hfront, hcell⟩ := sprintfs_front hend
  have hfront₂ : b₂.front p₂ = b₁.front p₁ ++ joinedText (texts (root.entries tag)) := by
    rcases harray : root.objectGet tag with _ | array
    · rw [harray] at hwrite
      obtain ⟨rfl, rfl⟩ := Prod.mk.inj (Option.some.inj hwrite)
      rw [(entries_of_none nameTag harray).1, hnil]
      simp [joinedText]
    · rw [harray] at hwrite
      rw [entries_of_objectGet harray]
      by_cases hn : 992 < strlenArray array.elems nameTag
      · rw [growAndWrite_large hn] at hwrite
        have hroom : p₁ ≤ b₁.size := by
          have hbrace : "\x7b".length = 1 := rfl
          have hbody : newResp.size = 1024 := rfl
          rw [hp₁, hsize₁, hbody, written_cons, written_cons, written_nil, length_startJsonArray, hbrace]
          omega
        rw [(sprintfs_front hwrite).1, resize_front b₁ hroom]
      · rw [growAndWrite_small (Int.not_lt.mp hn)] at hwrite
        exact (sprintfs_front hwrite).1
  have hlt : p < resp.size := by
    obtain ⟨hp, hsize⟩ := sprintfs_eq_some hend
    have hfits := (sprintfs_isSome_iff (List.cons_ne_nil endJsonArray ["\x7d"])).mp (Option.isSome_iff_exists.mpr ⟨_, hend⟩)
    rw [hp, hsize]
    exact hfits
  have hzero : newResp.front 0 = [] := rfl
  rw [text_eq hlt (hcell (List.cons_ne_nil _ _)), hfront, hfront₂, hfront₁, hzero, joinedText_opening, joinedText_closing]
  simp only [List.nil_append, List.append_assoc]

/-! ## When the text says the names -/

theorem ne_nul_of_plain {s : List Char} (h : Plain s) : ∀ c ∈ s, c ≠ nul := by
  intro c hc hnul
  have hle := (h c hc).2.2
  rw [hnul] at hle
  exact absurd hle (by decide)

theorem quoted_ne_nul {names : List String} (h : ∀ name ∈ names, Plain name.toList) :
    ∀ c ∈ quoted (names.map String.toList), c ≠ nul := by
  have hfollowing : ∀ names : List String, (∀ name ∈ names, Plain name.toList) → ∀ c ∈ following names, c ≠ nul := by
    intro names h c hc
    obtain ⟨name, hname, hc⟩ := List.mem_flatMap.mp hc
    simp only [List.mem_cons, List.mem_append, List.not_mem_nil, or_false] at hc
    rcases hc with rfl | rfl | hc | rfl
    · decide
    · decide
    · exact ne_nul_of_plain (h name hname) c hc
    · decide
  rcases names with _ | ⟨name, names⟩
  · exact fun c hc => absurd hc List.not_mem_nil
  · intro c hc
    rw [quoted_following] at hc
    simp only [List.mem_cons, List.mem_append] at hc
    rcases hc with rfl | hc | rfl | hc
    · decide
    · exact ne_nul_of_plain (h name List.mem_cons_self) c hc
    · decide
    · exact hfollowing names (fun n hn => h n (List.mem_cons_of_mem name hn)) c hc

/-- A text of names that all are to be said says them when there are no others and they need no escape. -/
theorem says_iff {tag : String} {names printed : List String} {resp : Block Char} (htag : Plain tag.toList)
    (hsub : ∀ name ∈ printed, name ∈ names)
    (h : resp.text nul = (opening tag ++ (quoted (printed.map String.toList) ++ [']', '\x7d'])).takeWhile (· ≠ nul)) :
    Says tag names resp ↔ names.Nodup ∧ (∀ name ∈ names, Plain name.toList) ∧ names = printed := by
  have hfull : (∀ name ∈ printed, Plain name.toList) →
      resp.text nul = opening tag ++ (quoted (printed.map String.toList) ++ [']', '\x7d']) := by
    intro hplain
    rw [h, List.takeWhile_eq_self_iff]
    intro c hc
    simp only [opening, List.mem_append, List.mem_cons, List.not_mem_nil, or_false] at hc
    refine decide_eq_true ?_
    rcases hc with (rfl | rfl | hc | rfl | rfl | rfl) | hc | rfl | rfl
    · decide
    · decide
    · exact ne_nul_of_plain htag c hc
    · decide
    · decide
    · decide
    · exact quoted_ne_nul hplain c hc
    · decide
    · decide
  constructor
  · rintro ⟨htext, hnodup⟩
    have hplain : ∀ name ∈ printed, Plain name.toList := by
      rw [h] at htext
      exact all_plain_of_isText htag hsub htext List.takeWhile_append_dropWhile
    rw [hfull hplain] at htext
    obtain rfl := (isText_iff_of_plain htag hplain).mp htext
    exact ⟨hnodup, hplain, rfl⟩
  · rintro ⟨hnodup, hplain, rfl⟩
    exact ⟨by rw [hfull hplain]; exact (isText_iff_of_plain htag hplain).mpr rfl, hnodup⟩

/-- A text with a comma before the first name says nothing. -/
theorem not_says_of_comma {tag : String} {names : List String} {resp : Block Char} {rest : List Char} (htag : Plain tag.toList)
    (h : resp.text nul = (opening tag ++ ',' :: rest).takeWhile (· ≠ nul)) : ¬Says tag names resp := by
  rintro ⟨htext, -⟩
  rw [h] at htext
  obtain ⟨t, r, ht, hrest⟩ := contents_of_isText htag htext List.takeWhile_append_dropWhile
  exact ht.not_comma hrest.symm

/-! ## The lists -/

section

variable {choose : Json → Bool} {tag nameTag : String} {array : List Json} {resp : Block Char}

theorem matching_append (choose : Json → Bool) (tag : String) (array array' : List Json) :
    matching choose tag (array ++ array') = matching choose tag array ++ matching choose tag array' := by
  simp [matching]

theorem matching_cons (choose : Json → Bool) (tag : String) (iter : Json) (array : List Json) :
    matching choose tag (iter :: array) = matching choose tag [iter] ++ matching choose tag array :=
  matching_append choose tag [iter] array

/-- The entries that a loop comes to, and the others. -/
theorem matching_counted (choose : Json → Bool) (tag : String) (array : List Json) :
    matching choose tag array =
      matching choose tag (counted array) ++ matching choose tag (array.drop (cInt array.length).toNat) := by
  rw [← matching_append, counted, List.take_append_drop]

theorem matching_all (tag : String) (array : List Json) : matching (fun _ => true) tag array = array.filterMap (Json.strField tag) := by
  unfold matching
  rw [List.filter_eq_self.mpr (fun _ _ => rfl)]

/-- When each entry that matches and that the loop comes to has its name written once, the text says the names if they are listable. -/
theorem says_counted_iff (htag : Plain tag.toList)
    (h : resp.text nul = (opening tag ++ (quoted ((matching choose nameTag (counted array)).map String.toList) ++
      [']', '\x7d'])).takeWhile (· ≠ nul)) :
    Says tag (matching choose nameTag array) resp ↔ Listable choose nameTag array := by
  have hsplit := matching_counted choose nameTag array
  have hsub : ∀ name ∈ matching choose nameTag (counted array), name ∈ matching choose nameTag array := by
    intro name hname
    rw [hsplit]
    exact List.mem_append_left _ hname
  rw [says_iff htag hsub h]
  constructor
  · rintro ⟨hdiffer, hplain, heq⟩
    rw [heq] at hsplit
    exact ⟨hdiffer, hplain, List.append_right_eq_self.mp hsplit.symm⟩
  · rintro ⟨hdiffer, hplain, hreached⟩
    exact ⟨hdiffer, hplain, by rw [hsplit, hreached, List.append_nil]⟩

/-- The text of the names of all entries: a comma is before them if the first entry has no name. -/
theorem joinedText_listArray (array : List Json) (tag : String) :
    joinedText (listArray array tag) =
      if ((counted array).head?.bind (Json.strField tag)).isSome = true then
        quoted ((matching (fun _ => true) tag (counted array)).map String.toList)
      else following (matching (fun _ => true) tag (counted array)) := by
  unfold listArray
  rw [matching_all]
  rcases counted array with _ | ⟨iter, xs⟩
  · rfl
  · rw [List.zipIdx_cons, List.head?_cons, Option.bind_some]
    rcases hname : iter.strField tag with _ | obj
    · have htext : listEntry tag (iter, 0) = none := by rw [listEntry, hname]; rfl
      rw [List.filterMap_cons_none htext, List.filterMap_cons_none hname, if_neg (by simp)]
      exact joinedText_entries tag xs 0
    · have htext : listEntry tag (iter, 0) = some (arrayJsonString 0 obj) := by rw [listEntry, hname]; rfl
      rw [List.filterMap_cons_some htext, List.filterMap_cons_some hname, if_pos (by rfl), joinedText_cons, quoted_following,
        toList_arrayJsonString]
      have hrest : joinedText ((xs.zipIdx (0 + 1)).filterMap (listEntry tag)) = _ := joinedText_entries tag xs 0
      rw [hrest]
      simp

/-- The first entry that a loop comes to is the first of the array. -/
theorem head_counted (array : List Json) : counted array = [] ∨ (counted array).head? = array.head? := by
  unfold counted
  rcases (cInt array.length).toNat with _ | n
  · exact Or.inl rfl
  · refine Or.inr ?_
    cases array <;> rfl

/-- The list of all names. -/
theorem says_all_iff (htag : Plain tag.toList)
    (h : resp.text nul = (opening tag ++ (joinedText (listArray array nameTag) ++ [']', '\x7d'])).takeWhile (· ≠ nul)) :
    Says tag (array.filterMap (Json.strField nameTag)) resp ↔
      Listable (fun _ => true) nameTag array ∧ FirstNamed nameTag array := by
  rw [joinedText_listArray] at h
  have hall := matching_all nameTag array
  have hsplit := matching_counted (fun _ => true) nameTag array
  by_cases hfirst : ((counted array).head?.bind (Json.strField nameTag)).isSome = true
  · rw [if_pos hfirst] at h
    have hnamed : FirstNamed nameTag array := by
      rcases head_counted array with hnil | hhead
      · rw [hnil] at hfirst
        cases hfirst
      · rw [hhead] at hfirst
        exact Or.inl hfirst
    rw [← hall, says_counted_iff htag h, and_iff_left hnamed]
  · rw [if_neg hfirst] at h
    rcases hnames : matching (fun _ => true) nameTag (counted array) with _ | ⟨name, names⟩
    · -- No name is written.
      have htext : resp.text nul = (opening tag ++ (quoted ((matching (fun _ => true) nameTag (counted array)).map String.toList) ++
          [']', '\x7d'])).takeWhile (· ≠ nul) := by
        rw [h, hnames]
        rfl
      rw [← hall, says_counted_iff htag htext]
      refine (and_iff_left_of_imp fun hlist => Or.inr ?_).symm
      rw [← hall, hsplit, hlist.reached, hnames]
      rfl
    · rw [hnames] at h
      refine iff_of_false (not_says_of_comma htag h) ?_
      rintro ⟨-, hnamed | hnil⟩
      · rcases head_counted array with hnone | hhead
        · rw [hnone] at hnames
          cases hnames
        · rw [hhead] at hfirst
          exact hfirst hnamed
      · rw [← hall, hsplit, hnames] at hnil
        cases hnil

/-- The names that are written for a target. -/
def portNames (type : String) (iter : Json) : List String :=
  (counted (iter.entries tagPortids)).filterMap (fun obj => if obj.strField tagType = some type then iter.strField tagAlias else none)

theorem portNames_of_none {type : String} {iter : Json} (h : iter.strField tagAlias = none) : portNames type iter = [] := by
  unfold portNames
  rw [h, List.filterMap_eq_nil_iff]
  intro obj _
  exact ite_self none

theorem portNames_of_some {type name : String} {iter : Json} (h : iter.strField tagAlias = some name) :
    portNames type iter = List.replicate (portCount type iter) name := by
  unfold portNames portCount
  rw [h]
  induction counted (iter.entries tagPortids) with
  | nil => rfl
  | cons port ports ih =>
    by_cases htype : port.strField tagType = some type
    · have hport : (if port.strField tagType = some type then some name else none) = some name := if_pos htype
      rw [List.filterMap_cons, hport, ih]
      simp [htype, List.replicate_succ]
    · have hport : (if port.strField tagType = some type then some name else none) = none := if_neg htype
      rw [List.filterMap_cons, hport, ih]
      simp [htype]

/-- A target with a port of the type that a loop comes to has a port of the type. -/
theorem fabricTarget_of_portCount {type : String} {iter : Json} (h : portCount type iter ≠ 0) : fabricTarget type iter = true := by
  obtain ⟨obj, hobj⟩ := List.exists_mem_of_length_pos (Nat.pos_of_ne_zero h)
  obtain ⟨hmem, htype⟩ := List.mem_filter.mp hobj
  exact List.any_eq_true.mpr ⟨obj, List.mem_of_mem_take hmem, htype⟩

theorem fabricNames_eq (array : List Json) (type : String) : fabricNames array type = (counted array).flatMap (portNames type) := rfl

/-- What is written for a target is its name, if it matches. -/
theorem mem_portNames {type name : String} {iter : Json} (h : name ∈ portNames type iter) :
    name ∈ matching (fabricTarget type) tagAlias [iter] := by
  rcases hname : iter.strField tagAlias with _ | name'
  · rw [portNames_of_none hname] at h
    cases h
  · rw [portNames_of_some hname] at h
    obtain ⟨hne, rfl⟩ := List.mem_replicate.mp h
    simp [matching, fabricTarget_of_portCount hne, hname]

theorem mem_fabricNames {type name : String} {xs : List Json} (h : name ∈ xs.flatMap (portNames type)) :
    name ∈ matching (fabricTarget type) tagAlias xs := by
  obtain ⟨iter, hiter, hname⟩ := List.mem_flatMap.mp h
  obtain ⟨xs₁, xs₂, rfl⟩ := List.append_of_mem hiter
  rw [matching_append, matching_cons]
  exact List.mem_append_right _ (List.mem_append_left _ (mem_portNames hname))

/-- When names differ, each is written once exactly if each target has one port of the type. -/
theorem fabricNames_eq_iff {type : String} {xs : List Json} {rest : List String}
    (hdiffer : (matching (fabricTarget type) tagAlias xs ++ rest).Nodup) :
    matching (fabricTarget type) tagAlias xs ++ rest = xs.flatMap (portNames type) ↔
      rest = [] ∧ ∀ iter ∈ xs, fabricTarget type iter = true → (iter.strField tagAlias).isSome = true → portCount type iter = 1 := by
  induction xs with
  | nil => simp [matching]
  | cons iter xs ih =>
    rw [matching_cons, List.append_assoc] at hdiffer ⊢
    have ih := ih (List.nodup_append.mp hdiffer).2.1
    rw [List.flatMap_cons, List.forall_mem_cons, and_left_comm, ← ih]
    rcases hname : iter.strField tagAlias with _ | name
    · rw [portNames_of_none hname]
      have hnone : matching (fabricTarget type) tagAlias [iter] = [] := by
        simp [matching, List.filter_cons, hname]
      rw [hnone]
      simp
    · rw [portNames_of_some hname]
      by_cases htype : fabricTarget type iter = true
      · have hone : matching (fabricTarget type) tagAlias [iter] = [name] := by simp [matching, htype, hname]
        rw [hone] at hdiffer ⊢
        have hnot : name ∉ matching (fabricTarget type) tagAlias xs ++ rest := (List.nodup_cons.mp hdiffer).1
        rcases portCount type iter with _ | _ | n
        · -- The name is not written, and no other is like it.
          refine iff_of_false (fun heq => ?_) (fun h => absurd (h.1 htype rfl) (by decide))
          have hmem : name ∈ xs.flatMap (portNames type) := by
            rw [List.replicate_zero, List.nil_append] at heq
            rw [← heq]
            exact List.mem_cons_self
          exact hnot (List.mem_append_left _ (mem_fabricNames hmem))
        · simp
        · refine iff_of_false (fun heq => ?_) (fun h => absurd (h.1 htype rfl) (by omega))
          have hrest : matching (fabricTarget type) tagAlias xs ++ rest =
              name :: (List.replicate n name ++ xs.flatMap (portNames type)) := (List.cons.inj heq).2
          rw [hrest] at hnot
          exact hnot List.mem_cons_self
      · have hzero : portCount type iter = 0 := by
          by_contra hne
          exact htype (fabricTarget_of_portCount hne)
        have hnone : matching (fabricTarget type) tagAlias [iter] = [] := by simp [matching, htype]
        rw [hnone, hzero]
        simp [htype]

/-- The list for a fabric. -/
theorem says_fabric_iff {type : String} (htag : Plain tag.toList)
    (h : resp.text nul = (opening tag ++ (quoted ((fabricNames array type).map String.toList) ++ [']', '\x7d'])).takeWhile (· ≠ nul)) :
    Says tag (matching (fabricTarget type) tagAlias array) resp ↔
      Listable (fabricTarget type) tagAlias array ∧ OnePortEach type array := by
  have hsplit := matching_counted (fabricTarget type) tagAlias array
  have hsub : ∀ name ∈ fabricNames array type, name ∈ matching (fabricTarget type) tagAlias array := by
    intro name hname
    rw [hsplit]
    exact List.mem_append_left _ (mem_fabricNames hname)
  rw [says_iff htag hsub h, fabricNames_eq]
  have hall : ∀ iter, iter ∈ array ↔ iter ∈ counted array ∨ iter ∈ array.drop (cInt array.length).toNat := by
    intro iter
    rw [← List.mem_append, counted, List.take_append_drop]
  constructor
  · rintro ⟨hdiffer, hplain, heq⟩
    rw [hsplit] at heq
    obtain ⟨hreached, hone⟩ := (fabricNames_eq_iff (hsplit ▸ hdiffer)).mp heq
    refine ⟨⟨hdiffer, hplain, hreached⟩, fun iter hiter htype hname => ?_⟩
    rcases (hall iter).mp hiter with hiter | hiter
    · exact hone iter hiter htype hname
    · obtain ⟨name, hname⟩ := Option.isSome_iff_exists.mp hname
      have hmem : name ∈ matching (fabricTarget type) tagAlias (array.drop (cInt array.length).toNat) :=
        List.mem_filterMap.mpr ⟨iter, List.mem_filter.mpr ⟨hiter, htype⟩, hname⟩
      rw [hreached] at hmem
      cases hmem
  · rintro ⟨⟨hdiffer, hplain, hreached⟩, hone⟩
    refine ⟨hdiffer, hplain, ?_⟩
    rw [hsplit]
    exact (fabricNames_eq_iff (hsplit ▸ hdiffer)).mpr ⟨hreached, fun iter hiter => hone iter ((hall iter).mpr (Or.inl hiter))⟩

end

theorem modeNames_eq (array : List Json) (mode : String) :
    modeNames array mode = matching (modeTarget mode) tagAlias (counted array) := by
  unfold modeNames matching
  rw [List.filterMap_filter]
  refine List.filterMap_congr (fun iter _ => ?_)
  simp only [modeTarget, decide_eq_true_eq]

theorem plain_tags : Plain tagGroups.toList ∧ Plain tagHosts.toList ∧ Plain tagTargets.toList :=
  ⟨plain_of_all (by decide), plain_of_all (by decide), plain_of_all (by decide)⟩

theorem mode_text {query : String} {root : Json} {fresh : Nat → Char} {resp : Block Char} (hmode : hasParm query uriParmMode = true)
    (h : listJsonTarget (some query) root (some fresh) = .ok resp) :
    resp.text nul = (opening tagTargets ++ (quoted ((matching (modeTarget (parmValue query parmModeLen)) tagAlias
      (counted (root.entries tagTargets))).map String.toList) ++ [']', '\x7d'])).takeWhile (· ≠ nul) := by
  have hwrite : writeTargets (some query) = fun array _ p resp => sprintfs (filterMode array query) p resp := by
    funext array n p resp
    exact if_pos hmode
  unfold listJsonTarget at h
  rw [hwrite] at h
  have htext := @listJson_text _ _ _ _ (fun array => filterMode array query) _ (by decide) rfl h
  unfold filterMode at htext
  rwa [joinedText_writeNames, modeNames_eq] at htext

theorem fabric_text {query : String} {root : Json} {fresh : Nat → Char} {resp : Block Char} (hmode : ¬hasParm query uriParmMode = true)
    (hfabric : hasParm query uriParmFabric = true) (h : listJsonTarget (some query) root (some fresh) = .ok resp) :
    resp.text nul = (opening tagTargets ++ (quoted ((fabricNames (root.entries tagTargets)
      (parmValue query parmFabricLen)).map String.toList) ++ [']', '\x7d'])).takeWhile (· ≠ nul) := by
  have hwrite : writeTargets (some query) = fun array _ p resp => sprintfs (filterFabric array query) p resp := by
    funext array n p resp
    exact (if_neg hmode).trans (if_pos hfabric)
  unfold listJsonTarget at h
  rw [hwrite] at h
  have htext := @listJson_text _ _ _ _ (fun array => filterFabric array query) _ (by decide) rfl h
  unfold filterFabric at htext
  rwa [joinedText_writeNames] at htext

/-! ## A target with two ports -/

def rdmaPort (portid : Int) : Json := .object [(tagPortid, .integer portid), (tagType, .string "rdma")]

/-- A store with one target, which has two ports of a fabric. -/
def twoPorts : Json :=
  .object [(tagTargets, .array [.object [(tagAlias, .string "a"), (tagPortids, .array [rdmaPort 1, rdmaPort 2])]])]

/-- The list of the targets of this fabric has its name twice. -/
theorem twoPorts_listed_twice : ∃ resp : Block Char,
    listJsonTarget (some "fabric=rdma") twoPorts (some (fun _ => nul)) = .ok resp ∧
      resp.text nul = "\x7b\"Targets\":[\"a\",\"a\"]\x7d".toList ∧
      ¬Says tagTargets (matching (matchesQuery (some "fabric=rdma")) tagAlias (twoPorts.entries tagTargets)) resp := by
  obtain ⟨resp, hresp⟩ : ∃ resp : Block Char, listJsonTarget (some "fabric=rdma") twoPorts (some (fun _ => nul)) = .ok resp := ⟨_, rfl⟩
  have htext := fabric_text (by decide) (by decide) hresp
  refine ⟨resp, hresp, htext.trans (by decide), fun hsays => ?_⟩
  have hone := ((says_fabric_iff plain_tags.2.2 htext).mp hsays).2 _ List.mem_cons_self (by decide) (by decide)
  exact absurd hone (by decide)

/-- The lists of groups, hosts and targets say the names that they should exactly when these are listable, and when no comma or port is
in the way. -/
theorem lists_say_iff (root : Json) (fresh : Nat → Char) (resp : Block Char) :
    (listJsonGroup root (some fresh) = .ok resp → (Says tagGroups (root.keys tagGroups tagName) resp ↔
      Listable (fun _ => true) tagName (root.entries tagGroups) ∧ FirstNamed tagName (root.entries tagGroups))) ∧
    (listJsonHost root (some fresh) = .ok resp → (Says tagHosts (root.keys tagHosts tagAlias) resp ↔
      Listable (fun _ => true) tagAlias (root.entries tagHosts) ∧ FirstNamed tagAlias (root.entries tagHosts))) ∧
    ∀ query : Option String,
      (∀ q, query = some q → hasParm q uriParmMode = true ∨ hasParm q uriParmFabric = true) →
      listJsonTarget query root (some fresh) = .ok resp →
      (Says tagTargets (matching (matchesQuery query) tagAlias (root.entries tagTargets)) resp ↔
        Listable (matchesQuery query) tagAlias (root.entries tagTargets) ∧ QueryFits query (root.entries tagTargets)) := by
  refine ⟨fun h => ?_, fun h => ?_, fun query hquery h => ?_⟩
  · exact says_all_iff plain_tags.1 (@listJson_text _ _ _ _ (fun array => listArray array tagName) _ (by decide) rfl h)
  · exact says_all_iff plain_tags.2.1 (@listJson_text _ _ _ _ (fun array => listArray array tagAlias) _ (by decide) rfl h)
  · rcases query with _ | query
    · have hsays := says_all_iff plain_tags.2.2 (@listJson_text _ _ _ _ (fun array => listArray array tagAlias) _ (by decide) rfl h)
      rwa [← matching_all] at hsays
    · by_cases hmode : hasParm query uriParmMode = true
      · have hchoose : matchesQuery (some query) = modeTarget (parmValue query parmModeLen) := funext fun iter => if_pos hmode
        have hfits : QueryFits (some query) (root.entries tagTargets) ↔ True := iff_of_eq (if_pos hmode)
        rw [hchoose, hfits, and_true]
        exact says_counted_iff plain_tags.2.2 (mode_text hmode h)
      · have hfabric : hasParm query uriParmFabric = true := (hquery query rfl).resolve_left hmode
        have hchoose : matchesQuery (some query) = fabricTarget (parmValue query parmFabricLen) := funext fun iter => if_neg hmode
        have hfits : QueryFits (some query) (root.entries tagTargets) ↔
            OnePortEach (parmValue query parmFabricLen) (root.entries tagTargets) := iff_of_eq (if_neg hmode)
        rw [hchoose, hfits]
        exact says_fabric_iff plain_tags.2.2 (fabric_text hmode hfabric h)

theorem plain_single {name : String} {names : List String} (h : names = [name])
    (hall : name.toList.all (fun c => decide (PlainChar c)) = true) : ∀ n ∈ names, Plain n.toList := by
  subst h
  intro n hn
  rw [List.mem_singleton.mp hn]
  exact plain_of_all hall

/-- A store with one entry of each kind. -/
def shortLists : Json :=
  .object [(tagGroups, .array [.object [(tagName, .string "g")]]), (tagHosts, .array [.object [(tagAlias, .string "h")]]),
    (tagTargets, .array [.object [(tagAlias, .string "t"), (tagPortids, .array [rdmaPort 1])]])]

theorem shortLists_listed :
    (∃ resp : Block Char, listJsonGroup shortLists (some (fun _ => nul)) = .ok resp ∧ Says tagGroups ["g"] resp) ∧
      (∃ resp : Block Char, listJsonHost shortLists (some (fun _ => nul)) = .ok resp ∧ Says tagHosts ["h"] resp) ∧
      ∃ resp : Block Char, listJsonTarget (some "fabric=rdma") shortLists (some (fun _ => nul)) = .ok resp ∧
        Says tagTargets ["t"] resp := by
  obtain ⟨resp, hgroup⟩ : ∃ resp : Block Char, listJsonGroup shortLists (some (fun _ => nul)) = .ok resp := ⟨_, rfl⟩
  obtain ⟨resp', hhost⟩ : ∃ resp : Block Char, listJsonHost shortLists (some (fun _ => nul)) = .ok resp := ⟨_, rfl⟩
  obtain ⟨resp'', htarget⟩ : ∃ resp : Block Char, listJsonTarget (some "fabric=rdma") shortLists (some (fun _ => nul)) = .ok resp :=
    ⟨_, rfl⟩
  have hquery : ∀ q : String, some "fabric=rdma" = some q → hasParm q uriParmMode = true ∨ hasParm q uriParmFabric = true := by
    intro q hq
    obtain rfl := Option.some.inj hq
    exact Or.inr (by decide)
  refine ⟨⟨resp, hgroup, ?_⟩, ⟨resp', hhost, ?_⟩, ⟨resp'', htarget, ?_⟩⟩
  · exact ((lists_say_iff shortLists (fun _ => nul) resp).1 hgroup).mpr
      ⟨⟨by decide, @plain_single "g" _ rfl (by decide), by decide⟩, Or.inl (by decide)⟩
  · exact ((lists_say_iff shortLists (fun _ => nul) resp').2.1 hhost).mpr
      ⟨⟨by decide, @plain_single "h" _ rfl (by decide), by decide⟩, Or.inl (by decide)⟩
  · refine ((lists_say_iff shortLists (fun _ => nul) resp'').2.2 (some "fabric=rdma") hquery htarget).mpr
      ⟨⟨by decide, @plain_single "t" _ rfl (by decide), by decide⟩, ?_⟩
    intro iter hiter _ _
    obtain rfl := List.mem_singleton.mp hiter
    decide

end NvmeDem
