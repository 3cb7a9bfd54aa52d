import NvmeDem.Lemmas.Groups
import NvmeDem.Store.Listing

/-!
# Whether a list of names fits its buffer

A list has two bytes for each name and a comma between them, and at most sixteen bytes around it. The sum that decides on a larger buffer
has four bytes for each name, so a list of names fits whenever the sum does not ask for one. But the larger buffer has 32 bytes less than
the sum, not more: then a list of all names fits only if they are so many that the bytes which the sum has too many make up for that
(`NamesFit`). A list of some targets needs them to be short against all (`ChosenFit`), and one with a target for each of its ports can be
longer than the sum.
-/

namespace NvmeDem

open Jansson
open Buffer

/-! ## How long the texts are -/

/-- How long texts are together. -/
def written (texts : List String) : Nat := (texts.map String.length).sum

@[simp] theorem written_nil : written [] = 0 := rfl

@[simp] theorem written_cons (text : String) (texts : List String) :
    written (text :: texts) = text.length + written texts := by
  simp [written]

theorem total_toList (texts : List String) : total (texts.map String.toList) = written texts := by
  simp only [total, written, List.map_map, Function.comp_def, String.length_toList]

/-- The names in an array that a loop comes to. -/
def countedNames (array : List Json) (tag : String) : List String := (counted array).filterMap (Json.strField tag)

/-- The sum that decides whether the buffer grows, as it is without overflow. -/
def estimate (names : List String) : Nat := (names.map (fun name => name.length + 4)).sum

@[simp] theorem estimate_cons (name : String) (names : List String) :
    estimate (name :: names) = name.length + 4 + estimate names := by
  simp [estimate]

theorem strlenArray_eq (array : List Json) (tag : String) : strlenArray array tag = cInt (estimate (countedNames array tag)) := by
  have hstart : cInt 0 = 0 := by decide
  unfold strlenArray countedNames
  rw [← Int.zero_add (estimate _ : Int)]
  conv_lhs => rw [← hstart]
  generalize counted array = xs
  generalize (0 : Int) = n
  induction xs generalizing n with
  | nil => simp [estimate]
  | cons iter xs ih =>
    rw [List.foldl_cons]
    rcases hname : iter.strField tag with _ | obj
    · rw [List.filterMap_cons_none hname]
      exact ih n
    · rw [List.filterMap_cons_some hname, estimate_cons]
      have hstep : cInt (cInt n + (obj.length + 4)) = cInt (n + (obj.length + 4)) := Int.bmod_add_bmod
      show List.foldl _ (cInt (cInt n + (obj.length + 4))) xs = _
      rw [hstep, ih]
      congr 1
      push_cast
      omega

theorem length_arrayJsonString (i : Nat) (obj : String) :
    (arrayJsonString i obj).length = obj.length + (if i = 0 then 2 else 3) := by
  have hquote : "\"".length = 1 := rfl
  have hcomma : (if i = 0 then "" else ",").length = if i = 0 then 0 else 1 := apply_ite String.length (i = 0) "" ","
  unfold arrayJsonString
  rw [String.length_append, String.length_append, String.length_append, hquote, hcomma]
  split <;> omega

/-- Whether the first entry has a name, which is then written without a comma. -/
def firstNamed (array : List Json) (tag : String) : Nat :=
  if ((counted array).head?.bind (Json.strField tag)).isSome then 1 else 0

theorem written_listArray (array : List Json) (tag : String) :
    written (listArray array tag) + (countedNames array tag).length + firstNamed array tag = estimate (countedNames array tag) := by
  have h : ∀ (xs : List Json) (i : Nat),
      written ((xs.zipIdx (i + 1)).filterMap (listEntry tag)) +
        (xs.filterMap (Json.strField tag)).length = estimate (xs.filterMap (Json.strField tag)) := by
    intro xs
    induction xs with
    | nil => intro i; rfl
    | cons iter xs ih =>
      intro i
      rw [List.zipIdx_cons]
      rcases hname : iter.strField tag with _ | obj
      · have htext : listEntry tag (iter, i + 1) = none := by rw [listEntry, hname]; rfl
        rw [List.filterMap_cons_none hname, List.filterMap_cons_none htext]
        exact ih (i + 1)
      · have htext : listEntry tag (iter, i + 1) = some (arrayJsonString (i + 1) obj) := by rw [listEntry, hname]; rfl
        have hlen : (arrayJsonString (i + 1) obj).length = obj.length + 3 := length_arrayJsonString (i + 1) obj
        rw [List.filterMap_cons_some hname, List.filterMap_cons_some htext, written_cons, estimate_cons, List.length_cons,
          ← ih (i + 1), hlen]
        omega
  unfold listArray countedNames firstNamed
  rcases counted array with _ | ⟨iter, xs⟩
  · rfl
  · rw [List.zipIdx_cons]
    rcases hname : iter.strField tag with _ | obj
    · have htext : listEntry tag (iter, 0) = none := by rw [listEntry, hname]; rfl
      have hfirst : ((iter :: xs).head?.bind (Json.strField tag)).isSome = false := by rw [List.head?_cons, Option.bind_some, hname]; rfl
      rw [List.filterMap_cons_none hname, List.filterMap_cons_none htext, hfirst]
      exact h xs 0
    · have htext : listEntry tag (iter, 0) = some (arrayJsonString 0 obj) := by rw [listEntry, hname]; rfl
      have hfirst : ((iter :: xs).head?.bind (Json.strField tag)).isSome = true := by rw [List.head?_cons, Option.bind_some, hname]; rfl
      have hlen : (arrayJsonString 0 obj).length = obj.length + 2 := length_arrayJsonString 0 obj
      rw [List.filterMap_cons_some hname, List.filterMap_cons_some htext, written_cons, estimate_cons, List.length_cons,
        ← h xs 0, hlen, hfirst]
      simp only [if_true]
      omega

/-- How long names are in quotes, with commas between them. -/
def joined (names : List String) : Nat := (names.map (fun name => name.length + 3)).sum - 1

theorem written_writeNames (names : List String) : written (writeNames names) = joined names := by
  have h : ∀ (names : List String) (i : Nat),
      written ((names.zipIdx (i + 1)).map (fun name => arrayJsonString name.2 name.1)) =
        (names.map (fun name => name.length + 3)).sum := by
    intro names
    induction names with
    | nil => intro i; rfl
    | cons name names ih =>
      intro i
      rw [List.zipIdx_cons, List.map_cons, List.map_cons, written_cons, ih, length_arrayJsonString, List.sum_cons]
      rfl
  unfold writeNames joined
  rcases names with _ | ⟨name, names⟩
  · rfl
  · rw [List.zipIdx_cons, List.map_cons, written_cons, h, length_arrayJsonString, List.map_cons, List.sum_cons]
    simp only [if_true]
    omega

/-! ## Where the texts are -/

section

variable {texts texts' : List String} {p p' : Nat} {b b' : Block Char}

theorem sprintfs_eq_some (h : sprintfs texts p b = some (p', b')) : p' = p + written texts ∧ b'.size = b.size := by
  rw [← total_toList]
  exact puts_eq_some h

theorem sprintfs_isSome_iff (hne : texts ≠ []) : (sprintfs texts p b).isSome = true ↔ p + written texts < b.size := by
  unfold sprintfs
  rw [puts_isSome_iff, total_toList, List.map_eq_nil_iff, or_iff_right hne]

theorem exists_sprintfs (hne : texts ≠ []) (h : p + written texts < b.size) :
    ∃ b', sprintfs texts p b = some (p + written texts, b') ∧ b'.size = b.size := by
  obtain ⟨⟨p', b'⟩, hsome⟩ := Option.isSome_iff_exists.mp ((sprintfs_isSome_iff hne).mpr h)
  obtain ⟨rfl, hsize⟩ := sprintfs_eq_some hsome
  exact ⟨b', hsome, hsize⟩

theorem sprintfs_append (texts texts' : List String) (p : Nat) (b : Block Char) :
    sprintfs (texts ++ texts') p b = (sprintfs texts p b).bind (fun x => sprintfs texts' x.1 x.2) := by
  unfold sprintfs
  rw [List.map_append, puts_append]

end

variable {tag nameTag : String} {write : List Json → Int → Nat → Block Char → Option (Nat × Block Char)} {root : Json}
  {memory : Option (Nat → Char)}

theorem bodySize_eq : (bodySize : Int) = 1024 := rfl

theorem length_startJsonArray (tag : String) : (startJsonArray tag).length = tag.length + 4 := by
  have hquote : "\"".length = 1 := rfl
  have hopen : "\":[".length = 3 := rfl
  unfold startJsonArray
  rw [String.length_append, String.length_append, hquote, hopen]
  omega

theorem listText_eq (tag nameTag : String) (write : List Json → Int → Nat → Block Char → Option (Nat × Block Char)) (root : Json)
    (memory : Option (Nat → Char)) :
    listText tag nameTag write root memory = (sprintfs ["\x7b", startJsonArray tag] 0 newResp).bind (fun x =>
      (growAndWrite nameTag write memory (root.objectGet tag) x.1 x.2).bind (fun x =>
        sprintfs [endJsonArray, "\x7d"] x.1 x.2)) := by
  have hend : ∀ x : Nat × Block Char, sprintfs [endJsonArray, "\x7d"] x.1 x.2 = _ := fun x =>
    sprintfs_append [endJsonArray] ["\x7d"] x.1 x.2
  rw [show sprintfs ["\x7b", startJsonArray tag] 0 newResp = _ from sprintfs_append ["\x7b"] [startJsonArray tag] 0 newResp,
    Option.bind_assoc]
  simp only [hend]
  unfold listText listNames
  simp only [Option.bind_eq_bind, Option.bind_assoc]

theorem listJson_fits_iff_isSome :
    listJson tag nameTag write root memory ≠ .error .outOfBounds ↔ (listText tag nameTag write root memory).isSome = true := by
  unfold listJson
  rcases listText tag nameTag write root memory with _ | ⟨p, resp⟩
  · exact iff_of_false (fun h => h rfl) (by simp)
  · exact iff_of_true nofun rfl

/-- A list fits when what is written between its start and its end does, and leaves two bytes and one for the zero. -/
theorem listJson_fits_iff (nameTag : String) (write : List Json → Int → Nat → Block Char → Option (Nat × Block Char)) (root : Json)
    (memory : Option (Nat → Char)) (htag : tag.length ≤ 100) :
    ∃ b : Block Char, b.size = bodySize ∧ (listJson tag nameTag write root memory ≠ .error .outOfBounds ↔
      ∃ (p : Nat) (b' : Block Char), growAndWrite nameTag write memory (root.objectGet tag) (tag.length + 5) b = some (p, b') ∧
        p + 2 < b'.size) := by
  have hbrace : "\x7b".length = 1 := rfl
  have hend : endJsonArray.length = 1 := rfl
  have hbrace' : "\x7d".length = 1 := rfl
  have hwritten : 0 + written ["\x7b", startJsonArray tag] = tag.length + 5 := by
    rw [written_cons, written_cons, written_nil, length_startJsonArray, hbrace]
    omega
  have hroom : tag.length + 5 < newResp.size := Nat.lt_of_le_of_lt (Nat.add_le_add_right htag 5) (by decide)
  obtain ⟨b, hstart, hsize⟩ := exists_sprintfs (List.cons_ne_nil "\x7b" [startJsonArray tag]) (hwritten ▸ hroom)
  refine ⟨b, hsize, ?_⟩
  rw [listJson_fits_iff_isSome, listText_eq, hstart, Option.bind_some, hwritten]
  rcases growAndWrite nameTag write memory (root.objectGet tag) (tag.length + 5) b with _ | ⟨p, b'⟩
  · exact iff_of_false (by simp) (by simp)
  · rw [Option.bind_some, sprintfs_isSome_iff (List.cons_ne_nil _ _), written_cons, written_cons, written_nil, hend, hbrace']
    simp

theorem sprintfs_room_iff {texts : List String} {p : Nat} {b : Block Char} :
    (∃ (p' : Nat) (b' : Block Char), sprintfs texts p b = some (p', b') ∧ p' + 2 < b'.size) ↔
      p + written texts + 2 < b.size := by
  constructor
  · rintro ⟨p', b', h, hroom⟩
    obtain ⟨rfl, hsize⟩ := sprintfs_eq_some h
    rwa [← hsize]
  · intro hroom
    rcases texts with _ | ⟨text, texts⟩
    · exact ⟨p, b, rfl, hroom⟩
    · have hwritten : p + written (text :: texts) < b.size := by omega
      obtain ⟨b', h, hsize⟩ := exists_sprintfs (List.cons_ne_nil text texts) hwritten
      exact ⟨_, b', h, by rwa [hsize]⟩

/-! ## What the size computation gives -/

/-- The buffer has room for texts of this length between the start and the end of a list: it is left as it is, or there is no memory for a
larger one and nothing is written, or it has as many bytes as the sum of the lengths says. -/
def HasRoom (tag : String) (n : Int) (len : Nat) (memory : Option (Nat → Char)) : Prop :=
  (992 < n ∧ (memory = none ∨ (tag.length + len + 39 : Nat) < n)) ∨ (n ≤ 992 ∧ tag.length + len + 7 < bodySize)

section

variable {array : Json} {p : Nat} {b : Block Char}

theorem growAndWrite_small (h : strlenArray array.elems nameTag ≤ 992) :
    growAndWrite nameTag write memory (some array) p b = write array.elems (strlenArray array.elems nameTag) p b := by
  have hn : ¬(bodySize : Int) - 32 < strlenArray array.elems nameTag := by
    rw [bodySize_eq]
    omega
  unfold growAndWrite
  simp only [if_neg hn]

theorem growAndWrite_noMemory (h : 992 < strlenArray array.elems nameTag) :
    growAndWrite nameTag write none (some array) p b = some (p, b) := by
  have hn : (bodySize : Int) - 32 < strlenArray array.elems nameTag := by
    rw [bodySize_eq]
    omega
  unfold growAndWrite
  simp only [if_pos hn]

theorem growAndWrite_large {fresh : Nat → Char} (h : 992 < strlenArray array.elems nameTag) :
    growAndWrite nameTag write (some fresh) (some array) p b =
      write array.elems (strlenArray array.elems nameTag) p (b.resize (strlenArray array.elems nameTag - 32).toNat fresh) := by
  have hn : (bodySize : Int) - 32 < strlenArray array.elems nameTag := by
    rw [bodySize_eq]
    omega
  have hsize : (bodySize : Int) - 32 + (strlenArray array.elems nameTag - bodySize) = strlenArray array.elems nameTag - 32 := by
    rw [bodySize_eq]
    omega
  unfold growAndWrite
  simp only [if_pos hn, hsize]

end

/-- Without an array there are no names. -/
theorem entries_of_none (nameTag : String) (h : root.objectGet tag = none) :
    root.entries tag = [] ∧ cInt (estimate (countedNames (root.entries tag) nameTag)) = 0 := by
  have hentries : root.entries tag = [] := by
    rw [Json.entries, h]
    rfl
  rw [hentries]
  exact ⟨rfl, Int.zero_bmod⟩

/-- A list of texts that an array gives fits when there is room for them. -/
theorem listJson_sprintfs_fits_iff (nameTag : String) (root : Json) (memory : Option (Nat → Char)) (htag : tag.length ≤ 100)
    (texts : List Json → List String) (hnil : texts [] = []) :
    listJson tag nameTag (fun array _ p resp => sprintfs (texts array) p resp) root memory ≠ .error .outOfBounds ↔
      HasRoom tag (cInt (estimate (countedNames (root.entries tag) nameTag))) (written (texts (root.entries tag))) memory := by
  obtain ⟨b, hsize, hfits⟩ := listJson_fits_iff nameTag (fun array _ p resp => sprintfs (texts array) p resp) root memory htag
  rw [hfits]
  unfold HasRoom
  rcases harray : root.objectGet tag with _ | array
  · obtain ⟨hentries, hsum⟩ := entries_of_none nameTag harray
    have hlen : written (texts (root.entries tag)) = 0 := by rw [hentries, hnil]; rfl
    rw [hsum, hlen]
    refine iff_of_true ⟨_, b, rfl, ?_⟩ (Or.inr ⟨by decide, ?_⟩)
    · rw [hsize]
      exact Nat.lt_of_le_of_lt (Nat.add_le_add_right htag 7) (by decide)
    · exact Nat.lt_of_le_of_lt (Nat.add_le_add_right htag 7) (by decide)
  · rw [entries_of_objectGet harray, ← strlenArray_eq]
    by_cases hn : 992 < strlenArray array.elems nameTag
    · rw [or_iff_left (fun h => absurd hn (Int.not_lt.mpr h.1)), and_iff_right hn]
      rcases memory with _ | fresh
      · rw [growAndWrite_noMemory hn]
        refine iff_of_true ⟨_, b, rfl, ?_⟩ (Or.inl rfl)
        rw [hsize]
        exact Nat.lt_of_le_of_lt (Nat.add_le_add_right htag 7) (by decide)
      · rw [growAndWrite_large hn, sprintfs_room_iff, size_resize, or_iff_right (by simp)]
        omega
    · have hle : strlenArray array.elems nameTag ≤ 992 := Int.not_lt.mp hn
      rw [growAndWrite_small hle, sprintfs_room_iff, hsize, or_iff_right (fun h => hn h.1), and_iff_right hle]
      omega

/-! ## When the lists fit -/

/-- A list of all names fits when their lengths do not need a larger buffer, when there is no memory for one, and when there are at least
`least` names: the larger buffer is 32 bytes smaller than the sum of the lengths, which has a byte too many for each name and another
for the first. An overflow of the sum is never made good. -/
def NamesFit (least : Nat) (array : List Json) (tag : String) (memory : Option (Nat → Char)) : Prop :=
  estimate (countedNames array tag) ≤ 992 ∨
    (992 < cInt (estimate (countedNames array tag)) ∧ memory = none) ∨
    (992 < estimate (countedNames array tag) ∧ estimate (countedNames array tag) < 2 ^ 31 ∧
      least ≤ (countedNames array tag).length + firstNamed array tag)

/-- A list of some names fits when they are short against the sum of the lengths of all, `n`. -/
def ChosenFit (names : List String) (n : Int) (memory : Option (Nat → Char)) : Prop :=
  (992 < n ∧ (memory = none ∨ (joined names : Int) + 47 ≤ n)) ∨ (n ≤ 992 ∧ joined names ≤ 1009)

/-- A list with a gap of `n` bytes fits when no larger buffer is needed, or there is none. -/
def GapFits (n : Int) (memory : Option (Nat → Char)) : Prop := (-12 ≤ n ∧ n ≤ 992) ∨ (992 < n ∧ memory = none)

def TargetsFit (array : List Json) (memory : Option (Nat → Char)) : Option String → Prop
  | none => NamesFit 47 array tagAlias memory
  | some query =>
    if hasParm query uriParmMode then
      ChosenFit (modeNames array (parmValue query parmModeLen)) (cInt (estimate (countedNames array tagAlias))) memory
    else if hasParm query uriParmFabric then
      ChosenFit (fabricNames array (parmValue query parmFabricLen)) (cInt (estimate (countedNames array tagAlias))) memory
    else GapFits (cInt (estimate (countedNames array tagAlias))) memory

theorem cInt_lt (n : Int) : cInt n < 2 ^ 31 := by
  have h := @Int.bmod_lt n (2 ^ 32) (by decide)
  unfold cInt
  omega

theorem cInt_of_lt {n : Nat} (h : n < 2 ^ 31) : cInt n = n := by
  have hemod : (n : Int) % (2 ^ 32 : Nat) = n := by omega
  unfold cInt
  rw [Int.bmod_def, hemod, if_pos (by omega)]

/-- A sum that is read as too large for the buffer is right, or overflowed. -/
theorem cInt_of_ge {n : Nat} (h : 2 ^ 31 ≤ n) (hn : 992 < cInt n) : 2 ^ 32 + 992 < n := by
  unfold cInt at hn
  rw [Int.bmod_def] at hn
  split at hn <;> omega

theorem four_mul_length_le (names : List String) : 4 * names.length ≤ estimate names := by
  induction names with
  | nil => exact Nat.le.refl
  | cons name names ih =>
    rw [estimate_cons, List.length_cons]
    omega

theorem firstNamed_le (array : List Json) (tag : String) : firstNamed array tag ≤ 1 := by
  unfold firstNamed
  split <;> decide

theorem hasRoom_listArray_iff (htag : tag.length ≤ 20) (array : List Json) :
    HasRoom tag (cInt (estimate (countedNames array nameTag))) (written (listArray array nameTag)) memory ↔
      NamesFit (tag.length + 40) array nameTag memory := by
  have hwritten := written_listArray array nameTag
  have hnames := four_mul_length_le (countedNames array nameTag)
  have hfirst := firstNamed_le array nameTag
  have hbody : bodySize = 1024 := rfl
  unfold HasRoom NamesFit
  generalize estimate (countedNames array nameTag) = n at *
  generalize (countedNames array nameTag).length = k at *
  generalize firstNamed array nameTag = f at *
  generalize written (listArray array nameTag) = w at *
  rcases Nat.lt_or_ge n (2 ^ 31) with hn | hn
  · rw [cInt_of_lt hn]
    rcases memory with _ | fresh
    · simp only [true_or, and_true]
      omega
    · simp only [reduceCtorEq, false_or, and_false]
      omega
  · have hlt := cInt_lt n
    have hge := @cInt_of_ge n hn
    rcases memory with _ | fresh
    · simp only [true_or, and_true]
      omega
    · simp only [reduceCtorEq, false_or, and_false]
      omega

theorem listJson_names_fits_iff (htag : tag.length ≤ 20) :
    listJson tag nameTag (writeArray nameTag) root memory ≠ .error .outOfBounds ↔
      NamesFit (tag.length + 40) (root.entries tag) nameTag memory := by
  rw [← hasRoom_listArray_iff htag]
  exact listJson_sprintfs_fits_iff nameTag root memory (Nat.le_trans htag (by decide)) (fun array => listArray array nameTag) rfl

/-- A list of the chosen targets. -/
theorem listJson_chosen_fits_iff (names : List Json → List String) (hnil : names [] = []) :
    listJson tagTargets tagAlias (fun array _ p resp => sprintfs (writeNames (names array)) p resp) root memory ≠
        .error .outOfBounds ↔
      ChosenFit (names (root.entries tagTargets)) (cInt (estimate (countedNames (root.entries tagTargets) tagAlias))) memory := by
  have htag : tagTargets.length = 7 := rfl
  have hbody : bodySize = 1024 := rfl
  have hfits := @listJson_sprintfs_fits_iff tagTargets tagAlias root memory (by decide)
    (fun array => writeNames (names array)) (by rw [hnil]; rfl)
  rw [hfits, written_writeNames, HasRoom, ChosenFit, htag, hbody]
  refine or_congr (and_congr_right fun _ => or_congr_right ?_) (and_congr_right fun _ => ?_)
  · omega
  · omega

/-- A list with a gap. -/
theorem listJson_gap_fits_iff :
    listJson tagTargets tagAlias leaveGap root memory ≠ .error .outOfBounds ↔
      GapFits (cInt (estimate (countedNames (root.entries tagTargets) tagAlias))) memory := by
  have htag : tagTargets.length + 5 = 12 := rfl
  obtain ⟨b, hsize, hfits⟩ := @listJson_fits_iff tagTargets tagAlias leaveGap root memory (by decide)
  rw [hfits, htag]
  unfold GapFits
  have hbody : bodySize = 1024 := rfl
  rcases harray : root.objectGet tagTargets with _ | array
  · rw [(entries_of_none tagAlias harray).2]
    exact iff_of_true ⟨12, b, rfl, by omega⟩ (Or.inl ⟨by decide, by decide⟩)
  · rw [entries_of_objectGet harray, ← strlenArray_eq]
    by_cases hn : 992 < strlenArray array.elems tagAlias
    · rcases memory with _ | fresh
      · rw [growAndWrite_noMemory hn]
        exact iff_of_true ⟨12, b, rfl, by omega⟩ (Or.inr ⟨hn, rfl⟩)
      · -- The larger buffer ends before the gap does.
        rw [growAndWrite_large hn]
        refine iff_of_false ?_ (by simp; omega)
        rintro ⟨p, b', hwrite, hroom⟩
        rw [leaveGap, if_pos (by omega)] at hwrite
        obtain ⟨rfl, rfl⟩ := Prod.mk.inj (Option.some.inj hwrite)
        rw [size_resize] at hroom
        omega
    · have hle : strlenArray array.elems tagAlias ≤ 992 := Int.not_lt.mp hn
      rw [growAndWrite_small hle, leaveGap, or_iff_left (fun h => hn h.1)]
      by_cases hgap : 0 ≤ ((12 : Nat) : Int) + strlenArray array.elems tagAlias
      · rw [if_pos hgap]
        refine iff_of_true ⟨_, b, rfl, ?_⟩ ⟨by omega, hle⟩
        omega
      · rw [if_neg hgap]
        exact iff_of_false (by simp) (by omega)

/-! ## A list that does not fit -/

/-- An alias of 63 bytes. -/
def longAlias (i : Nat) : String := String.ofList (List.replicate 62 'h' ++ [Char.ofNat (97 + i)])

/-- A store with fifteen hosts. Their sum is 1005, so the larger buffer has 973 bytes, and the list is 1003 bytes long. -/
def longHosts : Json :=
  .object [(tagHosts, .array ((List.range 15).map (fun i => .object [(tagAlias, .string (longAlias i))])))]

theorem estimate_longAlias (is : List Nat) : estimate (is.map longAlias) = 67 * is.length := by
  induction is with
  | nil => rfl
  | cons i is ih =>
    have hlen : (longAlias i).length = 63 := by
      rw [longAlias, String.length_ofList, List.length_append, List.length_replicate]
      rfl
    rw [List.map_cons, estimate_cons, ih, hlen, List.length_cons]
    omega

theorem longHosts_overflow : listJsonHost longHosts (some (fun _ => nul)) = .error .outOfBounds := by
  by_contra h
  have hfit : NamesFit 45 (longHosts.entries tagHosts) tagAlias (some (fun _ => nul)) :=
    (listJson_names_fits_iff (by decide)).mp h
  have hnames : countedNames (longHosts.entries tagHosts) tagAlias = (List.range 15).map longAlias := rfl
  have hfirst := firstNamed_le (longHosts.entries tagHosts) tagAlias
  rw [NamesFit, hnames, estimate_longAlias, List.length_map, List.length_range] at hfit
  rcases hfit with h | ⟨-, h⟩ | ⟨-, -, h⟩
  · omega
  · cases h
  · omega

/-- The lists of groups, hosts and targets fit the buffer of the reply exactly when the lengths of the names are as said. -/
theorem list_fits_iff (root : Json) (memory : Option (Nat → Char)) (query : Option String) :
    (listJsonGroup root memory ≠ .error .outOfBounds ↔ NamesFit 46 (root.entries tagGroups) tagName memory) ∧
      (listJsonHost root memory ≠ .error .outOfBounds ↔ NamesFit 45 (root.entries tagHosts) tagAlias memory) ∧
      (listJsonTarget query root memory ≠ .error .outOfBounds ↔ TargetsFit (root.entries tagTargets) memory query) := by
  refine ⟨listJson_names_fits_iff (by decide), listJson_names_fits_iff (by decide), ?_⟩
  rcases query with _ | query
  · exact listJson_names_fits_iff (by decide)
  · unfold listJsonTarget
    simp only [TargetsFit]
    by_cases hmode : hasParm query uriParmMode = true
    · have hwrite : writeTargets (some query) = fun array _ p resp => sprintfs (filterMode array query) p resp := by
        funext array n p resp
        exact if_pos hmode
      rw [if_pos hmode, hwrite]
      exact listJson_chosen_fits_iff (fun array => modeNames array (parmValue query parmModeLen)) rfl
    · by_cases hfabric : hasParm query uriParmFabric = true
      · have hwrite : writeTargets (some query) = fun array _ p resp => sprintfs (filterFabric array query) p resp := by
          funext array n p resp
          exact (if_neg hmode).trans (if_pos hfabric)
        rw [if_neg hmode, if_pos hfabric, hwrite]
        exact listJson_chosen_fits_iff (fun array => fabricNames array (parmValue query parmFabricLen)) rfl
      · have hwrite : writeTargets (some query) = leaveGap := by
          funext array n p resp
          exact (if_neg hmode).trans (if_neg hfabric)
        rw [if_neg hmode, if_neg hfabric, hwrite]
        exact listJson_gap_fits_iff

end NvmeDem
