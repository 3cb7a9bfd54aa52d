import NvmeDem.Endpoint.SpdkJson

/-!
# When an object is decoded

An object is to be decoded if all fields of it that are in the table decode, and all entries of the table that are required are in the object.
The manager keeps one mark for what went wrong, which every field that is in the table writes, so that only the last of them counts.
-/

namespace NvmeDem.SpdkJson

open Jansson (Json)

variable {σ : Type} {lib : Library} {decoders : List (Decoder σ)}

/-- The first entry with a name, and its place in the table. -/
def decoderOf (decoders : List (Decoder σ)) (name : String) : Option (Decoder σ × Nat) :=
  decoders.zipIdx.find? (fun dec => dec.1.name = name)

/-- The fields that are in the table, each with its entry. -/
def known (decoders : List (Decoder σ)) (fields : List (String × Json)) : List ((Decoder σ × Nat) × List Val) :=
  fields.filterMap (fun field => (decoderOf decoders field.1).map (fun dec => (dec, values field.2)))

/-- A field decodes. -/
def Decodes (field : (Decoder σ × Nat) × List Val) : Prop := field.1.1.decodeFunc field.2 = 0

/-- What the loop does with a field that is in the table. -/
def decodeKnown (s : Decoding σ) (field : (Decoder σ × Nat) × List Val) : Decoding σ :=
  { seen := s.seen.set field.1.2 true, invalid := field.1.1.decodeFunc field.2 ≠ 0, out := field.1.1.store field.2 s.out }

/-! ## The walk through the values -/

/-- The first value of a document says how many there are. -/
theorem valLen_values (lib : Library) (doc : Json) : ∃ v rest, values doc = v :: rest ∧ lib.valLen v = (values doc).length := by
  cases doc with
  | array elems =>
    refine ⟨_, _, rfl, ?_⟩
    rw [lib.valLen_begin _ (.inl rfl)]
    simp [values]
  | object fields =>
    refine ⟨_, _, rfl, ?_⟩
    rw [lib.valLen_begin _ (.inr rfl)]
    simp [values]
  | bool b =>
    refine ⟨_, _, rfl, ?_⟩
    cases b <;> exact lib.valLen_other _ ValType.noConfusion ValType.noConfusion
  | null => exact ⟨_, _, rfl, lib.valLen_other _ ValType.noConfusion ValType.noConfusion⟩
  | integer n => exact ⟨_, _, rfl, lib.valLen_other _ ValType.noConfusion ValType.noConfusion⟩
  | real text => exact ⟨_, _, rfl, lib.valLen_other _ ValType.noConfusion ValType.noConfusion⟩
  | string s => exact ⟨_, _, rfl, lib.valLen_other _ ValType.noConfusion ValType.noConfusion⟩

theorem strequal_name (lib : Library) (name text : String) : lib.strequal { type := .name, text := name } text = decide (text = name) := by
  rw [Bool.eq_iff_iff, lib.strequal_iff, decide_eq_true_iff]
  exact ⟨fun h => h.2.symm, fun h => ⟨.inr rfl, h.symm⟩⟩

theorem decodeField_eq (name : String) (v : List Val) (s : Decoding σ) :
    decodeField lib decoders { type := .name, text := name } v s = ((decoderOf decoders name).map (fun dec => decodeKnown s (dec, v))).getD s := by
  have hfind : decoders.zipIdx.find? (fun dec => lib.strequal { type := .name, text := name } dec.1.name) = decoderOf decoders name := by
    rw [decoderOf]
    congr 1
    funext dec
    exact strequal_name lib name dec.1.name
  rw [decodeField, hfind]
  cases decoderOf decoders name with
  | none => rfl
  | some dec => rfl

/-- The loop takes the fields of an object one after the other. -/
theorem decodeLoop_fields (vals tail : List Val) (len : Nat) (fields : List (String × Json)) : ∀ (i : Nat) (s : Decoding σ),
    vals.drop (i + 1) = fieldValues fields ++ tail → i + (fieldValues fields).length = len →
      decodeLoop lib decoders vals len i s = .ok ((known decoders fields).foldl decodeKnown s) := by
  induction fields with
  | nil =>
    intro i s _ hlen
    have hend : ¬i < len := by
      rw [← hlen, fieldValues]
      exact Nat.not_lt.mpr (Nat.le_refl _)
    rw [decodeLoop, if_neg hend]
    rfl
  | cons field fields ih =>
    obtain ⟨name, doc⟩ := field
    intro i s hdrop hlen
    obtain ⟨v, rest, hvalues, hvalLen⟩ := valLen_values lib doc
    rw [fieldValues, List.cons_append, List.append_assoc] at hdrop
    rw [fieldValues, List.length_cons, List.length_append] at hlen
    have hname : vals[i + 1]? = some { type := .name, text := name } := by
      rw [← Nat.add_zero (i + 1), ← List.getElem?_drop, hdrop]
      rfl
    have hrest : vals.drop (i + 2) = values doc ++ (fieldValues fields ++ tail) := by
      rw [show i + 2 = i + 1 + 1 from rfl, ← List.drop_drop, hdrop]
      rfl
    have hv : vals[i + 2]? = some v := by
      rw [← Nat.add_zero (i + 2), ← List.getElem?_drop, hrest, hvalues]
      rfl
    have hdrop' : vals.drop (i + (1 + lib.valLen v) + 1) = fieldValues fields ++ tail := by
      rw [show i + (1 + lib.valLen v) + 1 = i + 2 + lib.valLen v by omega, ← List.drop_drop, hrest, hvalLen, List.drop_left]
    rw [decodeLoop, if_pos (by omega), hname, hv]
    simp only
    rw [ih _ _ hdrop' (by omega), hrest, hvalLen, List.take_left, decodeField_eq, known, known, List.filterMap_cons]
    cases decoderOf decoders name with
    | none => rfl
    | some dec => rfl

/-! ## The marks -/

variable {fields : List (String × Json)}

/-- The last field that is in the table decodes, if there is one. -/
def LastDecodes (decoders : List (Decoder σ)) (fields : List (String × Json)) : Prop :=
  ∀ field, (known decoders fields).getLast? = some field → Decodes field

/-- The entries that are required are marked in the end. -/
def AllSeen (decoders : List (Decoder σ)) (fields : List (String × Json)) : Prop :=
  ∀ (j : Nat) (dec : Decoder σ), decoders[j]? = some dec → dec.optional = false → ∃ field ∈ known decoders fields, field.1.2 = j

/-- The mark for what went wrong is that of the last field. -/
theorem invalid_foldl (l : List ((Decoder σ × Nat) × List Val)) {s : Decoding σ} (hs : s.invalid = false) :
    (l.foldl decodeKnown s).invalid = false ↔ ∀ field, l.getLast? = some field → Decodes field := by
  rcases List.eq_nil_or_concat' l with rfl | ⟨l, last, rfl⟩
  · exact iff_of_true hs (fun field h => nomatch h)
  · rw [List.foldl_concat, List.getLast?_concat]
    simp [decodeKnown, Decodes]

/-- An entry is marked if it was, or if there is a field of it. -/
theorem seen_foldl (l : List ((Decoder σ × Nat) × List Val)) (j : Nat) : ∀ s : Decoding σ, j < s.seen.length →
    ((l.foldl decodeKnown s).seen[j]? = some true ↔ s.seen[j]? = some true ∨ ∃ field ∈ l, field.1.2 = j) := by
  induction l with
  | nil => simp
  | cons field l ih =>
    intro s hj
    have hj' : j < (decodeKnown s field).seen.length := by simpa [decodeKnown] using hj
    rw [List.foldl_cons, ih _ hj', List.exists_mem_cons_iff, ← or_assoc]
    refine or_congr_left ?_
    by_cases heq : field.1.2 = j
    · subst heq
      simp [decodeKnown, List.getElem?_set_self hj]
    · simp [decodeKnown, List.getElem?_set_ne heq, heq]

theorem length_seen_foldl (l : List ((Decoder σ × Nat) × List Val)) :
    ∀ s : Decoding σ, (l.foldl decodeKnown s).seen.length = s.seen.length := by
  induction l with
  | nil => exact fun _ => rfl
  | cons field l ih =>
    intro s
    rw [List.foldl_cons, ih, decodeKnown, List.length_set]

/-- No entry that is required is without a mark. -/
theorem missing_iff {seen : List Bool} (hlen : seen.length = decoders.length) :
    (decoders.zip seen).any (fun dec => !dec.1.optional && !dec.2) = false ↔
      ∀ (j : Nat) (dec : Decoder σ), decoders[j]? = some dec → dec.optional = false → seen[j]? = some true := by
  rw [List.any_eq_false]
  constructor
  · intro h j dec hdec hrequired
    obtain ⟨hj, -⟩ := List.getElem?_eq_some_iff.mp hdec
    have hseen : seen[j]? = some seen[j] := List.getElem?_eq_getElem (hlen ▸ hj)
    have hmark := h (dec, seen[j]) (List.mem_iff_getElem?.mpr ⟨j, by rw [List.getElem?_zip_eq_some]; exact ⟨hdec, hseen⟩⟩)
    rw [hseen]
    simpa [hrequired] using hmark
  · rintro h ⟨dec, mark⟩ hmem
    obtain ⟨j, hj⟩ := List.mem_iff_getElem?.mp hmem
    obtain ⟨hdec, hmark⟩ := List.getElem?_zip_eq_some.mp hj
    cases hrequired : dec.optional with
    | true => simp
    | false =>
      have hseen := h j dec hdec hrequired
      rw [hmark] at hseen
      simpa using Option.some.inj hseen

/-- An object is taken if and only if the last field of the table decodes and no required entry is without a mark. -/
theorem taken_iff (lib : Library) (decoders : List (Decoder σ)) (fields : List (String × Json)) (out : σ) :
    (∃ out', myDecodeObject lib decoders (some (values (.object fields))) out = .ok (0, out')) ↔
      LastDecodes decoders fields ∧ AllSeen decoders fields := by
  have hvalues : values (.object fields) =
      { type := .objectBegin, len := (fieldValues fields).length } :: (fieldValues fields ++ [{ type := .objectEnd }]) := by rw [values]
  have hloop := @decodeLoop_fields σ lib decoders (values (.object fields)) [{ type := .objectEnd }] (fieldValues fields).length fields 0
    { seen := List.replicate decoders.length false, invalid := false, out := out } (by rw [hvalues]; rfl) (Nat.zero_add _)
  rw [hvalues] at hloop ⊢
  simp only [myDecodeObject, ne_eq, not_true_eq_false, if_false, hloop, Except.map]
  generalize hend : (known decoders fields).foldl decodeKnown
    { seen := List.replicate decoders.length false, invalid := false, out := out } = s
  have hlen : s.seen.length = decoders.length := by
    rw [← hend, length_seen_foldl, List.length_replicate]
  have hinvalid : s.invalid = false ↔ LastDecodes decoders fields := by
    rw [← hend]
    exact invalid_foldl _ rfl
  have hseen : (∀ (j : Nat) (dec : Decoder σ), decoders[j]? = some dec → dec.optional = false → s.seen[j]? = some true) ↔
      AllSeen decoders fields := by
    refine forall_congr' (fun j => forall_congr' (fun dec => forall_congr' (fun hdec => forall_congr' (fun _ => ?_))))
    obtain ⟨hj, -⟩ := List.getElem?_eq_some_iff.mp hdec
    rw [← hend, seen_foldl _ _ _ (by simpa using hj)]
    simp [List.getElem?_replicate]
  rw [← hinvalid, ← hseen, ← missing_iff hlen]
  constructor
  · rintro ⟨out', hout⟩
    have hret := (Prod.mk.inj (Except.ok.inj hout)).1
    split at hret
    · exact absurd hret (by decide)
    · rename_i hok
      simpa [not_or] using hok
  · rintro ⟨hok, hmissing⟩
    exact ⟨s.out, by simp [hok, hmissing]⟩

/-! ## What should be taken -/

/-- All fields that are in the table decode. -/
def AllDecode (decoders : List (Decoder σ)) (fields : List (String × Json)) : Prop := ∀ field ∈ known decoders fields, Decodes field

/-- All entries of the table that are required are in the object. -/
def AllPresent (decoders : List (Decoder σ)) (fields : List (String × Json)) : Prop :=
  ∀ (j : Nat) (dec : Decoder σ), decoders[j]? = some dec → dec.optional = false → ∃ field ∈ fields, field.1 = dec.name

/-- An entry that is required has the name of one in front of it. -/
def Repeats (decoders : List (Decoder σ)) : Prop :=
  ∃ (i j : Nat) (dec dec' : Decoder σ), i < j ∧ decoders[i]? = some dec ∧ decoders[j]? = some dec' ∧
    dec.name = dec'.name ∧ dec'.optional = false

theorem decoderOf_eq_some {name : String} {dec : Decoder σ} {j : Nat} (h : decoderOf decoders name = some (dec, j)) :
    decoders[j]? = some dec ∧ dec.name = name ∧
      ∀ (i : Nat) (dec' : Decoder σ), i < j → decoders[i]? = some dec' → dec'.name ≠ name := by
  obtain ⟨hname, k, hk, hget, hbefore⟩ := List.find?_eq_some_iff_getElem.mp h
  rw [List.getElem_zipIdx, Nat.zero_add] at hget
  obtain ⟨hdec, rfl⟩ := Prod.mk.inj hget
  refine ⟨?_, by simpa using hname, ?_⟩
  · rw [List.length_zipIdx] at hk
    rw [List.getElem?_eq_getElem hk, hdec]
  · intro i dec' hi hdec' hname'
    have hnot := hbefore i hi
    rw [List.getElem_zipIdx] at hnot
    obtain ⟨_, hget'⟩ := List.getElem?_eq_some_iff.mp hdec'
    simp [hget', hname'] at hnot

/-- A name that an entry has is found, at that entry or in front of it. -/
theorem exists_decoderOf {dec : Decoder σ} {j : Nat} (h : decoders[j]? = some dec) :
    ∃ (dec' : Decoder σ) (i : Nat), decoderOf decoders dec.name = some (dec', i) ∧ i ≤ j := by
  have hmem : (dec, j) ∈ decoders.zipIdx := List.mem_zipIdx_iff_getElem?.mpr h
  cases hfound : decoderOf decoders dec.name with
  | none =>
    have hnot := List.find?_eq_none.mp hfound (dec, j) hmem
    simp at hnot
  | some found =>
    obtain ⟨dec', i⟩ := found
    refine ⟨dec', i, rfl, ?_⟩
    by_contra hlt
    exact (decoderOf_eq_some hfound).2.2 j dec (by omega) h rfl

theorem mem_known {field : (Decoder σ × Nat) × List Val} :
    field ∈ known decoders fields ↔ ∃ name doc, (name, doc) ∈ fields ∧ decoderOf decoders name = some field.1 ∧ field.2 = values doc := by
  rw [known, List.mem_filterMap]
  constructor
  · rintro ⟨⟨name, doc⟩, hmem, hfield⟩
    obtain ⟨dec, hdec, rfl⟩ := Option.map_eq_some_iff.mp hfield
    exact ⟨name, doc, hmem, hdec, rfl⟩
  · rintro ⟨name, doc, hmem, hdec, hvalues⟩
    refine ⟨(name, doc), hmem, ?_⟩
    rw [hdec, Option.map_some, ← hvalues]

/-- The required entries are marked if and only if they are in the object and none has the name of another in front of it. -/
theorem allSeen_iff : AllSeen decoders fields ↔ AllPresent decoders fields ∧ ¬Repeats decoders := by
  constructor
  · intro hseen
    constructor
    · intro j dec hdec hrequired
      obtain ⟨⟨⟨dec', i⟩, v⟩, hmem, rfl⟩ := hseen j dec hdec hrequired
      obtain ⟨name, doc, hmem, hfound, -⟩ := mem_known.mp hmem
      obtain ⟨hdec', hname, -⟩ := decoderOf_eq_some hfound
      rw [hdec] at hdec'
      exact ⟨(name, doc), hmem, by rw [Option.some.inj hdec', hname]⟩
    · rintro ⟨i, j, dec, dec', hlt, hdec, hdec', hsame, hrequired⟩
      obtain ⟨⟨⟨found, k⟩, v⟩, hmem, rfl⟩ := hseen j dec' hdec' hrequired
      obtain ⟨name, doc, -, hfound, -⟩ := mem_known.mp hmem
      obtain ⟨hget, hname, hfirst⟩ := decoderOf_eq_some hfound
      rw [hdec'] at hget
      refine hfirst i dec hlt hdec ?_
      rw [hsame, Option.some.inj hget, hname]
  · rintro ⟨hpresent, hrepeats⟩ j dec hdec hrequired
    obtain ⟨⟨name, doc⟩, hmem, hname⟩ := hpresent j dec hdec hrequired
    obtain ⟨dec', i, hfound, hle⟩ := exists_decoderOf hdec
    rcases Nat.lt_or_eq_of_le hle with hlt | rfl
    · obtain ⟨hget, hsame, -⟩ := decoderOf_eq_some hfound
      exact absurd ⟨i, j, dec', dec, hlt, hget, hdec, hsame, hrequired⟩ hrepeats
    · refine ⟨((dec', i), values doc), mem_known.mpr ⟨name, doc, hmem, ?_, rfl⟩, rfl⟩
      rw [show name = dec.name from hname, hfound]

theorem lastDecodes_of_allDecode (h : AllDecode decoders fields) : LastDecodes decoders fields :=
  fun field hlast => h field (List.mem_of_getLast? hlast)

/-- An object that is taken has all required fields in it, and its last field decodes. -/
theorem taken_iff_present (lib : Library) (decoders : List (Decoder σ)) (fields : List (String × Json)) (out : σ) :
    (∃ out', myDecodeObject lib decoders (some (values (.object fields))) out = .ok (0, out')) ↔
      LastDecodes decoders fields ∧ AllPresent decoders fields ∧ ¬Repeats decoders := by
  rw [taken_iff, allSeen_iff]

/-! ## The order of the fields -/

theorem known_perm {fields' : List (String × Json)} (h : fields'.Perm fields) : (known decoders fields').Perm (known decoders fields) :=
  h.filterMap _

theorem allDecode_perm {fields' : List (String × Json)} (h : fields'.Perm fields) :
    AllDecode decoders fields' ↔ AllDecode decoders fields :=
  forall_congr' (fun _ => imp_congr_left (known_perm h).mem_iff)

theorem allPresent_perm {fields' : List (String × Json)} (h : fields'.Perm fields) :
    AllPresent decoders fields' ↔ AllPresent decoders fields := by
  refine forall_congr' (fun j => forall_congr' (fun dec => imp_congr_right (fun _ => imp_congr_right (fun _ => ?_))))
  exact exists_congr (fun field => and_congr_left' h.mem_iff)

/-- A field that decodes may come last. -/
theorem exists_perm_lastDecodes (h : ∃ field ∈ known decoders fields, Decodes field) :
    ∃ fields', fields'.Perm fields ∧ LastDecodes decoders fields' := by
  obtain ⟨field, hmem, hdecodes⟩ := h
  obtain ⟨name, doc, hfield, hfound, hvalues⟩ := mem_known.mp hmem
  obtain ⟨front, behind, rfl⟩ := List.append_of_mem hfield
  refine ⟨front ++ behind ++ [(name, doc)], ?_, ?_⟩
  · rw [List.append_assoc]
    exact List.Perm.append_left front (List.perm_append_singleton _ _)
  · intro last hlast
    rw [known, List.filterMap_append, List.filterMap_cons, hfound] at hlast
    simp only [Option.map_some, List.filterMap_nil, List.getLast?_concat, Option.some.injEq] at hlast
    rw [← hlast]
    rwa [Decodes, hvalues] at hdecodes

/-- An object with its required fields is treated right if and only if, where the table repeats the name of a required entry, not all fields
decode, and otherwise the last field that is in the table decodes only if all do; and it is treated right in every order if and only if no two
fields differ in that. -/
theorem myDecodeObject_right_iff (lib : Library) (decoders : List (Decoder σ)) (fields : List (String × Json)) (out : σ) :
    (((∃ out', myDecodeObject lib decoders (some (values (.object fields))) out = .ok (0, out')) ↔
        AllDecode decoders fields ∧ AllPresent decoders fields) ↔
      (AllPresent decoders fields → (Repeats decoders → ¬AllDecode decoders fields) ∧
        (¬Repeats decoders → LastDecodes decoders fields → AllDecode decoders fields))) ∧
    ((∀ fields', fields'.Perm fields →
        ((∃ out', myDecodeObject lib decoders (some (values (.object fields'))) out = .ok (0, out')) ↔
          AllDecode decoders fields ∧ AllPresent decoders fields)) ↔
      (AllPresent decoders fields → (Repeats decoders → ¬AllDecode decoders fields) ∧
        (¬Repeats decoders → (∃ field ∈ known decoders fields, Decodes field) → AllDecode decoders fields))) := by
  have hlast : AllDecode decoders fields → LastDecodes decoders fields := lastDecodes_of_allDecode
  constructor
  · rw [taken_iff_present]
    tauto
  · constructor
    · intro hall hpresent
      have hself := hall fields (List.Perm.refl fields)
      rw [taken_iff_present] at hself
      refine ⟨fun hrepeats hdecode => (hself.mpr ⟨hdecode, hpresent⟩).2.2 hrepeats, ?_⟩
      intro hrepeats hsome
      obtain ⟨fields', hperm, hlast'⟩ := exists_perm_lastDecodes hsome
      have htaken := hall fields' hperm
      rw [taken_iff_present, allPresent_perm hperm] at htaken
      exact (htaken.mp ⟨hlast', hpresent, hrepeats⟩).1
    · intro hcond fields' hperm
      rw [taken_iff_present, allPresent_perm hperm]
      constructor
      · rintro ⟨hlast', hpresent, hrepeats⟩
        refine ⟨?_, hpresent⟩
        by_cases hsome : ∃ field ∈ known decoders fields, Decodes field
        · exact (hcond hpresent).2 hrepeats hsome
        · rw [← allDecode_perm hperm]
          intro field hmem
          have hne : known decoders fields' ≠ [] := List.ne_nil_of_mem hmem
          have hlastMem := (known_perm hperm).mem_iff.mp (List.getLast_mem hne)
          exact absurd ⟨_, hlastMem, hlast' _ (List.getLast?_eq_some_getLast hne)⟩ hsome
      · rintro ⟨hdecode, hpresent⟩
        refine ⟨lastDecodes_of_allDecode ((allDecode_perm hperm).mpr hdecode), hpresent, ?_⟩
        exact fun hrepeats => (hcond hpresent).1 hrepeats hdecode

/-- The library as it documents itself. -/
def documented : Library where
  valLen v := if v.type = .arrayBegin ∨ v.type = .objectBegin then v.len + 2 else 1
  strequal v text := (v.type = .string ∨ v.type = .name) ∧ v.text = text
  valLen_begin _ h := if_pos h
  valLen_other _ harray hobject := if_neg (not_or.mpr ⟨harray, hobject⟩)
  strequal_iff _ _ := decide_eq_true_iff

/-- A subsystem of which the name is not a text, with a type that is. -/
def badSubsys : List (String × Json) := [("nqn", .integer 5), ("subtype", .string "NVMe")]

/-- It is taken, since its type comes last. -/
theorem not_right_badSubsys : ¬∀ (lib : Library) (decoders : List (Decoder Subsys)) (fields : List (String × Json)) (out : Subsys),
    (fields.map Prod.fst).Nodup →
      ((∃ out', myDecodeObject lib decoders (some (values (.object fields))) out = .ok (0, out')) ↔
        AllDecode decoders fields ∧ AllPresent decoders fields) := by
  intro h
  have hright := h documented (subsysDecoders (fun _ => 0)) badSubsys {} (by decide)
  have hname : decoderOf (subsysDecoders (fun _ => 0)) "nqn" = some ((subsysDecoders (fun _ => 0))[0], 0) := rfl
  have htype : decoderOf (subsysDecoders (fun _ => 0)) "subtype" = some ((subsysDecoders (fun _ => 0))[1], 1) := rfl
  have hknown : known (subsysDecoders (fun _ => 0)) badSubsys =
      [(((subsysDecoders (fun _ => 0))[0], 0), values (.integer 5)), (((subsysDecoders (fun _ => 0))[1], 1), values (.string "NVMe"))] := by
    simp only [known, badSubsys, List.filterMap_cons, hname, htype, Option.map_some, List.filterMap_nil]
  rw [taken_iff, LastDecodes, AllSeen, AllDecode, hknown] at hright
  have hbad := (hright.mp ⟨?_, ?_⟩).1 (((subsysDecoders (fun _ => 0))[0], 0), values (.integer 5)) List.mem_cons_self
  · have hret : myDecodeString (values (.integer 5)) ≠ 0 := by decide
    exact hret hbad
  · rintro field ⟨⟩
    rfl
  · intro j dec hdec hrequired
    match j, hdec with
    | 0, _ => exact ⟨_, List.mem_cons_self, rfl⟩
    | 1, _ => exact ⟨_, List.mem_cons_of_mem _ List.mem_cons_self, rfl⟩
    | 2, hdec =>
      obtain rfl := Option.some.inj hdec
      exact nomatch hrequired

end NvmeDem.SpdkJson
