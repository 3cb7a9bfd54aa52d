import NvmeDem.Dem.IfaceFile

/-!
# What a comment in a line does

The scanner of blanks that meets a `#` ends the line. The scanners of words and of equal signs only end what they read: the line is read
on, inside of the comment. Behind a value nothing more is read. So the text of a comment matters when its `#` comes directly behind the tag
or directly behind the equal sign.
-/

namespace NvmeDem.IfaceFile

open Stdio

/-- What is passed over as blank: blanks, and behind them one byte 0xFF. -/
def Blank (w : List Char) : Prop := ∃ blanks, (∀ c ∈ blanks, isWhitespace c = true) ∧ (w = blanks ∨ w = blanks ++ [eof])

/-- A character that a word goes on with. -/
structure WordChar (c : Char) : Prop where
  comment : c ≠ comment
  quote : isQuote c = false
  whitespace : isWhitespace c = false
  eol : isEol c = false
  equal : c ≠ equal

/-- A tag that may have more characters is being read. -/
def InTag (tagMax : Nat) (pre : List Char) : Prop :=
  ∃ w tag, pre = w ++ tag ∧ Blank w ∧ tag ≠ [] ∧ (∀ c ∈ tag, WordChar c) ∧ tag.length < tagMax

/-- What the scanner of a word takes with it behind the word: a `#` or a byte 0xFF, if the word may have more characters. -/
def TakenAlong (tagMax : Nat) (tag m : List Char) : Prop :=
  m = [] ∧ tag.length ≤ tagMax ∨ (m = [comment] ∨ m = [eof]) ∧ tag.length < tagMax

/-- The equal sign behind a tag was the last character. -/
def AfterEqual (tagMax : Nat) (pre : List Char) : Prop :=
  ∃ w tag m w', pre = w ++ (tag ++ (m ++ (w' ++ [equal]))) ∧ Blank w ∧ tag ≠ [] ∧ (∀ c ∈ tag, WordChar c) ∧ TakenAlong tagMax tag m ∧ Blank w'

theorem InTag.no_equal {tagMax : Nat} {pre : List Char} (h : InTag tagMax pre) : equal ∉ pre := by
  obtain ⟨w, tag, rfl, ⟨blanks, hblanks, hw⟩, -, hall, -⟩ := h
  intro hm
  have hblank : equal ∉ blanks := fun hb => Bool.noConfusion (hblanks equal hb)
  rcases List.mem_append.mp hm with hm | hm
  · rcases hw with rfl | rfl
    · exact hblank hm
    · rcases List.mem_append.mp hm with hm | hm
      · exact hblank hm
      · revert hm
        decide
  · exact (hall equal hm).equal rfl

theorem AfterEqual.getLast {tagMax : Nat} {pre : List Char} (h : AfterEqual tagMax pre) : pre.getLast? = some equal := by
  obtain ⟨w, tag, m, w', rfl, -⟩ := h
  simp

/-! ## What each scanner makes of a text -/

theorem feed_blanks {blanks : List Char} (h : ∀ c ∈ blanks, isWhitespace c = true) (rest : List Char) :
    feed whitespaceTurn () (blanks ++ rest) = feed whitespaceTurn () rest := by
  induction blanks with
  | nil => rfl
  | cons c blanks ih =>
    have hc : whitespaceTurn () c = .next () := by
      have hw := h c (List.mem_cons_self ..)
      have hcases : c = ' ' ∨ c = '\t' ∨ c = '\r' := by simpa [isWhitespace, or_assoc] using hw
      rcases hcases with rfl | rfl | rfl <;> rfl
    rw [List.cons_append, feed, hc, elim_next]
    exact ih (fun c hc => h c (List.mem_cons_of_mem _ hc))

/-- The scanner of blanks comes to the end of a text, or meets a comment, or stops behind the blanks. -/
theorem feed_whitespace_cases (text : List Char) :
    feed whitespaceTurn () text = .through () ∨ (∃ rest, feed whitespaceTurn () text = .out (.error 1) rest) ∨
      ∃ w rest, text = w ++ rest ∧ Blank w ∧ feed whitespaceTurn () text = .out (.ok ()) rest := by
  induction text with
  | nil => exact .inl rfl
  | cons c text ih =>
    rw [feed]
    by_cases hcomment : c = comment
    · exact .inr (.inl ⟨text, by simp [whitespaceTurn, hcomment]⟩)
    · by_cases hw : isWhitespace c = true ∧ isEol c = false
      · have hturn : whitespaceTurn () c = .next () := by simp [whitespaceTurn, hcomment, hw.1, hw.2]
        rw [hturn, elim_next]
        rcases ih with h | ⟨rest, h⟩ | ⟨w, rest, rfl, ⟨blanks, hblanks, hb⟩, h⟩
        · exact .inl h
        · exact .inr (.inl ⟨rest, h⟩)
        · refine .inr (.inr ⟨c :: w, rest, rfl, ⟨c :: blanks, List.forall_mem_cons.mpr ⟨hw.1, hblanks⟩, ?_⟩, h⟩)
          rcases hb with rfl | rfl
          · exact .inl rfl
          · exact .inr rfl
      · have hturn : whitespaceTurn () c = .back (.ok ()) := by
          have h : isWhitespace c = false ∨ isEol c = true := by
            by_cases h : isWhitespace c = true
            · exact .inr (by simpa [h] using hw)
            · exact .inl (by simpa using h)
          simp [whitespaceTurn, hcomment, h]
        rw [hturn, elim_back, putBack]
        by_cases heof : c = eof
        · rw [if_pos heof, heof]
          exact .inr (.inr ⟨[eof], text, rfl, ⟨[], by simp, .inr rfl⟩, rfl⟩)
        · rw [if_neg heof]
          exact .inr (.inr ⟨[], c :: text, rfl, ⟨[], by simp, .inl rfl⟩, rfl⟩)

theorem wordTurn_comment (n : Nat) (word : List Char) : wordTurn n (word, false) comment = .stop (written word) := by
  simp [wordTurn]

theorem wordTurn_wordChar {n : Nat} {c : Char} (hc : WordChar c) (word : List Char) :
    wordTurn n (word, false) c = if word.length + 1 = n then .stop (written (word ++ [c])) else .next (word ++ [c], false) := by
  simp [wordTurn, hc.comment, hc.quote, hc.whitespace, hc.eol, hc.equal]

/-- A word without quotes goes through a text of plain characters, or stops behind some of them. -/
theorem feed_word_cases {n : Nat} {text : List Char} (hquote : ∀ c ∈ text, isQuote c = false) {word : List Char} (hn : word.length < n) :
    (feed (wordTurn n) (word, false) text = .through (word ++ text, false) ∧ (∀ c ∈ text, WordChar c) ∧ (word ++ text).length < n) ∨
      ∃ tag m rest, text = tag ++ (m ++ rest) ∧ (∀ c ∈ tag, WordChar c) ∧ TakenAlong n (word ++ tag) m ∧
        feed (wordTurn n) (word, false) text = .out (written (word ++ tag)) rest := by
  induction text generalizing word with
  | nil => exact .inl ⟨by simp [feed], by simp, by simpa using hn⟩
  | cons c text ih =>
    have hq : isQuote c = false := hquote c (List.mem_cons_self ..)
    rw [feed]
    by_cases hcomment : c = comment
    · refine .inr ⟨[], [comment], text, by rw [hcomment]; rfl, by simp, .inr ⟨.inl rfl, by simpa using hn⟩, ?_⟩
      simp [wordTurn, hcomment]
    · by_cases hend : isWhitespace c = true ∨ isEol c = true ∨ c = equal
      · have hturn : wordTurn n (word, false) c = .back (written word) := by
          simp [wordTurn, hcomment, hq, or_assoc, hend]
        rw [hturn, elim_back, putBack]
        by_cases heof : c = eof
        · rw [if_pos heof, heof]
          exact .inr ⟨[], [eof], text, rfl, by simp, .inr ⟨.inr rfl, by simpa using hn⟩, by simp⟩
        · rw [if_neg heof]
          exact .inr ⟨[], [], c :: text, rfl, by simp, .inl ⟨rfl, by simpa using hn.le⟩, by simp⟩
      · have hplain : WordChar c := by
          rw [not_or, not_or] at hend
          exact ⟨hcomment, hq, by simpa using hend.1, by simpa using hend.2.1, hend.2.2⟩
        rw [wordTurn_wordChar hplain]
        by_cases hfull : word.length + 1 = n
        · rw [if_pos hfull, elim_stop]
          exact .inr ⟨[c], [], text, rfl, by simpa using hplain, .inl ⟨rfl, by simp [hfull]⟩, rfl⟩
        · rw [if_neg hfull, elim_next]
          have hlen : (word ++ [c]).length < n := by
            rw [List.length_append, List.length_singleton]
            omega
          rcases ih (fun d hd => hquote d (List.mem_cons_of_mem _ hd)) hlen with ⟨h, hall, hlt⟩ | ⟨tag, m, rest, rfl, hall, htaken, h⟩
          · rw [List.append_assoc, List.singleton_append] at h hlt
            exact .inl ⟨h, List.forall_mem_cons.mpr ⟨hplain, hall⟩, hlt⟩
          · rw [List.append_assoc, List.singleton_append] at h htaken
            exact .inr ⟨c :: tag, m, rest, rfl, List.forall_mem_cons.mpr ⟨hplain, hall⟩, htaken, h⟩

theorem equalTurn_of_ne {n : Nat} {c : Char} (word : List Char) (hc : c ≠ equal) :
    equalTurn n word c = .stop (written word) ∨ equalTurn n word c = .back (written word) := by
  unfold equalTurn
  by_cases hcomment : c = comment
  · exact .inl (if_pos hcomment)
  · rw [if_neg hcomment, if_pos hc]
    exact .inr rfl

/-- The scanner of equal signs comes to the end of a text only if that is empty or one sign. -/
theorem eq_of_feed_equal {text word : List Char} (h : feed (equalTurn maxEqual) [] text = .through word) :
    word = text ∧ (text = [] ∨ text = [equal]) := by
  cases text with
  | nil =>
    cases h
    exact ⟨rfl, .inl rfl⟩
  | cons c text =>
    rw [feed] at h
    by_cases hc : c = equal
    · have hfirst : equalTurn maxEqual [] c = .next [c] := by simp [equalTurn, hc, equal, comment, maxEqual]
      rw [hfirst, elim_next] at h
      cases text with
      | nil =>
        cases h
        exact ⟨rfl, .inr (by rw [hc])⟩
      | cons d text =>
        rw [feed] at h
        by_cases hd : d = equal
        · have hsecond : equalTurn maxEqual [c] d = .stop (written [c, d]) := by
            simp [equalTurn, hd, equal, comment, maxEqual]
          rw [hsecond] at h
          cases h
        · rcases equalTurn_of_ne (n := maxEqual) [c] hd with he | he <;> rw [he] at h <;> cases h
    · rcases equalTurn_of_ne (n := maxEqual) [] hc with he | he <;> rw [he] at h <;> cases h

/-! ## Comments that do not matter -/

/-- What a scanner returns on a line does not depend on the text of the comment behind `pre`. -/
def CommentFree {α : Type} (p : Scan Int α) (pre : List Char) : Prop :=
  ∀ text text', (p (.reading (pre ++ comment :: text))).1 = (p (.reading (pre ++ comment :: text'))).1

/-- A scanner with a code other than zero ends the line. -/
theorem commentFree_bind_error {α β : Type} {p : Scan Int α} (q : α → Scan Int β) {pre : List Char} {e : Int} {left : List Char → File}
    (h : ∀ text, p (.reading (pre ++ comment :: text)) = (.error e, left text)) : CommentFree (p >>= q) pre := by
  intro text text'
  rw [Scan.bind_of_error (h text), Scan.bind_of_error (h text')]

/-- A scanner that stops before the comment leaves it to the next one. -/
theorem commentFree_bind {α β : Type} {p : Scan Int α} {q : α → Scan Int β} {pre rest : List Char} {a : α}
    (hp : ∀ text, p (.reading (pre ++ comment :: text)) = (.ok a, .reading (rest ++ comment :: text)))
    (hq : CommentFree (q a) rest) : CommentFree (p >>= q) pre := by
  intro text text'
  rw [Scan.bind_of_ok (hp text), Scan.bind_of_ok (hp text')]
  exact hq text text'

/-- Blanks and a comment end the line; otherwise what comes behind the blanks decides. -/
theorem commentFree_whitespace {β : Type} {q : Unit → Scan Int β} {pre : List Char}
    (hq : ∀ w rest, pre = w ++ rest → Blank w → CommentFree (q ()) rest) : CommentFree (consumeWhitespace >>= q) pre := by
  rcases feed_whitespace_cases pre with h | ⟨rest, h⟩ | ⟨w, rest, hpre, hw, h⟩
  · have hend : ∀ text, consumeWhitespace (.reading (pre ++ comment :: text)) = (.error 1, .reading text) :=
      whileNotEof_of_through h rfl _
    exact commentFree_bind_error _ hend
  · have hend : ∀ text, consumeWhitespace (.reading (pre ++ comment :: text)) = (.error 1, .reading (rest ++ comment :: text)) :=
      fun text => whileNotEof_of_out h _ (comment :: text)
    exact commentFree_bind_error _ hend
  · exact commentFree_bind (fun text => whileNotEof_of_out h _ (comment :: text)) (hq w rest hpre hw)

theorem not_quoted_of_feed {n : Nat} {text : List Char} (hquote : ∀ c ∈ text, isQuote c = false) {word : List Char}
    {s : List Char × Bool} (h : feed (wordTurn n) (word, false) text = .through s) : s.2 = false := by
  induction text generalizing word with
  | nil =>
    cases h
    rfl
  | cons c text ih =>
    rw [List.forall_mem_cons] at hquote
    rw [feed] at h
    unfold wordTurn at h
    split at h
    · cases h
    · rw [hquote.1, if_neg Bool.false_ne_true] at h
      split at h
      · cases h
      · split at h
        · cases h
        · exact ih hquote.2 h

/-- The value is the last thing that is read. -/
theorem commentFree_value {α : Type} (n : Nat) (result : List Char → α) {pre : List Char} (hquote : ∀ c ∈ pre, isQuote c = false) :
    CommentFree (parseWord n >>= fun value => pure (result value)) pre := by
  have hword : ∃ r, ∀ text, (parseWord n (.reading (pre ++ comment :: text))).1 = r := by
    cases h : feed (wordTurn n) ([], false) pre with
    | out r rest => exact ⟨r, fun text => congrArg Prod.fst (whileNotEof_of_out h _ (comment :: text))⟩
    | through s =>
      have hturn : wordTurn n s comment = .stop (written s.1) := by
        have hs : s = (s.1, false) := Prod.ext rfl (not_quoted_of_feed hquote h)
        rw [hs, wordTurn_comment]
      exact ⟨written s.1, fun text => congrArg Prod.fst (whileNotEof_of_through h hturn _ text)⟩
  obtain ⟨r, hr⟩ := hword
  have hpair : ∀ text, parseWord n (.reading (pre ++ comment :: text)) = (r, (parseWord n (.reading (pre ++ comment :: text))).2) :=
    fun text => Prod.ext (hr text) rfl
  intro text text'
  cases r with
  | error e => rw [Scan.bind_of_error (hpair text), Scan.bind_of_error (hpair text')]
  | ok value =>
    rw [Scan.bind_of_ok (hpair text), Scan.bind_of_ok (hpair text')]
    rfl

theorem written_of_ne {word : List Char} (h : word ≠ []) : written word = .ok word := if_neg h

theorem commentFree_behindTag (valueMax : Nat) (tag : List Char) {pre : List Char} (hquote : ∀ c ∈ pre, isQuote c = false)
    (hpre : pre ≠ [equal]) : CommentFree (behindTag valueMax tag) pre := by
  cases h : feed (equalTurn maxEqual) [] pre with
  | through word =>
    obtain ⟨rfl, rfl | rfl⟩ := eq_of_feed_equal h
    · have hnone : ∀ text, parseEqual maxEqual (.reading ([] ++ comment :: text)) = (.error 1, .reading text) :=
        whileNotEof_of_through h rfl _
      exact commentFree_bind_error _ hnone
    · exact absurd rfl hpre
  | out r rest =>
    have hsign : ∀ text, parseEqual maxEqual (.reading (pre ++ comment :: text)) = (r, .reading (rest ++ comment :: text)) :=
      fun text => whileNotEof_of_out h _ (comment :: text)
    cases r with
    | error e => exact commentFree_bind_error _ hsign
    | ok sign =>
      refine commentFree_bind hsign ?_
      by_cases hs : sign ≠ [equal]
      · rw [if_pos hs]
        exact fun _ _ => rfl
      · rw [if_neg hs]
        refine commentFree_whitespace ?_
        intro w rest' hrest hw
        refine commentFree_value valueMax (fun value => (tag, value)) ?_
        intro c hc
        apply hquote c
        apply (suffix_of_feed h).subset
        rw [hrest]
        exact List.mem_append_right w hc

/-- A comment does not matter unless it begins in the tag or directly behind the equal sign. -/
theorem commentFree_parseFields {tagMax : Nat} (valueMax : Nat) {pre : List Char} (htag : 0 < tagMax)
    (hquote : ∀ c ∈ pre, isQuote c = false) (hin : ¬InTag tagMax pre) (hafter : ¬AfterEqual tagMax pre) :
    CommentFree (parseFields tagMax valueMax) pre := by
  unfold parseFields
  refine commentFree_whitespace ?_
  intro w rest hpre hw
  subst hpre
  rw [List.forall_mem_append] at hquote
  rcases @feed_word_cases tagMax rest hquote.2 [] htag with ⟨h, hall, hlt⟩ | ⟨tag, m, rest', rfl, hall, htaken, h⟩
  · by_cases hrest : rest = []
    · have hnone : ∀ text, parseWord tagMax (.reading (rest ++ comment :: text)) = (.error 1, .reading text) := by
        rw [hrest] at h ⊢
        exact whileNotEof_of_through h (wordTurn_comment tagMax []) _
      exact commentFree_bind_error _ hnone
    · exact absurd ⟨w, rest, rfl, hw, hrest, hall, hlt⟩ hin
  · rw [List.nil_append] at h htaken
    have hword : ∀ text, parseWord tagMax (.reading (tag ++ (m ++ rest') ++ comment :: text)) =
        (written tag, .reading (rest' ++ comment :: text)) := fun text => whileNotEof_of_out h _ (comment :: text)
    by_cases htag' : tag = []
    · have hnone : ∀ text, parseWord tagMax (.reading (tag ++ (m ++ rest') ++ comment :: text)) =
          (.error 1, .reading (rest' ++ comment :: text)) := by
        intro text
        rw [hword text, htag']
        rfl
      exact commentFree_bind_error _ hnone
    · rw [written_of_ne htag'] at hword
      refine commentFree_bind hword (commentFree_whitespace ?_)
      intro w' rest'' hrest hw'
      subst hrest
      refine commentFree_behindTag valueMax tag ?_ ?_
      · intro c hc
        exact hquote.2 c (List.mem_append_right tag (List.mem_append_right m (List.mem_append_right w' hc)))
      · intro hsign
        exact hafter ⟨w, tag, m, w', by rw [hsign], hw, htag', hall, htaken, hw'⟩

/-! ## Comments that are read -/

theorem consumeWhitespace_blank {w : List Char} (hw : Blank w) {c : Char} (hcomment : c ≠ comment) (hblank : isWhitespace c = false)
    (heof : c ≠ eof) (rest : List Char) : consumeWhitespace (.reading (w ++ c :: rest)) = (.ok (), .reading (c :: rest)) := by
  obtain ⟨blanks, hblanks, rfl | rfl⟩ := hw
  · have hc : feed whitespaceTurn () [c] = .out (.ok ()) [c] := by
      simp [feed, whitespaceTurn, hcomment, hblank, putBack, heof]
    have h : feed whitespaceTurn () (w ++ [c]) = .out (.ok ()) [c] := by rw [feed_blanks hblanks, hc]
    have hrun := whileNotEof_of_out h (fun _ => .error 1) rest
    rwa [List.append_assoc] at hrun
  · have h : feed whitespaceTurn () (blanks ++ [eof]) = .out (.ok ()) [] := by
      rw [feed_blanks hblanks]
      rfl
    exact whileNotEof_of_out h (fun _ => .error 1) (c :: rest)

theorem feed_word_append {n : Nat} {tag : List Char} (hall : ∀ c ∈ tag, WordChar c) {word : List Char}
    (hlen : (word ++ tag).length < n) (rest : List Char) :
    feed (wordTurn n) (word, false) (tag ++ rest) = feed (wordTurn n) (word ++ tag, false) rest := by
  induction tag generalizing word with
  | nil => rw [List.nil_append, List.append_nil]
  | cons c tag ih =>
    rw [List.forall_mem_cons] at hall
    rw [List.length_append, List.length_cons] at hlen
    rw [List.cons_append, feed, wordTurn_wordChar hall.1, if_neg (by omega), elim_next, ih hall.2 (by simp; omega), List.append_assoc,
      List.singleton_append]

/-- A word of as many characters as there may be ends with the last of them. -/
theorem feed_word_full {n : Nat} {tag : List Char} (htag : tag ≠ []) (hall : ∀ c ∈ tag, WordChar c) (hlen : tag.length = n)
    (rest : List Char) : feed (wordTurn n) ([], false) (tag ++ rest) = .out (written tag) rest := by
  obtain ⟨init, c, rfl⟩ := List.eq_nil_or_concat' tag |>.resolve_left htag
  rw [List.forall_mem_append, List.forall_mem_singleton] at hall
  rw [List.length_append, List.length_singleton] at hlen
  rw [List.append_assoc, feed_word_append hall.1 (by simp; omega), List.singleton_append, feed, List.nil_append, wordTurn_wordChar hall.2,
    if_pos hlen, elim_stop]

/-- A blank, an equal sign or a byte 0xFF ends a word. Only the last is not given back. -/
theorem feed_word_end {n : Nat} {c : Char} (hc : isWhitespace c = true ∨ c = equal ∨ c = eof) (word rest : List Char) :
    feed (wordTurn n) (word, false) (c :: rest) = .out (written word) (putBack c rest) := by
  have hturn : wordTurn n (word, false) c = .back (written word) := by
    have hcomment : c ≠ comment := by
      rintro rfl
      revert hc
      decide
    have hquote : isQuote c = false := by
      rw [← Bool.not_eq_true]
      intro hquote
      have hq : c = '\x27' ∨ c = '\x22' := by simpa [isQuote] using hquote
      rcases hq with rfl | rfl <;> revert hc <;> decide
    have hend : isWhitespace c = true ∨ isEol c = true ∨ c = equal := by
      rcases hc with hc | hc | hc
      · exact .inl hc
      · exact .inr (.inr hc)
      · exact .inr (.inl (by rw [hc]; rfl))
    simp [wordTurn, hcomment, hquote, or_assoc, hend]
  rw [feed, hturn, elim_back]

/-- Behind a tag the scanner of the tag leaves blanks and the equal sign. -/
theorem feed_word_tag {tagMax : Nat} {tag m w : List Char} (htag : tag ≠ []) (hall : ∀ c ∈ tag, WordChar c)
    (htaken : TakenAlong tagMax tag m) (hw : Blank w) :
    ∃ w', Blank w' ∧
      feed (wordTurn tagMax) ([], false) (tag ++ (m ++ (w ++ [equal]))) = .out (.ok tag) (w' ++ [equal]) := by
  have hgoes : tag.length < tagMax → ∀ rest, feed (wordTurn tagMax) ([], false) (tag ++ rest) = feed (wordTurn tagMax) (tag, false) rest :=
    fun hlt => @feed_word_append tagMax tag hall [] hlt
  rw [← written_of_ne htag]
  rcases htaken with ⟨rfl, hle⟩ | ⟨rfl | rfl, hlt⟩
  · by_cases hlen : tag.length = tagMax
    · exact ⟨w, hw, feed_word_full htag hall hlen _⟩
    · rw [hgoes (by omega)]
      obtain ⟨blanks, hblanks, hb⟩ := hw
      cases blanks with
      | nil =>
        refine ⟨[], ⟨[], by simp, .inl rfl⟩, ?_⟩
        rcases hb with rfl | rfl
        · exact feed_word_end (.inr (.inl rfl)) tag []
        · exact feed_word_end (.inr (.inr rfl)) tag [equal]
      | cons b blanks =>
        have hblank : isWhitespace b = true := hblanks b (List.mem_cons_self ..)
        have hne : b ≠ eof := by
          rintro rfl
          exact Bool.noConfusion hblank
        refine ⟨w, ⟨b :: blanks, hblanks, hb⟩, ?_⟩
        have hend : ∀ rest, feed (wordTurn tagMax) (tag, false) (b :: rest) = .out (written tag) (b :: rest) := by
          intro rest
          rw [feed_word_end (.inl hblank), putBack, if_neg hne]
        rcases hb with rfl | rfl
        · exact hend _
        · exact hend _
  · refine ⟨w, hw, ?_⟩
    rw [hgoes hlt, List.singleton_append, feed, wordTurn_comment, elim_stop]
  · refine ⟨w, hw, ?_⟩
    rw [hgoes hlt]
    exact feed_word_end (.inr (.inr rfl)) tag _

theorem consumeWhitespace_tag {w : List Char} (hw : Blank w) {tag : List Char} (htag : tag ≠ []) (hall : ∀ c ∈ tag, WordChar c)
    (rest : List Char) : consumeWhitespace (.reading (w ++ (tag ++ rest))) = (.ok (), .reading (tag ++ rest)) := by
  cases tag with
  | nil => exact absurd rfl htag
  | cons c tag =>
    have hc : WordChar c := hall c (List.mem_cons_self ..)
    have heof : c ≠ eof := by
      rintro rfl
      exact Bool.noConfusion hc.eol
    exact consumeWhitespace_blank hw hc.comment hc.whitespace heof (tag ++ rest)

/-- A comment in a tag: the line is read on in the text of the comment. -/
theorem parseFields_inTag {tagMax : Nat} (valueMax : Nat) {pre : List Char} (h : InTag tagMax pre) :
    ∃ tag, ∀ text, parseFields tagMax valueMax (.reading (pre ++ comment :: text)) =
      (consumeWhitespace >>= fun _ => behindTag valueMax tag) (.reading text) := by
  obtain ⟨w, tag, rfl, hw, htag, hall, hlt⟩ := h
  refine ⟨tag, ?_⟩
  intro text
  have hfeed : feed (wordTurn tagMax) ([], false) tag = .through (tag, false) := by
    have happ := @feed_word_append tagMax tag hall [] hlt []
    rwa [List.append_nil] at happ
  have hword : parseWord tagMax (.reading (tag ++ comment :: text)) = (.ok tag, .reading text) := by
    rw [← written_of_ne htag]
    exact whileNotEof_of_through hfeed (wordTurn_comment tagMax tag) _ text
  rw [parseFields, List.append_assoc, Scan.bind_of_ok (consumeWhitespace_tag hw htag hall _), Scan.bind_of_ok hword]

/-- A comment behind the equal sign: the value is read in the text of the comment. -/
theorem parseFields_afterEqual {tagMax : Nat} (valueMax : Nat) {pre : List Char} (h : AfterEqual tagMax pre) :
    ∃ tag, ∀ text, parseFields tagMax valueMax (.reading (pre ++ comment :: text)) =
      behindTag valueMax tag (.reading (equal :: comment :: text)) := by
  obtain ⟨w, tag, m, w', rfl, hw, htag, hall, htaken, hw'⟩ := h
  obtain ⟨w'', hw'', hfeed⟩ := feed_word_tag htag hall htaken hw'
  refine ⟨tag, ?_⟩
  intro text
  have hword : parseWord tagMax (.reading (tag ++ (m ++ (w' ++ [equal])) ++ comment :: text)) =
      (.ok tag, .reading (w'' ++ [equal] ++ comment :: text)) := whileNotEof_of_out hfeed _ (comment :: text)
  have hblank : consumeWhitespace (.reading (w'' ++ [equal] ++ comment :: text)) = (.ok (), .reading (equal :: comment :: text)) := by
    rw [List.append_assoc]
    exact consumeWhitespace_blank hw'' (by decide) (by decide) (by decide) (comment :: text)
  rw [List.append_assoc] at hword
  rw [parseFields, List.append_assoc, List.append_assoc, Scan.bind_of_ok (consumeWhitespace_tag hw htag hall _), Scan.bind_of_ok hword,
    Scan.bind_of_ok hblank]

theorem parseWord_x (valueMax : Nat) (after : List Char) : (parseWord valueMax (.reading ('x' :: '\n' :: after))).1 = .ok ['x'] := by
  have hx : WordChar 'x' := ⟨by decide, by decide, by decide, by decide, by decide⟩
  rw [parseWord, whileNotEof, scan, wordTurn_wordChar hx]
  by_cases hfull : ([] : List Char).length + 1 = valueMax
  · rw [if_pos hfull]
    rfl
  · rw [if_neg hfull]
    rfl

/-- With an equal sign the text `x` is a value, and without any text there is none. -/
theorem behindTag_x (valueMax : Nat) (tag : List Char) {m : List Char} (hm : m = [] ∨ m = [comment]) (after : List Char) :
    (behindTag valueMax tag (.reading (equal :: (m ++ 'x' :: '\n' :: after)))).1 = .ok (tag, ['x']) := by
  have hvalue : parseWord valueMax (.reading ('x' :: '\n' :: after)) =
      (.ok ['x'], (parseWord valueMax (.reading ('x' :: '\n' :: after))).2) := Prod.ext (parseWord_x valueMax after) rfl
  have hsign : parseEqual maxEqual (.reading (equal :: (m ++ 'x' :: '\n' :: after))) = (.ok [equal], .reading ('x' :: '\n' :: after)) := by
    rcases hm with rfl | rfl <;> rfl
  have hblank : consumeWhitespace (.reading ('x' :: '\n' :: after)) = (.ok (), .reading ('x' :: '\n' :: after)) := rfl
  rw [behindTag, Scan.bind_of_ok hsign, if_neg (by decide), Scan.bind_of_ok hblank, Scan.bind_of_ok hvalue]
  rfl

/-- For which beginnings of a line, without quotes, the text of a comment behind them does not matter: those behind which no tag is being
read that may have more characters, and of which the last character is not the equal sign behind a tag. -/
theorem comment_text_unread_iff (tagMax valueMax : Nat) (pre after : List Char) (htag : 0 < tagMax)
    (hquote : ∀ c ∈ pre, isQuote c = false) :
    (∀ text text' : List Char, '\n' ∉ text → '\n' ∉ text' →
      (parseLine tagMax valueMax (.reading (pre ++ comment :: (text ++ '\n' :: after)))).1 =
        (parseLine tagMax valueMax (.reading (pre ++ comment :: (text' ++ '\n' :: after)))).1) ↔
      ¬InTag tagMax pre ∧ ¬AfterEqual tagMax pre := by
  constructor
  · intro h
    constructor
    · intro hin
      obtain ⟨tag, hrun⟩ := parseFields_inTag valueMax hin
      have hsame := h [] [equal, 'x'] (by decide) (by decide)
      simp only [parseLine, hrun] at hsame
      have hnone : ((consumeWhitespace >>= fun _ => behindTag valueMax tag) (.reading ([] ++ '\n' :: after))).1 = .error 1 := rfl
      have hvalue : ((consumeWhitespace >>= fun _ => behindTag valueMax tag) (.reading ([equal, 'x'] ++ '\n' :: after))).1 =
          .ok (tag, ['x']) := behindTag_x valueMax tag (.inl rfl) after
      rw [hnone, hvalue] at hsame
      cases hsame
    · intro hafter
      obtain ⟨tag, hrun⟩ := parseFields_afterEqual valueMax hafter
      have hsame := h [] ['x'] (by decide) (by decide)
      simp only [parseLine, hrun] at hsame
      have hnone : (behindTag valueMax tag (.reading (equal :: comment :: ([] ++ '\n' :: after)))).1 = .error 1 := rfl
      have hvalue : (behindTag valueMax tag (.reading (equal :: comment :: (['x'] ++ '\n' :: after)))).1 = .ok (tag, ['x']) :=
        behindTag_x valueMax tag (.inr rfl) after
      rw [hnone, hvalue] at hsame
      cases hsame
  · rintro ⟨hin, hafter⟩ text text' _ _
    exact commentFree_parseFields valueMax htag hquote hin hafter _ _

theorem value_then_comment :
    (∀ c ∈ "TRTYPE = rdma".toList, isQuote c = false) ∧
      ∀ text text' : List Char, '\n' ∉ text → '\n' ∉ text' →
        (parseLine largestTag largestVal (.reading ("TRTYPE = rdma".toList ++ comment :: (text ++ ['\n'])))).1 =
          (parseLine largestTag largestVal (.reading ("TRTYPE = rdma".toList ++ comment :: (text' ++ ['\n'])))).1 := by
  have hquote : ∀ c ∈ "TRTYPE = rdma".toList, isQuote c = false := by simp [isQuote]
  refine ⟨hquote, (comment_text_unread_iff largestTag largestVal "TRTYPE = rdma".toList [] (by decide) hquote).mpr ⟨?_, ?_⟩⟩
  · intro hin
    exact hin.no_equal (by decide)
  · intro hafter
    exact absurd hafter.getLast (by decide)

/-- A comment directly behind the equal sign is the value. -/
theorem comment_read_as_value :
    ¬∀ pre text text' : List Char, (∀ c ∈ pre, isQuote c = false) → '\n' ∉ pre → '\n' ∉ text → '\n' ∉ text' →
      (parseLine largestTag largestVal (.reading (pre ++ comment :: (text ++ ['\n'])))).1 =
        (parseLine largestTag largestVal (.reading (pre ++ comment :: (text' ++ ['\n'])))).1 := by
  intro h
  have hsame := h "TRTYPE =".toList "rdma".toList [] (by simp [isQuote]) (by decide) (by decide) (by decide)
  revert hsame
  decide

end NvmeDem.IfaceFile
