import NvmeDem.Lib.Json
import Mathlib.Algebra.Order.BigOperators.Group.List
import Mathlib.Tactic.Ring

/-!
# The text of a JSON value

`IsText v s` is the grammar: the text `s` is JSON and says the value `v`. It has the rules for strings, arrays and objects. A value that
consists of these has no text by any other rule, so the rules for numbers and for the words are left out. A string is a list of bytes, and
an escape with a code point stands for the bytes of its encoding.

The rest is about a writer that puts a list of names in quotes with commas between them, and escapes nothing (`quoted`). Its text is right
when the names have no character that must be escaped (`Plain`). Conversely, a text that says all of these names, and possibly others, is
right only then (`all_plain_of_elements`): a name that is not plain is longer when it is escaped, so that its literal cannot be where it
was written. It is in another name, which is not plain either and still longer.
-/

namespace JsonText

open Jansson

/-! ## The grammar -/

/-- White space between the parts of a text. -/
def IsWs (w : List Char) : Prop := ∀ c ∈ w, c = ' ' ∨ c = '\t' ∨ c = '\n' ∨ c = '\r'

/-- A character that stands for itself in a literal. -/
def PlainChar (c : Char) : Prop := c ≠ '"' ∧ c ≠ '\\' ∧ 32 ≤ c.toNat

instance (c : Char) : Decidable (PlainChar c) := inferInstanceAs (Decidable (_ ∧ _ ∧ _))

def Plain (s : List Char) : Prop := ∀ c ∈ s, PlainChar c

theorem plain_of_all {s : List Char} (h : s.all (fun c => decide (PlainChar c)) = true) : Plain s :=
  fun c hc => of_decide_eq_true (List.all_eq_true.mp h c hc)

/-- What a character after a backslash stands for. -/
def escaped : Char → Option Char
  | '"' => some '"'
  | '\\' => some '\\'
  | '/' => some '/'
  | 'b' => some '\x08'
  | 'f' => some '\x0c'
  | 'n' => some '\n'
  | 'r' => some '\r'
  | 't' => some '\t'
  | _ => none

def hexValue (c : Char) : Option Nat :=
  if '0' ≤ c ∧ c ≤ '9' then some (c.toNat - '0'.toNat)
  else if 'a' ≤ c ∧ c ≤ 'f' then some (c.toNat - 'a'.toNat + 10)
  else if 'A' ≤ c ∧ c ≤ 'F' then some (c.toNat - 'A'.toNat + 10)
  else none

/-- The number that four digits say. -/
def hexNumber : List Char → Option Nat
  | [a, b, c, d] => do
    let a ← hexValue a
    let b ← hexValue b
    let c ← hexValue c
    let d ← hexValue d
    return ((a * 16 + b) * 16 + c) * 16 + d
  | _ => none

/-- The bytes of a code point. -/
def utf8 (u : Nat) : List Char :=
  if u < 0x80 then [Char.ofNat u]
  else if u < 0x800 then [Char.ofNat (0xC0 + u / 0x40), Char.ofNat (0x80 + u % 0x40)]
  else if u < 0x10000 then
    [Char.ofNat (0xE0 + u / 0x1000), Char.ofNat (0x80 + u / 0x40 % 0x40), Char.ofNat (0x80 + u % 0x40)]
  else
    [Char.ofNat (0xF0 + u / 0x40000), Char.ofNat (0x80 + u / 0x1000 % 0x40), Char.ofNat (0x80 + u / 0x40 % 0x40),
      Char.ofNat (0x80 + u % 0x40)]

def HighSurrogate (u : Nat) : Prop := 0xD800 ≤ u ∧ u < 0xDC00

def LowSurrogate (u : Nat) : Prop := 0xDC00 ≤ u ∧ u < 0xE000

/-- A part of a literal and the bytes it stands for. -/
inductive Code : List Char → List Char → Prop where
  | plain {c : Char} (h : PlainChar c) : Code [c] [c]
  | escape {e c : Char} (h : escaped e = some c) : Code [c] ['\\', e]
  | unicode {ds : List Char} {u : Nat} (h : hexNumber ds = some u) (hu : ¬HighSurrogate u ∧ ¬LowSurrogate u) :
      Code (utf8 u) ('\\' :: 'u' :: ds)
  | pair {ds ds' : List Char} {u u' : Nat} (h : hexNumber ds = some u) (h' : hexNumber ds' = some u') (hu : HighSurrogate u)
      (hu' : LowSurrogate u') :
      Code (utf8 (0x10000 + (u - 0xD800) * 0x400 + (u' - 0xDC00))) ('\\' :: 'u' :: (ds ++ '\\' :: 'u' :: ds'))

/-- What is between the quotes of a literal, and the string it says. -/
inductive Encodes : List Char → List Char → Prop where
  | nil : Encodes [] []
  | cons {x b xs bs : List Char} (h : Code x b) (hs : Encodes xs bs) : Encodes (x ++ xs) (b ++ bs)

mutual

inductive Value : Json → List Char → Prop where
  | string {s : String} {b : List Char} (h : Encodes s.toList b) : Value (.string s) ('"' :: (b ++ ['"']))
  | arrayNil {w : List Char} (hw : IsWs w) : Value (.array []) ('[' :: (w ++ [']']))
  | array {vs : List Json} {t : List Char} (h : Elements vs t) : Value (.array vs) ('[' :: (t ++ [']']))
  | objectNil {w : List Char} (hw : IsWs w) : Value (.object []) ('\x7b' :: (w ++ ['\x7d']))
  | object {fs : List (String × Json)} {t : List Char} (h : Members fs t) : Value (.object fs) ('\x7b' :: (t ++ ['\x7d']))

inductive Elements : List Json → List Char → Prop where
  | one {v : Json} {w t w' : List Char} (hw : IsWs w) (h : Value v t) (hw' : IsWs w') : Elements [v] (w ++ (t ++ w'))
  | cons {v : Json} {vs : List Json} {w t w' ts : List Char} (hw : IsWs w) (h : Value v t) (hw' : IsWs w') (hs : Elements vs ts) :
      Elements (v :: vs) (w ++ (t ++ (w' ++ ',' :: ts)))

inductive Members : List (String × Json) → List Char → Prop where
  | one {k : String} {v : Json} {w b w₁ w₂ t w' : List Char} (hw : IsWs w) (hk : Encodes k.toList b) (hw₁ : IsWs w₁)
      (hw₂ : IsWs w₂) (h : Value v t) (hw' : IsWs w') :
      Members [(k, v)] (w ++ '"' :: (b ++ '"' :: (w₁ ++ ':' :: (w₂ ++ (t ++ w')))))
  | cons {k : String} {v : Json} {fs : List (String × Json)} {w b w₁ w₂ t w' ts : List Char} (hw : IsWs w)
      (hk : Encodes k.toList b) (hw₁ : IsWs w₁) (hw₂ : IsWs w₂) (h : Value v t) (hw' : IsWs w') (hs : Members fs ts) :
      Members ((k, v) :: fs) (w ++ '"' :: (b ++ '"' :: (w₁ ++ ':' :: (w₂ ++ (t ++ (w' ++ ',' :: ts))))))

end

/-- A text that is JSON, and the value it says. -/
def IsText (v : Json) (s : List Char) : Prop := ∃ (w t w' : List Char), IsWs w ∧ Value v t ∧ IsWs w' ∧ s = w ++ (t ++ w')

/-- Names in quotes, with commas between them. Nothing is escaped. -/
def quoted : List (List Char) → List Char
  | [] => []
  | [name] => '"' :: (name ++ ['"'])
  | name :: names => '"' :: (name ++ '"' :: ',' :: quoted names)

variable {x b s t : List Char}

/-! ## Literals -/

theorem hexValue_quote {ds : List Char} {u : Nat} (h : hexNumber ds = some u) : '"' ∉ ds ∧ ',' ∉ ds ∧ ds.length = 4 := by
  have hquote : hexValue '"' = none := by decide
  have hcomma : hexValue ',' = none := by decide
  obtain ⟨a, b, c, d, rfl⟩ : ∃ (a b c d : Char), ds = [a, b, c, d] := by
    unfold hexNumber at h
    split at h
    · exact ⟨_, _, _, _, rfl⟩
    · cases h
  simp only [hexNumber, Option.bind_eq_bind, Option.bind_eq_some_iff] at h
  obtain ⟨a', ha, b', hb, c', hc, d', hd, -⟩ := h
  have hne : ∀ {e : Char} {n : Nat}, hexValue e = some n → '"' ≠ e ∧ ',' ≠ e := by
    rintro e n he
    constructor
    · rintro rfl
      rw [hquote] at he
      cases he
    · rintro rfl
      rw [hcomma] at he
      cases he
  simp [hne ha, hne hb, hne hc, hne hd]

theorem length_utf8 (u : Nat) : 1 ≤ (utf8 u).length ∧ (utf8 u).length ≤ 4 := by
  unfold utf8
  split
  · simp
  · split
    · simp
    · split <;> simp

/-- A part of a literal is a plain character or begins with a backslash. What comes after the backslash is longer than what the part stands
for, and it has a quote at its beginning at most. -/
theorem Code.cases (h : Code x b) : (∃ c, PlainChar c ∧ x = [c] ∧ b = [c]) ∨
    ∃ (e : Char) (ds : List Char), b = '\\' :: e :: ds ∧ '"' ∉ ds ∧ ',' ∉ e :: ds ∧ x.length ≤ (e :: ds).length := by
  cases h with
  | @plain c h => exact Or.inl ⟨c, h, rfl, rfl⟩
  | @escape e c h =>
    refine Or.inr ⟨e, [], rfl, by simp, ?_, by simp⟩
    intro hmem
    obtain rfl := List.mem_singleton.mp hmem
    cases h
  | @unicode ds u h _ =>
    obtain ⟨hquote, hcomma, hlen⟩ := hexValue_quote h
    refine Or.inr ⟨'u', ds, rfl, hquote, by simp [hcomma], ?_⟩
    have := (length_utf8 u).2
    simp only [List.length_cons, hlen]
    omega
  | @pair ds ds' u u' h h' _ _ =>
    obtain ⟨hquote, hcomma, hlen⟩ := hexValue_quote h
    obtain ⟨hquote', hcomma', hlen'⟩ := hexValue_quote h'
    refine Or.inr ⟨'u', ds ++ '\\' :: 'u' :: ds', rfl, by simp [hquote, hquote'], by simp [hcomma, hcomma'], ?_⟩
    have := (length_utf8 (0x10000 + (u - 0xD800) * 0x400 + (u' - 0xDC00))).2
    simp only [List.length_cons, List.length_append, hlen, hlen']
    omega

theorem Encodes.of_plain (h : Plain s) : Encodes s s := by
  induction s with
  | nil => exact Encodes.nil
  | cons c s ih =>
    have hc : Code [c] [c] := Code.plain (h c List.mem_cons_self)
    exact Encodes.cons hc (ih (fun d hd => h d (List.mem_cons_of_mem c hd)))

/-- A literal says what is written, or it has a backslash and is longer. -/
theorem Encodes.cases (h : Encodes x b) : (Plain x ∧ b = x) ∨ ('\\' ∈ b ∧ x.length < b.length) := by
  induction h with
  | nil => exact Or.inl ⟨fun c hc => absurd hc List.not_mem_nil, rfl⟩
  | @cons x b xs bs h hs ih =>
    rcases h.cases with ⟨c, hc, rfl, rfl⟩ | ⟨e, ds, rfl, -, -, hlen⟩
    · rcases ih with ⟨hplain, rfl⟩ | ⟨hmem, hlen⟩
      · refine Or.inl ⟨?_, rfl⟩
        intro d hd
        rcases List.mem_cons.mp hd with rfl | hd
        · exact hc
        · exact hplain d hd
      · exact Or.inr ⟨List.mem_cons_of_mem c hmem, by simpa using hlen⟩
    · refine Or.inr ⟨by simp, ?_⟩
      have hle : xs.length ≤ bs.length := by
        rcases ih with ⟨-, rfl⟩ | ⟨-, hlt⟩
        · exact Nat.le_refl _
        · exact Nat.le_of_lt hlt
      simp only [List.length_append, List.length_cons] at hlen ⊢
      omega

/-- A quote in a literal comes right after a backslash. -/
theorem Encodes.quote (h : Encodes x b) {u v : List Char} (hb : b = u ++ '"' :: v) : ∃ u', u = u' ++ ['\\'] := by
  induction h generalizing u with
  | nil => simp at hb
  | @cons x b xs bs h hs ih =>
    rcases h.cases with ⟨c, hc, rfl, rfl⟩ | ⟨e, ds, rfl, hds, -, -⟩
    · rcases u with _ | ⟨d, u⟩
      · cases hb
        exact absurd rfl hc.1
      · obtain ⟨rfl, htail⟩ : c = d ∧ bs = u ++ '"' :: v := List.cons.inj hb
        obtain ⟨u', rfl⟩ := ih htail
        exact ⟨c :: u', rfl⟩
    · rcases u with _ | ⟨d, u⟩
      · cases hb
      · obtain ⟨rfl, htail⟩ : '\\' = d ∧ e :: (ds ++ bs) = u ++ '"' :: v := List.cons.inj hb
        rcases u with _ | ⟨d, u⟩
        · exact ⟨[], rfl⟩
        · obtain ⟨rfl, hrest⟩ : e = d ∧ ds ++ bs = u ++ '"' :: v := List.cons.inj htail
          rcases List.append_eq_append_iff.mp hrest with ⟨u₁, rfl, hbs⟩ | ⟨c', hds', hv⟩
          · obtain ⟨u', rfl⟩ := ih hbs
            exact ⟨'\\' :: e :: (ds ++ u'), by simp⟩
          · rcases c' with _ | ⟨d', c'⟩
            · obtain ⟨u', hu'⟩ := @ih [] hv.symm
              simp at hu'
            · obtain ⟨rfl, -⟩ := List.cons.inj hv
              rw [hds'] at hds
              simp at hds

/-- A literal that ends with a comma says a string that does. -/
theorem Encodes.comma (h : Encodes x b) {u : List Char} (hb : b = u ++ [',']) : ∃ y, x = y ++ [','] := by
  induction h generalizing u with
  | nil => simp at hb
  | @cons x b xs bs h hs ih =>
    rcases List.eq_nil_or_concat' bs with rfl | ⟨bs', d, rfl⟩
    · have hxs : xs = [] := by
        rcases hs.cases with ⟨-, h⟩ | ⟨h, -⟩
        · exact h.symm
        · cases h
      subst hxs
      rw [List.append_nil] at hb ⊢
      rcases h.cases with ⟨c, -, rfl, rfl⟩ | ⟨e, ds, rfl, -, hcomma, -⟩
      · exact ⟨u, hb⟩
      · refine absurd ?_ hcomma
        have hmem : ',' ∈ '\\' :: e :: ds := by rw [hb]; simp
        rcases List.mem_cons.mp hmem with h | h
        · cases h
        · exact h
    · rw [← List.append_assoc] at hb
      obtain ⟨-, hd⟩ := List.append_inj' hb rfl
      obtain ⟨y, rfl⟩ := ih (by rw [hd] : bs' ++ [d] = bs' ++ [','])
      exact ⟨x ++ y, by simp⟩

/-- A literal is where a plain string is written only if it says this string. -/
theorem Encodes.eq_of_plain {u v : List Char} (h : Encodes x b) (hs : Plain s) (heq : b ++ '"' :: u = s ++ '"' :: v) :
    x = s ∧ b = s ∧ u = v := by
  have hquote : '"' ∉ s := fun hmem => absurd rfl (hs '"' hmem).1
  have hback : '\\' ∉ s := fun hmem => absurd rfl (hs '\\' hmem).2.1
  obtain ⟨rfl, rfl⟩ : b = s ∧ u = v := by
    rcases List.append_eq_append_iff.mp heq with ⟨c, rfl, hc⟩ | ⟨c, rfl, hc⟩
    · rcases c with _ | ⟨d, c⟩
      · exact ⟨(List.append_nil b).symm, (List.cons.inj hc).2⟩
      · obtain ⟨rfl, -⟩ := List.cons.inj hc
        simp at hquote
    · rcases c with _ | ⟨d, c⟩
      · exact ⟨List.append_nil s, (List.cons.inj hc).2.symm⟩
      · obtain ⟨rfl, -⟩ := List.cons.inj hc
        obtain ⟨u', rfl⟩ := h.quote rfl
        simp at hback
  rcases h.cases with ⟨-, rfl⟩ | ⟨hmem, -⟩
  · exact ⟨rfl, rfl, rfl⟩
  · exact absurd hmem hback

/-! ## Names in quotes -/

/-- A literal is in a written name, up to its end or up to a quote of it; or it goes over the end of the name, and its own quote is the
one that begins the next name. -/
def Inside (b s : List Char) : Prop :=
  (∃ (p q : List Char), s = p ++ (b ++ q) ∧ (q = [] ∨ ∃ q' : List Char, q = '"' :: q')) ∨
    ∃ (p p' : List Char), s = p ++ p' ∧ b = p' ++ ['"', ',']

/-- What follows the quote at the end of a name: nothing with a quote, or the next name. -/
def Follows (tail : List Char) : Prop := '"' ∉ tail ∨ ∃ tail' : List Char, tail = ',' :: '"' :: tail'

/-- A literal that begins in a name, or where it begins. -/
theorem Encodes.inside_end {p p' tail u : List Char} (h : Encodes x b) (htail : Follows tail)
    (heq : b ++ '"' :: u = p' ++ '"' :: tail) : Inside b (p ++ p') := by
  rcases List.append_eq_append_iff.mp heq with ⟨q, rfl, hq⟩ | ⟨c, rfl, hc⟩
  · refine Or.inl ⟨p, q, rfl, ?_⟩
    rcases q with _ | ⟨d, q⟩
    · exact Or.inl rfl
    · obtain ⟨rfl, -⟩ := List.cons.inj hq
      exact Or.inr ⟨q, rfl⟩
  · rcases c with _ | ⟨d, c⟩
    · exact Or.inl ⟨p, [], by simp, Or.inl rfl⟩
    · obtain ⟨rfl, htext⟩ : '"' = d ∧ tail = c ++ '"' :: u := List.cons.inj hc
      rcases htail with hnone | ⟨tail', rfl⟩
      · rw [htext] at hnone
        simp at hnone
      · rcases c with _ | ⟨d, c⟩
        · cases (List.cons.inj htext).1
        · obtain ⟨rfl, hnext⟩ : ',' = d ∧ '"' :: tail' = c ++ '"' :: u := List.cons.inj htext
          rcases c with _ | ⟨d, c⟩
          · exact Or.inr ⟨p, p', rfl, rfl⟩
          · -- The quote that begins the next name comes after a comma.
            obtain ⟨rfl, -⟩ : '"' = d ∧ tail' = c ++ '"' :: u := List.cons.inj hnext
            obtain ⟨v, hv⟩ := @h.quote x _ (p' ++ ['"', ',']) c (by simp)
            rw [List.append_cons] at hv
            cases (List.append_inj' hv rfl).2

/-- No literal with an escape begins at the quote that ends a name. -/
theorem Encodes.not_after {tail u : List Char} (h : Encodes x b) (hb : '\\' ∈ b) (htail : Follows tail) : tail ≠ b ++ '"' :: u := by
  intro htext
  rcases htail with hnone | ⟨tail', rfl⟩
  · rw [htext] at hnone
    simp at hnone
  · rcases b with _ | ⟨d, b⟩
    · cases hb
    · obtain ⟨rfl, hnext⟩ : ',' = d ∧ '"' :: tail' = b ++ '"' :: u := List.cons.inj htext
      rcases b with _ | ⟨d, b⟩
      · simp at hb
      · obtain ⟨rfl, -⟩ : '"' = d ∧ tail' = b ++ '"' :: u := List.cons.inj hnext
        obtain ⟨v, hv⟩ := @h.quote x _ [','] b rfl
        cases (List.append_inj' (show [] ++ [','] = v ++ ['\\'] from hv) rfl).2

/-- What is behind the quote that begins a name. -/
theorem quoted_cons (name : List Char) (names : List (List Char)) {rest : List Char} (hrest : '"' ∉ rest) :
    ∃ tail, quoted (name :: names) ++ rest = '"' :: (name ++ '"' :: tail) ∧ Follows tail ∧
      ('"' ∈ tail → tail = ',' :: (quoted names ++ rest)) := by
  rcases names with _ | ⟨name', names⟩
  · exact ⟨rest, by simp [quoted], Or.inl hrest, fun hmem => absurd hmem hrest⟩
  · refine ⟨',' :: (quoted (name' :: names) ++ rest), by simp [quoted], Or.inr ?_, fun _ => rfl⟩
    rcases names with _ | ⟨name'', names⟩
    · exact ⟨name' ++ '"' :: rest, by simp [quoted]⟩
    · exact ⟨name' ++ '"' :: ',' :: (quoted (name'' :: names) ++ rest), by simp [quoted]⟩

/-- A literal with an escape is in one of the names that are written. -/
theorem Encodes.inside {names : List (List Char)} {rest u v : List Char} (h : Encodes x b) (hb : '\\' ∈ b) (hrest : '"' ∉ rest)
    (heq : quoted names ++ rest = u ++ '"' :: (b ++ '"' :: v)) : ∃ s ∈ names, Inside b s := by
  induction names generalizing u with
  | nil =>
    rw [show quoted [] ++ rest = rest from rfl] at heq
    rw [heq] at hrest
    simp at hrest
  | cons name names ih =>
    obtain ⟨tail, htext, htail, hnext⟩ := quoted_cons name names hrest
    rw [htext] at heq
    rcases u with _ | ⟨d, u⟩
    · have hname : b ++ '"' :: v = name ++ '"' :: tail := (List.cons.inj heq).2.symm
      exact ⟨name, List.mem_cons_self, @Encodes.inside_end x b [] name tail v h htail hname⟩
    · obtain ⟨rfl, hbody⟩ : '"' = d ∧ name ++ '"' :: tail = u ++ '"' :: (b ++ '"' :: v) := List.cons.inj heq
      -- Whether the literal begins before the end of the name, at the quote there, or later.
      rcases List.append_eq_append_iff.mp hbody with ⟨c, rfl, hc⟩ | ⟨c, rfl, hc⟩
      · rcases c with _ | ⟨d, c⟩
        · exact absurd (List.cons.inj hc).2 (h.not_after hb htail)
        · obtain ⟨rfl, hlater⟩ : '"' = d ∧ tail = c ++ '"' :: (b ++ '"' :: v) := List.cons.inj hc
          have hnames : tail = ',' :: (quoted names ++ rest) := hnext (by rw [hlater]; simp)
          rw [hnames] at hlater
          rcases c with _ | ⟨d, c⟩
          · cases (List.cons.inj hlater).1
          · obtain ⟨s, hs, hin⟩ := ih (List.cons.inj hlater).2
            exact ⟨s, List.mem_cons_of_mem name hs, hin⟩
      · rcases c with _ | ⟨d, c⟩
        · exact absurd (List.cons.inj hc).2.symm (h.not_after hb htail)
        · obtain ⟨rfl, hbegin⟩ : '"' = d ∧ b ++ '"' :: v = c ++ '"' :: tail := List.cons.inj hc
          have hin : Inside b ((u ++ ['"']) ++ c) := h.inside_end htail hbegin
          exact ⟨u ++ '"' :: c, List.mem_cons_self, by simpa using hin⟩

/-- A measure that grows from a name to the name in which its literal is. -/
def weight (s : List Char) : Nat := s.length + if s.getLast? = some ',' then 0 else 2

theorem Encodes.weight_lt (h : Encodes x b) (hb : '\\' ∈ b) (hin : Inside b s) : ¬Plain s ∧ weight x < weight s := by
  have hlen : x.length < b.length := by
    rcases h.cases with ⟨hplain, rfl⟩ | ⟨-, hlt⟩
    · exact absurd rfl (hplain '\\' hb).2.1
    · exact hlt
  have hcomma : b.getLast? = some ',' → x.getLast? = some ',' := by
    intro hlast
    obtain ⟨u, hu⟩ := List.getLast?_eq_some_iff.mp hlast
    exact List.getLast?_eq_some_iff.mpr (h.comma hu)
  rcases hin with ⟨p, q, rfl, hq⟩ | ⟨p, p', rfl, rfl⟩
  · refine ⟨fun hplain => (hplain '\\' (by simp [hb])).2.1 rfl, ?_⟩
    unfold weight
    rcases hq with rfl | ⟨q', rfl⟩
    · have hlast : (p ++ (b ++ [])).getLast? = b.getLast? := by
        rw [List.append_nil]
        exact List.getLast?_append_of_ne_nil p (List.ne_nil_of_mem hb)
      rw [hlast]
      simp only [List.length_append, List.length_nil]
      split <;> split <;> simp_all <;> omega
    · rcases List.eq_nil_or_concat' q' with rfl | ⟨q', d, rfl⟩
      · have hlast : (p ++ (b ++ ['"'])).getLast? = some '"' := by simp
        rw [hlast]
        simp only [List.length_append, List.length_cons, List.length_nil]
        split <;> simp <;> omega
      · simp only [List.length_append, List.length_cons, List.length_nil]
        split <;> split <;> omega
  · obtain ⟨w, rfl⟩ := @h.quote x _ p' [','] rfl
    have hx : x.getLast? = some ',' := hcomma (by simp)
    refine ⟨fun hplain => (hplain '\\' (by simp)).2.1 rfl, ?_⟩
    have hs : (p ++ (w ++ ['\\'])).getLast? = some '\\' := by simp
    unfold weight
    rw [hx, hs]
    simp only [List.length_append, List.length_cons, List.length_nil] at hlen ⊢
    simp
    omega

/-- Names whose literals are all in what is written are plain. -/
theorem all_plain_of_literals {names : List (List Char)} {rest : List Char} (hrest : '"' ∉ rest)
    (h : ∀ x ∈ names, ∃ (u b v : List Char), Encodes x b ∧ quoted names ++ rest = u ++ '"' :: (b ++ '"' :: v)) :
    ∀ x ∈ names, Plain x := by
  by_contra hne
  obtain ⟨x, hx⟩ := not_forall.mp hne
  obtain ⟨hx, hplain⟩ := Classical.not_imp.mp hx
  -- From one such name to another with a larger weight, without end.
  have hstep : ∀ x ∈ names, ¬Plain x → ∃ s ∈ names, ¬Plain s ∧ weight x < weight s := by
    intro x hx hplain
    obtain ⟨u, b, v, hcode, heq⟩ := h x hx
    have hb : '\\' ∈ b := by
      rcases hcode.cases with ⟨hp, -⟩ | ⟨hb, -⟩
      · exact absurd hp hplain
      · exact hb
    obtain ⟨s, hs, hin⟩ := hcode.inside hb hrest heq
    exact ⟨s, hs, hcode.weight_lt hb hin⟩
  have hlarge : ∀ n : Nat, ∃ s ∈ names, ¬Plain s ∧ n ≤ weight s := by
    intro n
    induction n with
    | zero => exact ⟨x, hx, hplain, Nat.zero_le _⟩
    | succ n ih =>
      obtain ⟨s, hs, hp, hn⟩ := ih
      obtain ⟨s', hs', hp', hlt⟩ := hstep s hs hp
      exact ⟨s', hs', hp', Nat.lt_of_le_of_lt hn hlt⟩
  obtain ⟨s, hs, -, hn⟩ := hlarge ((names.map weight).sum + 1)
  have hle : weight s ≤ (names.map weight).sum := List.le_sum_of_mem (List.mem_map_of_mem hs)
  omega

/-! ## A list of names under a key -/

/-- The value: an object with one field, which is an array of strings. -/
def namesValue (k : String) (names : List String) : Json := .object [(k, .array (names.map Json.string))]

/-- What is in the brackets of an array of strings. -/
def Contents (names : List String) (t : List Char) : Prop := (names = [] ∧ IsWs t) ∨ Elements (names.map Json.string) t

/-- The text before the names. -/
def opening (k : String) : List Char := '\x7b' :: '"' :: (k.toList ++ ['"', ':', '['])

theorem IsWs.nil : IsWs [] := fun _ h => absurd h List.not_mem_nil

/-- There is no white space before a character of another kind. -/
theorem IsWs.eq_nil {w s' : List Char} {d : Char} (hw : IsWs w) (hd : ¬(d = ' ' ∨ d = '\t' ∨ d = '\n' ∨ d = '\r'))
    (h : w ++ s = d :: s') : w = [] := by
  rcases w with _ | ⟨c, w⟩
  · rfl
  · obtain ⟨rfl, -⟩ := List.cons.inj h
    exact absurd (hw c List.mem_cons_self) hd

theorem value_string {name : String} (h : Value (.string name) t) : ∃ b, Encodes name.toList b ∧ t = '"' :: (b ++ ['"']) := by
  cases h with
  | string h => exact ⟨_, h, rfl⟩

/-- The first string of an array of strings. -/
theorem elements_cons {name : String} {names : List String} (h : Elements ((name :: names).map Json.string) t) :
    ∃ (w b w' ts : List Char), IsWs w ∧ Encodes name.toList b ∧ IsWs w' ∧ t = w ++ '"' :: (b ++ '"' :: (w' ++ ts)) ∧
      ((names = [] ∧ ts = []) ∨ ∃ ts' : List Char, ts = ',' :: ts' ∧ Elements (names.map Json.string) ts') := by
  rw [List.map_cons] at h
  generalize hvs : names.map Json.string = vs at h
  cases h with
  | @one _ w t w' hw h hw' =>
    obtain ⟨b, hb, rfl⟩ := value_string h
    exact ⟨w, b, w', [], hw, hb, hw', by simp, Or.inl ⟨List.map_eq_nil_iff.mp hvs, rfl⟩⟩
  | @cons _ _ w t w' ts hw h hw' hs =>
    obtain ⟨b, hb, rfl⟩ := value_string h
    exact ⟨w, b, w', ',' :: ts, hw, hb, hw', by simp, Or.inr ⟨ts, rfl, hvs ▸ hs⟩⟩

theorem not_elements_nil : ¬Elements [] t := by
  intro h
  cases h

/-- Every string of an array has its literal in the text. -/
theorem Contents.literal {names : List String} (h : Contents names t) :
    ∀ name ∈ names, ∃ (u b v : List Char), Encodes name.toList b ∧ t = u ++ '"' :: (b ++ '"' :: v) := by
  rcases h with ⟨rfl, -⟩ | h
  · exact fun _ hname => absurd hname List.not_mem_nil
  · induction names generalizing t with
    | nil => exact absurd h not_elements_nil
    | cons name names ih =>
      obtain ⟨w, b, w', ts, -, hb, -, rfl, hts⟩ := elements_cons h
      intro name' hname
      rcases List.mem_cons.mp hname with rfl | hname
      · exact ⟨w, b, w' ++ ts, hb, rfl⟩
      · rcases hts with ⟨rfl, -⟩ | ⟨ts', rfl, hs⟩
        · cases hname
        · obtain ⟨u, b', v, hb', rfl⟩ := ih hs name' hname
          exact ⟨w ++ '"' :: (b ++ '"' :: (w' ++ ',' :: u)), b', v, hb', by simp⟩

/-- An array does not begin with a comma. -/
theorem Contents.not_comma {names : List String} {r r' : List Char} (h : Contents names t) : t ++ ']' :: r ≠ ',' :: r' := by
  intro heq
  rcases h with ⟨-, hw⟩ | h
  · obtain rfl := hw.eq_nil (by decide) heq
    cases (List.cons.inj heq).1
  · rcases names with _ | ⟨name, names⟩
    · exact not_elements_nil h
    · obtain ⟨w, b, w', ts, hw, -, -, rfl, -⟩ := elements_cons h
      rw [List.append_assoc] at heq
      obtain rfl := hw.eq_nil (by decide) heq
      cases (List.cons.inj heq).1

/-- Plain names in quotes are read as they are. -/
theorem Contents.eq_of_plain {names printed : List String} {r r' : List Char} (h : Contents names t)
    (hplain : ∀ name ∈ printed, Plain name.toList) (heq : t ++ ']' :: r = quoted (printed.map String.toList) ++ ']' :: r') :
    names = printed := by
  rcases h with ⟨rfl, hw⟩ | h
  · rcases printed with _ | ⟨name, printed⟩
    · rfl
    · obtain ⟨s, hs⟩ : ∃ s, quoted ((name :: printed).map String.toList) ++ ']' :: r' = '"' :: s := by
        rcases printed with _ | ⟨name', printed⟩ <;> exact ⟨_, rfl⟩
      rw [hs] at heq
      obtain rfl := hw.eq_nil (by decide) heq
      cases (List.cons.inj heq).1
  · induction names generalizing t printed with
    | nil => exact absurd h not_elements_nil
    | cons name names ih =>
      obtain ⟨w, b, w', ts, hw, hb, hw', rfl, hts⟩ := elements_cons h
      rcases printed with _ | ⟨name', printed⟩
      · rw [List.append_assoc] at heq
        obtain rfl := hw.eq_nil (by decide) heq
        cases (List.cons.inj heq).1
      · have hname' : Plain name'.toList := hplain name' List.mem_cons_self
        obtain ⟨tail, htext, htail⟩ : ∃ tail, quoted ((name' :: printed).map String.toList) ++ ']' :: r' =
            '"' :: (name'.toList ++ '"' :: tail) ∧ ((printed = [] ∧ tail = ']' :: r') ∨
              (printed ≠ [] ∧ tail = ',' :: (quoted (printed.map String.toList) ++ ']' :: r'))) := by
          rcases printed with _ | ⟨name'', printed⟩
          · exact ⟨_, by simp [quoted], Or.inl ⟨rfl, rfl⟩⟩
          · exact ⟨_, by simp [quoted], Or.inr ⟨List.cons_ne_nil _ _, rfl⟩⟩
        rw [htext, List.append_assoc] at heq
        obtain rfl := hw.eq_nil (by decide) heq
        have hbody : b ++ '"' :: (w' ++ (ts ++ ']' :: r)) = name'.toList ++ '"' :: tail := by
          simpa using (List.cons.inj heq).2
        obtain ⟨hname, -, hrest⟩ := hb.eq_of_plain hname' hbody
        obtain rfl : name = name' := String.toList_injective hname
        congr 1
        rcases htail with ⟨rfl, rfl⟩ | ⟨hne, rfl⟩
        · obtain rfl := hw'.eq_nil (by decide) hrest
          rcases hts with ⟨rfl, -⟩ | ⟨ts', rfl, -⟩
          · rfl
          · cases (List.cons.inj hrest).1
        · obtain rfl := hw'.eq_nil (by decide) hrest
          rcases hts with ⟨rfl, rfl⟩ | ⟨ts', rfl, hs⟩
          · cases (List.cons.inj hrest).1
          · exact ih (fun n hn => hplain n (List.mem_cons_of_mem _ hn)) (List.cons.inj hrest).2 hs

/-- What comes behind the opening in a text of a list of names. -/
theorem contents_of_isText {k : String} {names : List String} {r rest : List Char} (hk : Plain k.toList)
    (h : IsText (namesValue k names) s) (heq : s ++ r = opening k ++ rest) :
    ∃ (t r' : List Char), Contents names t ∧ rest = t ++ ']' :: r' := by
  obtain ⟨w, t, w', hw, hv, -, rfl⟩ := h
  rw [List.append_assoc] at heq
  obtain rfl := hw.eq_nil (by decide) heq
  rw [namesValue] at hv
  cases hv with
  | @object _ t hm =>
    cases hm with
    | @one _ _ w b w₁ w₂ t w₃ hw hb hw₁ hw₂ hv _ =>
      have hopen : w ++ '"' :: (b ++ '"' :: (w₁ ++ ':' :: (w₂ ++ (t ++ (w₃ ++ '\x7d' :: (w' ++ r)))))) =
          '"' :: (k.toList ++ '"' :: ':' :: '[' :: rest) := by
        simpa [opening] using (List.cons.inj heq).2
      obtain rfl := hw.eq_nil (by decide) hopen
      obtain ⟨-, -, hkey⟩ := hb.eq_of_plain hk (List.cons.inj hopen).2
      obtain rfl := hw₁.eq_nil (by decide) hkey
      have hvalue := (List.cons.inj hkey).2
      obtain rfl := hw₂.eq_nil (by decide) hvalue
      generalize hvs : names.map Json.string = vs at hv
      cases hv with
      | @arrayNil t ht =>
        refine ⟨t, w₃ ++ '\x7d' :: (w' ++ r), Or.inl ⟨List.map_eq_nil_iff.mp hvs, ht⟩, ?_⟩
        simpa using (List.cons.inj hvalue).2.symm
      | @array _ t ht =>
        refine ⟨t, w₃ ++ '\x7d' :: (w' ++ r), Or.inr (hvs ▸ ht), ?_⟩
        simpa using (List.cons.inj hvalue).2.symm
    | cons _ _ _ _ _ _ hs => cases hs

/-- A list of names that is the text of these and possibly more names has plain names only. -/
theorem all_plain_of_isText {k : String} {names printed : List String} {r : List Char} (hk : Plain k.toList)
    (hsub : ∀ name ∈ printed, name ∈ names) (h : IsText (namesValue k names) s)
    (heq : s ++ r = opening k ++ (quoted (printed.map String.toList) ++ [']', '\x7d'])) :
    ∀ name ∈ printed, Plain name.toList := by
  obtain ⟨t, r', ht, hrest⟩ := contents_of_isText hk h heq
  have hall : ∀ x ∈ printed.map String.toList, Plain x := by
    refine @all_plain_of_literals (printed.map String.toList) [']', '\x7d'] (by decide) ?_
    intro x hx
    obtain ⟨name, hname, rfl⟩ := List.mem_map.mp hx
    obtain ⟨u, b, v, hb, rfl⟩ := ht.literal name (hsub name hname)
    exact ⟨u, b, v ++ ']' :: r', hb, by rw [hrest]; simp⟩
  exact fun name hname => hall _ (List.mem_map_of_mem hname)

/-- Plain names in quotes are an array of strings. -/
theorem contents_of_plain {names : List String} (h : ∀ name ∈ names, Plain name.toList) :
    Contents names (quoted (names.map String.toList)) := by
  induction names with
  | nil => exact Or.inl ⟨rfl, IsWs.nil⟩
  | cons name names ih =>
    have hname : Value (.string name) ('"' :: (name.toList ++ ['"'])) :=
      Value.string (Encodes.of_plain (h name List.mem_cons_self))
    rcases names with _ | ⟨name', names⟩
    · have hone := Elements.one IsWs.nil hname IsWs.nil
      exact Or.inr (by simpa [quoted] using hone)
    · rcases ih (fun n hn => h n (List.mem_cons_of_mem name hn)) with ⟨hnil, -⟩ | hrest
      · cases hnil
      · have hcons := Elements.cons IsWs.nil hname IsWs.nil hrest
        exact Or.inr (by simpa [quoted] using hcons)

/-- When the names are plain, the list of them is a text, of these names only. -/
theorem isText_iff_of_plain {k : String} {names printed : List String} (hk : Plain k.toList)
    (h : ∀ name ∈ printed, Plain name.toList) :
    IsText (namesValue k names) (opening k ++ (quoted (printed.map String.toList) ++ [']', '\x7d'])) ↔ names = printed := by
  constructor
  · intro htext
    obtain ⟨t, r, ht, hrest⟩ := @contents_of_isText _ _ _ [] _ hk htext (List.append_nil _)
    exact ht.eq_of_plain h hrest.symm
  · rintro rfl
    have hv : Value (.array (names.map Json.string)) ('[' :: (quoted (names.map String.toList) ++ [']'])) := by
      rcases contents_of_plain h with ⟨rfl, hw⟩ | helems
      · exact Value.arrayNil hw
      · exact Value.array helems
    have hobject := Value.object (Members.one IsWs.nil (Encodes.of_plain hk) IsWs.nil IsWs.nil hv IsWs.nil)
    exact ⟨[], _, [], IsWs.nil, hobject, IsWs.nil, by simp [opening]⟩

end JsonText
