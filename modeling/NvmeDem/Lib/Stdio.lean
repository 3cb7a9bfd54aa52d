import Mathlib.Data.List.Infix

/-!
# Files that are read a character at a time

A file is what is left of it, until a read meets its end. `fgetc` into a variable of type `char` cannot tell the end from a byte 0xFF,
and `ungetc` gives back neither. A loop `while (!feof)` reads a character and goes on, or stops, or gives the character back and
stops (`whileNotEof`); what it does on a text does not depend on what follows the place where it stops (`scan_append`).

A reader that stops at each newline and gives it back is bound to its line (`LineBound`); such readers can follow each other. One that
skips the rest of the line after them reads lines (`ReadsLine`), and a loop that calls it until the end of the file folds over the
lines of the file (`untilEof_eq_foldl`).
-/

namespace Stdio

/-- A file: what is left to read, or that its end was met. -/
inductive File where
  | reading (rest : List Char)
  | ended
  deriving DecidableEq, Repr

/-- The `char` that a read gives at the end of a file, and for a byte 0xFF. -/
def eof : Char := '\xff'

def File.feof : File → Bool
  | .reading _ => false
  | .ended => true

def File.left : File → List Char
  | .reading rest => rest
  | .ended => []

def fgetc : File → Char × File
  | .reading (c :: rest) => (c, .reading rest)
  | .reading [] => (eof, .ended)
  | .ended => (eof, .ended)

def ungetc (c : Char) (f : File) : File := if c = eof then f else .reading (c :: f.left)

@[simp] theorem left_reading (rest : List Char) : (File.reading rest).left = rest := rfl

@[simp] theorem left_ended : File.ended.left = [] := rfl

theorem ungetc_eof (f : File) : ungetc eof f = f := if_pos rfl

theorem ungetc_of_ne {c : Char} (h : c ≠ eof) (rest : List Char) : ungetc c (.reading rest) = .reading (c :: rest) := if_neg h

/-! ## Loops until the end of the file -/

variable {σ ρ α : Type}

/-- How a turn of a loop ends. -/
inductive Turn (σ ρ : Type) where
  | next (s : σ)
  | stop (r : ρ)
  /-- The character is given back. -/
  | back (r : ρ)
  deriving DecidableEq, Repr

def Turn.elim (next : σ → α) (stop back : ρ → α) : Turn σ ρ → α
  | .next s => next s
  | .stop r => stop r
  | .back r => back r

@[simp] theorem elim_next (next : σ → α) (stop back : ρ → α) (s : σ) : (Turn.next s).elim next stop back = next s := rfl

@[simp] theorem elim_stop (next : σ → α) (stop back : ρ → α) (r : ρ) : (Turn.stop r).elim next stop back = stop r := rfl

@[simp] theorem elim_back (next : σ → α) (stop back : ρ → α) (r : ρ) : (Turn.back r).elim next stop back = back r := rfl

/-- The loop over what is left of a file. At its end one more turn is taken, with the character `eof`. -/
def scan (body : σ → Char → Turn σ ρ) (done : σ → ρ) : σ → List Char → ρ × File
  | s, [] => (body s eof).elim (fun s => (done s, .ended)) (fun r => (r, .ended)) (fun r => (r, ungetc eof .ended))
  | s, c :: rest =>
    (body s c).elim (fun s => scan body done s rest) (fun r => (r, .reading rest)) (fun r => (r, ungetc c (.reading rest)))

/-- `while (!feof(fd)) { c = fgetc(fd); … }`. -/
def whileNotEof (body : σ → Char → Turn σ ρ) (done : σ → ρ) (s : σ) : File → ρ × File
  | .reading rest => scan body done s rest
  | .ended => (done s, .ended)

/-- The loop, one turn at a time. -/
theorem whileNotEof_eq (body : σ → Char → Turn σ ρ) (done : σ → ρ) (s : σ) (f : File) :
    whileNotEof body done s f =
      if f.feof then (done s, f)
      else (body s (fgetc f).1).elim (fun s => whileNotEof body done s (fgetc f).2) (fun r => (r, (fgetc f).2))
        (fun r => (r, ungetc (fgetc f).1 (fgetc f).2)) := by
  cases f with
  | ended => rfl
  | reading rest => cases rest <;> rfl

/-! ## A loop over the beginning of a text -/

/-- How far a loop comes in a text: to its end, or out before. -/
inductive Progress (σ ρ : Type) where
  | through (s : σ)
  | out (r : ρ) (rest : List Char)
  deriving DecidableEq, Repr

def Progress.elim (through : σ → α) (out : ρ → List Char → α) : Progress σ ρ → α
  | .through s => through s
  | .out r rest => out r rest

/-- A character that was given back is in front of the rest again, unless it was `eof`. -/
def putBack (c : Char) (rest : List Char) : List Char := if c = eof then rest else c :: rest

theorem ungetc_reading (c : Char) (rest : List Char) : ungetc c (.reading rest) = .reading (putBack c rest) := by
  unfold ungetc putBack
  split <;> rfl

/-- The loop over a text that does not end the file. -/
def feed (body : σ → Char → Turn σ ρ) : σ → List Char → Progress σ ρ
  | s, [] => .through s
  | s, c :: rest =>
    (body s c).elim (fun s => feed body s rest) (fun r => .out r rest) (fun r => .out r (putBack c rest))

/-- What a loop does on a text goes on with what follows only if the loop comes to the end of the text. -/
theorem scan_append (body : σ → Char → Turn σ ρ) (done : σ → ρ) (s : σ) (text after : List Char) :
    scan body done s (text ++ after) =
      (feed body s text).elim (fun s => scan body done s after) (fun r rest => (r, .reading (rest ++ after))) := by
  induction text generalizing s with
  | nil => rfl
  | cons c text ih =>
    rw [List.cons_append, scan, feed]
    cases h : body s c with
    | next s' => exact ih s'
    | stop r => rfl
    | back r =>
      simp only [elim_back, ungetc_reading, putBack]
      split <;> rfl

theorem whileNotEof_of_out {body : σ → Char → Turn σ ρ} {s : σ} {text : List Char} {r : ρ} {rest : List Char}
    (h : feed body s text = .out r rest) (done : σ → ρ) (after : List Char) :
    whileNotEof body done s (.reading (text ++ after)) = (r, .reading (rest ++ after)) := by
  rw [whileNotEof, scan_append, h, Progress.elim]

theorem whileNotEof_of_through {body : σ → Char → Turn σ ρ} {s s' : σ} {text : List Char} {c : Char} {r : ρ}
    (h : feed body s text = .through s') (hc : body s' c = .stop r) (done : σ → ρ) (after : List Char) :
    whileNotEof body done s (.reading (text ++ c :: after)) = (r, .reading after) := by
  rw [whileNotEof, scan_append, h, Progress.elim, scan, hc, elim_stop]

/-- What is left of a text was at its end. -/
theorem suffix_of_feed {body : σ → Char → Turn σ ρ} {s : σ} {text : List Char} {r : ρ} {rest : List Char}
    (h : feed body s text = .out r rest) : rest <:+ text := by
  induction text generalizing s with
  | nil => cases h
  | cons c text ih =>
    rw [feed] at h
    cases hb : body s c with
    | next s' =>
      rw [hb] at h
      exact (ih h).trans (List.suffix_cons _ _)
    | stop r' =>
      rw [hb] at h
      cases h
      exact List.suffix_cons _ _
    | back r' =>
      rw [hb] at h
      cases h
      unfold putBack
      split
      · exact List.suffix_cons _ _
      · exact List.suffix_refl _

theorem scan_suffix (body : σ → Char → Turn σ ρ) (done : σ → ρ) (s : σ) (text : List Char) :
    (scan body done s text).2.left <:+ text := by
  have h := scan_append body done s text []
  rw [List.append_nil] at h
  rw [h]
  cases hf : feed body s text with
  | through s' =>
    simp only [Progress.elim, scan]
    cases body s' eof <;> simp [ungetc_eof]
  | out r rest =>
    simpa [Progress.elim] using suffix_of_feed hf

/-! ## Readers that are bound to a line -/

/-- On a line without the byte 0xFF a reader gives a result and stops before the newline, whatever follows the line. Anywhere it leaves
an end of what there was. -/
structure LineBound (p : File → ρ × File) : Prop where
  line : ∀ l, '\n' ∉ l → eof ∉ l → ∃ r rest, rest <:+ l ∧
    ∀ after, p (.reading (l ++ '\n' :: after)) = (r, .reading (rest ++ '\n' :: after))
  suffix : ∀ f, (p f).2.left <:+ f.left

theorem lineBound_whileNotEof {body : σ → Char → Turn σ ρ} (done : σ → ρ) (s : σ) (hback : ∀ s, ∃ r, body s '\n' = .back r) :
    LineBound (whileNotEof body done s) where
  line := by
    intro l _ _
    cases hf : feed body s l with
    | out r rest =>
      exact ⟨r, rest, suffix_of_feed hf, fun after => whileNotEof_of_out hf done ('\n' :: after)⟩
    | through s' =>
      obtain ⟨r, hr⟩ := hback s'
      refine ⟨r, [], List.nil_suffix, ?_⟩
      intro after
      rw [whileNotEof, scan_append, hf, Progress.elim, scan, hr, elim_back, ungetc_of_ne (by decide), List.nil_append]
  suffix := by
    intro f
    cases f with
    | reading rest => exact scan_suffix body done s rest
    | ended => exact List.suffix_refl _

/-- A scanner returns a value or a code, and what it leaves of the file. -/
def Scan (ε α : Type) : Type := File → Except ε α × File

namespace Scan

variable {ε β : Type}

/-- The second scanner goes on where the first one stopped, if that returned a value. -/
def bind (p : Scan ε α) (q : α → Scan ε β) : Scan ε β := fun f =>
  match p f with
  | (.ok a, f) => q a f
  | (.error e, f) => (.error e, f)

instance : Monad (Scan ε) where
  pure a := fun f => (.ok a, f)
  bind := bind

def fail (e : ε) : Scan ε α := fun f => (.error e, f)

theorem bind_of_ok {p : Scan ε α} {q : α → Scan ε β} {f f' : File} {a : α} (h : p f = (.ok a, f')) : (p >>= q) f = q a f' := by
  change bind p q f = _
  rw [bind, h]

theorem bind_of_error {p : Scan ε α} {q : α → Scan ε β} {f f' : File} {e : ε} (h : p f = (.error e, f')) :
    (p >>= q) f = (.error e, f') := by
  change bind p q f = _
  rw [bind, h]

end Scan

theorem lineBound_pure {ε : Type} (a : α) : LineBound (pure a : Scan ε α) where
  line l _ _ := ⟨.ok a, l, List.suffix_refl l, fun _ => rfl⟩
  suffix _ := List.suffix_refl _

theorem lineBound_fail {ε : Type} (e : ε) : LineBound (Scan.fail e : Scan ε α) where
  line l _ _ := ⟨.error e, l, List.suffix_refl l, fun _ => rfl⟩
  suffix _ := List.suffix_refl _

theorem LineBound.bind {ε β : Type} {p : Scan ε α} {q : α → Scan ε β} (hp : LineBound p) (hq : ∀ a, LineBound (q a)) :
    LineBound (p >>= q) where
  line := by
    intro l hnl heof
    obtain ⟨r, rest, hrest, h⟩ := hp.line l hnl heof
    cases r with
    | error e => exact ⟨.error e, rest, hrest, fun after => Scan.bind_of_error (h after)⟩
    | ok a =>
      obtain ⟨r', rest', hrest', h'⟩ := (hq a).line rest (fun hm => hnl (hrest.subset hm)) (fun hm => heof (hrest.subset hm))
      exact ⟨r', rest', hrest'.trans hrest, fun after => (Scan.bind_of_ok (h after)).trans (h' after)⟩
  suffix := by
    intro f
    have hsuf := hp.suffix f
    cases h : p f with
    | mk r f' =>
      rw [h] at hsuf
      cases r with
      | error e => rwa [Scan.bind_of_error h]
      | ok a =>
        rw [Scan.bind_of_ok h]
        exact ((hq a).suffix f').trans hsuf

/-! ## Readers of lines -/

/-- On a text without the byte 0xFF a reader takes the first line with its newline, and its result depends on that line alone; the
last line may have no newline, and then the end of the file is met. -/
structure ReadsLine (p : File → ρ × File) : Prop where
  line : ∀ l after, '\n' ∉ l → eof ∉ l → p (.reading (l ++ '\n' :: after)) = ((p (.reading (l ++ ['\n']))).1, .reading after)
  last : ∀ l, '\n' ∉ l → eof ∉ l → (p (.reading l)).2 = .ended

/-- What skips the rest of a line. -/
structure SkipsLine (skip : File → File) : Prop where
  line : ∀ l after, '\n' ∉ l → eof ∉ l → skip (.reading (l ++ '\n' :: after)) = .reading after
  last : ∀ l, '\n' ∉ l → eof ∉ l → skip (.reading l) = .ended
  ended : skip .ended = .ended

/-- A reader that is bound to its line and after which the rest of the line is skipped. -/
theorem LineBound.readsLine {p : File → ρ × File} {skip : File → File} (hp : LineBound p) (hskip : SkipsLine skip) :
    ReadsLine (fun f => ((p f).1, skip (p f).2)) where
  line := by
    intro l after hnl heof
    obtain ⟨r, rest, hrest, h⟩ := hp.line l hnl heof
    have hafter := hskip.line rest after (fun hm => hnl (hrest.subset hm)) (fun hm => heof (hrest.subset hm))
    simp only [h, hafter]
  last := by
    intro l hnl heof
    have hsuf := hp.suffix (.reading l)
    cases h : (p (.reading l)).2 with
    | ended => exact hskip.ended
    | reading rest =>
      rw [h] at hsuf
      exact hskip.last rest (fun hm => hnl (hsuf.subset hm)) (fun hm => heof (hsuf.subset hm))

/-- The lines of a text, each with its newline. Only the last one may have none. -/
def linesOf : List Char → List (List Char)
  | [] => []
  | c :: cs =>
    if c = '\n' then [c] :: linesOf cs
    else match linesOf cs with
      | [] => [[c]]
      | l :: ls => (c :: l) :: ls

theorem linesOf_append {l : List Char} (h : '\n' ∉ l) (after : List Char) :
    linesOf (l ++ '\n' :: after) = (l ++ ['\n']) :: linesOf after := by
  induction l with
  | nil => rfl
  | cons c l ih =>
    rw [List.mem_cons, not_or] at h
    rw [List.cons_append, linesOf, if_neg (Ne.symm h.1), ih h.2]
    rfl

theorem linesOf_last {l : List Char} (h : '\n' ∉ l) (hl : l ≠ []) : linesOf l = [l] := by
  induction l with
  | nil => exact absurd rfl hl
  | cons c l ih =>
    rw [List.mem_cons, not_or] at h
    rw [linesOf, if_neg (Ne.symm h.1)]
    by_cases hn : l = []
    · rw [hn]
      rfl
    · rw [ih h.2 hn]

/-- The lines make up the text. -/
theorem flatten_linesOf (text : List Char) : (linesOf text).flatten = text := by
  induction text with
  | nil => rfl
  | cons c cs ih =>
    rw [linesOf]
    split
    · rw [List.flatten_cons, ih, List.singleton_append]
    · cases h : linesOf cs with
      | nil =>
        rw [h] at ih
        rw [← ih]
        rfl
      | cons l ls =>
        rw [h] at ih
        rw [← ih]
        rfl

/-- The first line of a text. -/
def firstLine (text : List Char) : List Char := (linesOf text).headD []

/-- A file of which the first line was read: the other lines are left, or its end was met. -/
def behindLine (text : List Char) : File := if '\n' ∈ text then .reading (linesOf text).tail.flatten else .ended

theorem ReadsLine.eq {p : File → ρ × File} (hp : ReadsLine p) {text : List Char} (heof : eof ∉ text) :
    p (.reading text) = ((p (.reading (firstLine text))).1, behindLine text) := by
  by_cases hnl : '\n' ∈ text
  · rw [firstLine, behindLine, if_pos hnl]
    obtain ⟨l, after, rfl, hl⟩ := List.eq_append_cons_of_mem hnl
    rw [List.mem_append, not_or] at heof
    rw [linesOf_append hl, List.headD_cons, List.tail_cons, flatten_linesOf]
    exact hp.line l after hl heof.1
  · have hfirst : firstLine text = text := by
      by_cases hn : text = []
      · rw [hn]
        rfl
      · rw [firstLine, linesOf_last hnl hn]
        rfl
    rw [hfirst, behindLine, if_neg hnl, ← hp.last text hnl heof]

/-- `while (!feof(fd)) step(fd);`, followed for some turns. -/
def untilEof (step : σ → File → σ × File) : Nat → σ → File → Option σ
  | _, s, .ended => some s
  | 0, _, .reading _ => none
  | n + 1, s, .reading rest => untilEof step n (step s (.reading rest)).1 (step s (.reading rest)).2

/-- A loop that reads a line in each turn ends, and has folded over the lines. Behind a last newline it takes one more turn. -/
theorem untilEof_eq_foldl {step : σ → File → σ × File} (hstep : ∀ s, ReadsLine (step s))
    (hnil : ∀ s, (step s (.reading [])).1 = s) {text : List Char} (heof : eof ∉ text) {turns : Nat}
    (hturns : (linesOf text).length < turns) (s : σ) :
    untilEof step turns s (.reading text) = some ((linesOf text).foldl (fun s line => (step s (.reading line)).1) s) := by
  induction turns generalizing s text with
  | zero => exact absurd hturns (Nat.not_lt_zero _)
  | succ n ih =>
    rw [untilEof]
    by_cases hnl : '\n' ∈ text
    · obtain ⟨l, after, rfl, hl⟩ := List.eq_append_cons_of_mem hnl
      rw [List.mem_append, List.mem_cons, not_or, not_or] at heof
      rw [linesOf_append hl, List.length_cons] at hturns
      rw [(hstep s).line l after hl heof.1, ih heof.2.2 (by omega), linesOf_append hl, List.foldl_cons]
    · have hlast := (hstep s).last text hnl heof
      rw [hlast]
      have hdone : ∀ s', untilEof step n s' .ended = some s' := by
        intro s'
        cases n <;> rfl
      rw [hdone]
      by_cases hn : text = []
      · rw [hn, hnil]
        rfl
      · rw [linesOf_last hnl hn]
        rfl

end Stdio
