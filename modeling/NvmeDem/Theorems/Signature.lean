import Mathlib.Data.List.TakeWhile
import NvmeDem.Dem.Signature

/-!
# The signature after a restart

The file has the new signature whole, but only its first line is read back, and no more than 248 characters of it. A line with its newline is
copied into memory that is one byte short. The daemon gives back the memory of the text it has made the string of, so that all of it holds only
where the library copies texts.
-/

namespace NvmeDem.Signature

open Jansson (Json)

/-- The new signature of a request. -/
def newText (J : JsonLib) (data : String) : List Char := (((J.loads data).bind (Json.strField tagNew)).map cText).getD []

/-- A signature is accepted and nothing else. -/
def AcceptsOnly (signature : MgStr) (text : List Char) : Prop := ∀ header, isEqual header signature = .ok (decide (header = text))

/-- The signature that is in force and the one that is in force after a restart are accepted and nothing else. -/
def Survives (mg : Mongoose) (text : List Char) (s : State) : Prop :=
  AcceptsOnly s.signature text ∧ ∃ s', setSignature mg s.file = .ok s' ∧ AcceptsOnly s'.signature text

variable {mg : Mongoose} {J : JsonLib} {opened : Bool} {data : String} {s : State} {out : Updated}

/-! ## Strings -/

theorem acceptsOnly_mgMkStrN (hcopies : mg.copies = true) (text : List Char) : AcceptsOnly (mgMkStrN mg text text.length) text := by
  intro header
  rw [isEqual, mgMkStrN, if_pos hcopies]
  split
  · rename_i hlen
    have hne : header ≠ text := fun heq => hlen (congrArg List.length heq)
    rw [decide_eq_false hne]
  · simp [MgStr.read, Except.map]

/-- A string of memory that was given back is not accepted. -/
theorem not_acceptsOnly_mgMkStrN (hcopies : ¬mg.copies = true) (text : List Char) : ¬AcceptsOnly (mgMkStrN mg text text.length) text := by
  intro h
  have hself := h text
  rw [isEqual, mgMkStrN, if_neg hcopies, if_neg (not_not_intro rfl)] at hself
  exact nomatch hself

theorem acceptsOnly_inj {signature : MgStr} {text text' : List Char} (h : AcceptsOnly signature text) (h' : AcceptsOnly signature text') :
    text = text' := by
  have hself := (h text).symm.trans (h' text)
  simpa using Except.ok.inj hself

/-! ## The file -/

/-- What is read of a file has its newline at the end, or is the beginning of the file. -/
theorem fgets_spec (n : Nat) : ∀ text : List Char,
    (∃ line, fgets n text = line ++ ['\n'] ∧ '\n' ∈ text) ∨ ('\n' ∉ fgets n text ∧ fgets n text = text.take n) := by
  induction n with
  | zero => exact fun text => .inr ⟨by simp [fgets], by simp [fgets]⟩
  | succ n ih =>
    intro text
    cases text with
    | nil => exact .inr ⟨by simp [fgets], by simp [fgets]⟩
    | cons c rest =>
      rw [fgets]
      by_cases hc : c = '\n'
      · rw [if_pos hc]
        exact .inl ⟨[], by rw [hc]; rfl, by rw [hc]; exact List.mem_cons_self⟩
      · rw [if_neg hc]
        rcases ih rest with ⟨line, hline, hmem⟩ | ⟨hnot, htake⟩
        · exact .inl ⟨c :: line, by rw [hline]; rfl, List.mem_cons_of_mem _ hmem⟩
        · refine .inr ⟨?_, by rw [htake, List.take_succ_cons]⟩
          exact fun hmem => (List.mem_cons.mp hmem).elim (fun heq => hc heq.symm) hnot

theorem mem_of_mem_fgets {n : Nat} {text : List Char} {c : Char} (h : c ∈ fgets n text) : c ∈ text := by
  induction n generalizing text with
  | zero => exact nomatch h
  | succ n ih =>
    cases text with
    | nil => exact nomatch h
    | cons d rest =>
      rw [fgets] at h
      split at h
      · rw [List.mem_singleton.mp h]
        exact List.mem_cons_self
      · rcases List.mem_cons.mp h with rfl | h
        · exact List.mem_cons_self
        · exact List.mem_cons_of_mem _ (ih h)

/-- The buffer of a daemon that starts, of a file with no zero in it. -/
theorem takeWhile_buf {contents : List Char} (hnul : '\x00' ∉ contents) (n : Nat) :
    (basic ++ fgets n contents).takeWhile (fun c => c ≠ '\x00') = basic ++ fgets n contents := by
  rw [List.takeWhile_eq_self_iff]
  intro c hc
  rw [decide_eq_true_iff]
  rintro rfl
  rcases List.mem_append.mp hc with hc | hc
  · exact absurd hc (by decide)
  · exact hnul (mem_of_mem_fgets hc)

theorem length_buf_ne_zero (line : List Char) : ¬(basic ++ line).length = 0 := by
  rw [List.length_append, show basic.length = 6 from rfl]
  omega

/-- A line with its newline is one byte too long for its copy. -/
theorem setSignature_newline {contents line : List Char} (hnul : '\x00' ∉ contents) (h : fgets 248 contents = line ++ ['\n']) :
    setSignature mg (some contents) = .error .outOfBounds := by
  have hlast : (basic ++ fgets 248 contents).getLast? = some '\n' := by rw [h, ← List.append_assoc, List.getLast?_concat]
  have hlen := length_buf_ne_zero (fgets 248 contents)
  have hlong : ¬(basic ++ fgets 248 contents).length + 1 ≤ (basic ++ fgets 248 contents).length - 1 + 1 := by omega
  simp only [setSignature, sizeofBuf, takeWhile_buf hnul, if_neg hlen, hlast, if_true, copyInto, if_neg hlong, Except.map]

/-- A line without a newline is taken as it is. -/
theorem setSignature_line {contents : List Char} (hnul : '\x00' ∉ contents) (h : '\n' ∉ fgets 248 contents) :
    setSignature mg (some contents) =
      .ok
        { user := true
          file := some contents
          signature := mgMkStrN mg (basic ++ fgets 248 contents) (basic ++ fgets 248 contents).length } := by
  have hlast : ¬(basic ++ fgets 248 contents).getLast? = some '\n' := by
    intro hlast
    rcases List.mem_append.mp (List.mem_of_getLast? hlast) with hmem | hmem
    · exact absurd hmem (by decide)
    · exact h hmem
  simp only [setSignature, sizeofBuf, takeWhile_buf hnul, if_neg (length_buf_ne_zero _), if_neg hlast, copyInto, le_refl, if_true, Except.map]

/-! ## Updates -/

theorem nul_not_mem_cText (text : String) : '\x00' ∉ cText text := by
  intro hmem
  have hne := List.mem_takeWhile_imp hmem
  simp at hne

theorem invalid_ret (s : State) : (invalid s).ret ≠ 0 := show -einval ≠ 0 by decide

theorem replaceSignature_state {old new : List Char} (h : replaceSignature mg opened old new s = .ok out) (hret : out.ret = 0) :
    out.state = { user := true, file := some new, signature := mgMkStrN mg (basic ++ new) (basic ++ new).length } := by
  rw [replaceSignature] at h
  cases htext : s.signature.read with
  | error fault =>
    rw [htext] at h
    exact nomatch h
  | ok text =>
    rw [htext] at h
    simp only [Except.bind] at h
    split at h
    · rw [← Except.ok.inj h] at hret
      exact absurd hret (invalid_ret s)
    · split at h
      · rw [← Except.ok.inj h] at hret
        exact absurd hret (show -eperm ≠ 0 by decide)
      · split at h
        · exact nomatch h
        · rw [← Except.ok.inj h]
          have hlen : (basic ++ new).length = 6 + new.length := List.length_append
          rw [hlen]

/-- What an update that is accepted leaves. -/
theorem updateSignature_state (h : updateSignature mg J opened data s = .ok out) (hret : out.ret = 0) :
    '\x00' ∉ newText J data ∧ out.state =
      { user := true, file := some (newText J data),
        signature := mgMkStrN mg (basic ++ newText J data) (basic ++ newText J data).length } := by
  rw [updateSignature] at h
  split at h
  · rw [← Except.ok.inj h] at hret
    exact absurd hret (invalid_ret s)
  · split at h
    · rw [← Except.ok.inj h] at hret
      exact absurd hret (invalid_ret s)
    · rename_i request hloads
      split at h
      · rename_i old new _ hnew
        have htext : newText J data = cText new := by simp [newText, hloads, hnew]
        rw [htext]
        exact ⟨nul_not_mem_cText new, replaceSignature_state h hret⟩
      · rw [← Except.ok.inj h] at hret
        exact absurd hret (invalid_ret s)

/-- A new signature that is accepted survives a restart if and only if the library copies texts, and it is no longer than what is read of the
file and has no newline. -/
theorem updateSignature_survives_iff (mg : Mongoose) (J : JsonLib) (opened : Bool) (data : String) (s : State) (out : Updated)
    (h : updateSignature mg J opened data s = .ok out) (hret : out.ret = 0) :
    Survives mg (basic ++ newText J data) out.state ↔
      mg.copies = true ∧ (newText J data).length ≤ 248 ∧ '\n' ∉ newText J data := by
  obtain ⟨hnul, hstate⟩ := updateSignature_state h hret
  rw [hstate]
  generalize newText J data = new at hnul
  by_cases hcopies : mg.copies = true
  · have hrunning := acceptsOnly_mgMkStrN hcopies (basic ++ new)
    rcases fgets_spec 248 new with ⟨line, hline, hmem⟩ | ⟨hnot, htake⟩
    · refine iff_of_false ?_ (fun hcond => hcond.2.2 hmem)
      rintro ⟨-, s', hs', -⟩
      rw [setSignature_newline hnul hline] at hs'
      exact nomatch hs'
    · have hloaded := acceptsOnly_mgMkStrN hcopies (basic ++ fgets 248 new)
      constructor
      · rintro ⟨-, s', hs', haccepts⟩
        rw [setSignature_line hnul hnot] at hs'
        rw [← Except.ok.inj hs'] at haccepts
        have hsame := List.append_cancel_left (acceptsOnly_inj hloaded haccepts)
        rw [hsame] at hnot
        refine ⟨hcopies, ?_, hnot⟩
        rw [← hsame, htake]
        exact List.length_take_le _ _
      · rintro ⟨-, hlen, -⟩
        refine ⟨hrunning, _, setSignature_line hnul hnot, ?_⟩
        rw [htake, List.take_of_length_le hlen] at hloaded ⊢
        exact hloaded
  · refine iff_of_false ?_ (fun hcond => hcopies hcond.1)
    exact fun hsurvives => not_acceptsOnly_mgMkStrN hcopies _ hsurvives.1

/-! ## Two requests -/

/-- A library that copies texts. -/
def copying : Mongoose := { copies := true, vcmp := fun text text' => if text = text' then 0 else 1 }

/-- A request that changes the default signature. -/
def change (new : String) : JsonLib :=
  .ofTexts [("change", .object [(tagOld, .string "QjU6v9wxOTU4QGBlgPztOCQ6QTsD"), (tagNew, .string new)])]

def changed (new : String) : Updated where
  ret := 0
  resp := "update successful"
  state := { user := true, signature := mgMkStrN copying (basic ++ cText new) (6 + (cText new).length), file := some (cText new) }

theorem updateSignature_change (new : String) :
    updateSignature copying (change new) true "change" (start none) = .ok (changed new) ∧ newText (change new) "change" = cText new := by
  have hloads : (change new).loads "change" =
      some (.object [(tagOld, .string "QjU6v9wxOTU4QGBlgPztOCQ6QTsD"), (tagNew, .string new)]) := rfl
  have hread : (start none).signature.read = .ok defaultText := rfl
  have hsame : copying.vcmp defaultText (basic ++ cText "QjU6v9wxOTU4QGBlgPztOCQ6QTsD") = 0 := by decide
  constructor
  · rw [updateSignature, if_neg (by decide), hloads]
    show replaceSignature copying true (cText "QjU6v9wxOTU4QGBlgPztOCQ6QTsD") (cText new) (start none) = _
    rw [replaceSignature, hread]
    simp only [Except.bind]
    rw [if_neg (not_not_intro hsame)]
    rfl
  · rw [newText, hloads]
    rfl

/-- A signature of a few letters survives. -/
theorem survives_change : Survives copying (basic ++ newText (change "c2VjcmV0") "change") (changed "c2VjcmV0").state := by
  have hchange := updateSignature_change "c2VjcmV0"
  refine (updateSignature_survives_iff copying (change "c2VjcmV0") true "change" (start none) (changed "c2VjcmV0") hchange.1 rfl).mpr ?_
  rw [hchange.2]
  decide

/-- One that ends in a newline does not. -/
theorem not_survives_newline : ¬∀ (mg : Mongoose) (J : JsonLib) (opened : Bool) (data : String) (s : State) (out : Updated),
    updateSignature mg J opened data s = .ok out → out.ret = 0 → Survives mg (basic ++ newText J data) out.state := by
  intro h
  obtain ⟨hupdate, htext⟩ := updateSignature_change "c2VjcmV0\n"
  obtain ⟨-, s', hs', -⟩ := h _ _ _ _ _ _ hupdate rfl
  have hfault : setSignature copying (changed "c2VjcmV0\n").state.file = .error .outOfBounds := by decide
  rw [hfault] at hs'
  exact nomatch hs'

end NvmeDem.Signature
