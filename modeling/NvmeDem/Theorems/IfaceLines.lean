import NvmeDem.Dem.IfaceFile

/-!
# Interface files are read line by line

Each of the five scanners of a line gives a newline back that it meets, so none of them comes past its line, whatever is in the line; the
rest of the line is then skipped. A byte 0xFF would end the skipping.
-/

namespace NvmeDem.IfaceFile

open Stdio

/-! ## The scanners keep to their line -/

theorem lineBound_consumeWhitespace : LineBound consumeWhitespace :=
  lineBound_whileNotEof _ _ (fun _ => ⟨.ok (), rfl⟩)

theorem wordTurn_newline (n : Nat) (s : List Char × Bool) : wordTurn n s '\n' = .back (written s.1) := by
  simp [wordTurn, comment, isQuote, isEol]

theorem lineBound_parseWord (n : Nat) : LineBound (parseWord n) :=
  lineBound_whileNotEof _ _ (fun s => ⟨written s.1, wordTurn_newline n s⟩)

theorem lineBound_parseEqual (n : Nat) : LineBound (parseEqual n) :=
  lineBound_whileNotEof _ _ (fun word => ⟨written word, rfl⟩)

theorem lineBound_behindTag (valueMax : Nat) (tag : List Char) : LineBound (behindTag valueMax tag) := by
  refine (lineBound_parseEqual maxEqual).bind (fun sign => ?_)
  by_cases hsign : sign ≠ [equal]
  · rw [if_pos hsign]
    exact lineBound_fail _
  · rw [if_neg hsign]
    refine lineBound_consumeWhitespace.bind (fun _ => ?_)
    exact (lineBound_parseWord valueMax).bind (fun value => lineBound_pure _)

theorem lineBound_parseFields (tagMax valueMax : Nat) : LineBound (parseFields tagMax valueMax) := by
  refine lineBound_consumeWhitespace.bind (fun _ => ?_)
  refine (lineBound_parseWord tagMax).bind (fun tag => ?_)
  exact lineBound_consumeWhitespace.bind (fun _ => lineBound_behindTag valueMax tag)

theorem consumeLine_cons {c : Char} (hnl : c ≠ '\n') (heof : c ≠ eof) (rest : List Char) :
    consumeLine (.reading (c :: rest)) = consumeLine (.reading rest) := by
  have hc : isEol c = false := by simp [isEol, hnl, heof]
  simp [consumeLine, whileNotEof, scan, hc]

/-- What is skipped ends behind the first newline or, without one, at the end of the file. -/
theorem skipsLine_consumeLine : SkipsLine (fun fd => (consumeLine fd).2) where
  line := by
    intro l after hnl heof
    induction l with
    | nil => rfl
    | cons c l ih =>
      rw [List.mem_cons, not_or] at hnl heof
      rw [List.cons_append, consumeLine_cons (Ne.symm hnl.1) (Ne.symm heof.1)]
      exact ih hnl.2 heof.2
  last := by
    intro l hnl heof
    induction l with
    | nil => rfl
    | cons c l ih =>
      rw [List.mem_cons, not_or] at hnl heof
      rw [consumeLine_cons (Ne.symm hnl.1) (Ne.symm heof.1)]
      exact ih hnl.2 heof.2
  ended := rfl

theorem readsLine_parseLine (tagMax valueMax : Nat) : ReadsLine (parseLine tagMax valueMax) :=
  (lineBound_parseFields tagMax valueMax).readsLine skipsLine_consumeLine

/-! ## Files -/

variable {ι : Type} (set : ι → List Char → List Char → ι)

theorem readsLine_readConfig (iface : ι) : ReadsLine (readConfig set iface) where
  line := by
    intro l after hnl heof
    have h := (readsLine_parseLine largestTag largestVal).line l after hnl heof
    unfold readConfig
    rw [h]
    cases parseLine largestTag largestVal (.reading (l ++ ['\n'])) with
    | mk r fd => cases r <;> rfl
  last := by
    intro l hnl heof
    have h := (readsLine_parseLine largestTag largestVal).last l hnl heof
    unfold readConfig
    cases hp : parseLine largestTag largestVal (.reading l) with
    | mk r fd =>
      rw [hp] at h
      cases r <;> exact h

/-- An empty line, behind the last newline of a file, sets nothing. -/
theorem readConfig_nil (iface : ι) : (readConfig set iface (.reading [])).1 = iface := rfl

/-- A file without a byte 0xFF is read line by line, by the daemon and by an endpoint: a call takes the first line of what is left and
returns what it returns on that line alone, the loop ends, and the record is the fold over the lines of what each line alone does. -/
theorem iface_file_by_lines (content : List Char) (hcontent : eof ∉ content) :
    (∀ tagMax valueMax, parseLine tagMax valueMax (.reading content) =
      ((parseLine tagMax valueMax (.reading (firstLine content))).1, behindLine content)) ∧
    (∀ (iface : HostIface) (turns : Nat), (linesOf content).length < turns →
      untilEof readDemConfig turns iface (.reading content) =
        some ((linesOf content).foldl (fun iface line => (readDemConfig iface (.reading line)).1) iface)) ∧
    ∀ (iface : Portid) (turns : Nat), (linesOf content).length < turns →
      untilEof readPortidConfig turns iface (.reading content) =
        some ((linesOf content).foldl (fun iface line => (readPortidConfig iface (.reading line)).1) iface) := by
  refine ⟨?_, ?_, ?_⟩
  · intro tagMax valueMax
    exact (readsLine_parseLine tagMax valueMax).eq hcontent
  · intro iface turns hturns
    exact untilEof_eq_foldl (readsLine_readConfig HostIface.set) (readConfig_nil HostIface.set) hcontent hturns iface
  · intro iface turns hturns
    exact untilEof_eq_foldl (readsLine_readConfig setPortid) (readConfig_nil setPortid) hcontent hturns iface

/-- A comment, a quote that is left open, a tag that is too long, and a last line without a newline. -/
def raggedFile : List Char := "TRTYPE = rdma # port\nADRFAM = \x22ipv4\nTRADDRESS_ = 1\nTRADDR=10.0.0.1".toList

theorem ragged_file_read :
    eof ∉ raggedFile ∧ (linesOf raggedFile).length = 4 ∧
      untilEof readDemConfig 5 {} (.reading raggedFile) = some { type := "rdma", family := "ipv4", address := "10.0.0.1" } := by
  have h := (iface_file_by_lines raggedFile (by decide)).2.1 {} 5 (by decide)
  refine ⟨by decide, by decide, ?_⟩
  rw [h]
  decide

end NvmeDem.IfaceFile
