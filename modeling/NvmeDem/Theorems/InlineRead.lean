import NvmeDem.Fabric.InlineRead

/-!
# When the client is done with data, and where it puts them

The loop of the client ends when it has what the header says, or at an error. At the end of a connection a read returns nothing, and the loop
goes on for ever. The header says where the data go as well, and nothing compares that with the buffer of the caller.
-/

namespace NvmeDem.InlineRead

open Tcp (Piece field directionOf sizeofDataPdu eagain enodata)

/-- An error that is returned is among the results. -/
def Fails (results : List ReadResult) : Prop := ∃ errno, errno ≠ eagain ∧ .error errno ∈ results

/-- How many bytes come before such an error. -/
def available : List ReadResult → Nat
  | [] => 0
  | .bytes piece :: rest => piece.bytes.length + available rest
  | .error errno :: rest => if errno = eagain then available rest else 0

/-- Bytes and results to come. -/
def size : List ReadResult → Nat
  | [] => 0
  | .bytes piece :: rest => piece.bytes.length + size rest + 1
  | .error _ :: rest => size rest + 1

/-! ## What a read leaves -/

theorem size_push_lt {bytes : List UInt8} {piece : Piece} (rest : List ReadResult) (h : bytes.length < piece.bytes.length) :
    size (push bytes rest) < size (.bytes piece :: rest) := by
  rw [push]
  split
  · simp only [size]
    omega
  · simp only [size]
    omega

theorem available_push (bytes : List UInt8) (rest : List ReadResult) : available (push bytes rest) = bytes.length + available rest := by
  rw [push]
  split
  · simp [*]
  · rfl

theorem fails_push (bytes : List UInt8) (rest : List ReadResult) : Fails (push bytes rest) ↔ Fails rest := by
  rw [push]
  split
  · rfl
  · simp [Fails]

/-- The induction over what is read: a read takes a result, or some of the bytes of a piece. -/
theorem reads_induction {P : List ReadResult → Prop} (hend : P []) (herror : ∀ errno rest, P rest → P (.error errno :: rest))
    (hbytes : ∀ piece rest, (∀ n, 0 < n → P (push (piece.bytes.drop n) rest)) → P (.bytes piece :: rest)) (results : List ReadResult) :
    P results := by
  induction hn : size results using Nat.strong_induction_on generalizing results with
  | h n ih =>
    cases results with
    | nil => exact hend
    | cons result rest =>
      cases result with
      | error errno =>
        have hless : size rest < n := by rw [← hn, size]; omega
        exact herror errno rest (ih _ hless rest rfl)
      | bytes piece =>
        refine hbytes piece rest ?_
        intro taken htaken
        have hlen : (piece.bytes.drop taken).length < piece.bytes.length := by
          rw [List.length_drop]
          exact Nat.sub_lt (List.length_pos_iff.mpr piece.nonempty) htaken
        exact ih _ (hn ▸ size_push_lt rest hlen) _ rfl

/-- What a read takes of a piece. -/
theorem taken_pos {length : Nat} (hlength : length ≠ 0) : 0 < min length maxRead :=
  Nat.lt_min.mpr ⟨Nat.pos_of_ne_zero hlength, by decide⟩

theorem length_taken_pos {length : Nat} (hlength : length ≠ 0) (piece : Piece) :
    0 < (piece.bytes.take (min length maxRead)).length := by
  rw [List.length_take]
  exact Nat.lt_min.mpr ⟨taken_pos hlength, List.length_pos_iff.mpr piece.nonempty⟩

theorem length_taken_le (length : Nat) (bytes : List UInt8) : (bytes.take (min length maxRead)).length ≤ length := by
  rw [List.length_take]
  exact (Nat.min_le_left _ _).trans (Nat.min_le_left _ _)

theorem available_after (piece : Piece) (rest : List ReadResult) (taken : Nat) :
    (piece.bytes.take taken).length + available (push (piece.bytes.drop taken) rest) = available (.bytes piece :: rest) := by
  rw [available_push, available, ← Nat.add_assoc, ← List.length_append, List.take_append_drop]

theorem fails_after (piece : Piece) (rest : List ReadResult) (taken : Nat) :
    Fails (push (piece.bytes.drop taken) rest) ↔ Fails (.bytes piece :: rest) := by
  rw [fails_push]
  simp [Fails]

/-! ## A turn of the loop -/

theorem dataLoop_zero (turns offset : Nat) (results : List ReadResult) :
    dataLoop (turns + 1) offset 0 results = { ret := some 0 } := rfl

theorem dataLoop_nil {length : Nat} (hlength : length ≠ 0) (turns offset : Nat) :
    dataLoop (turns + 1) offset length [] = (dataLoop turns (offset % 2 ^ 32) length []).after (offset, []) := by
  rw [dataLoop, if_neg hlength]
  rfl

theorem dataLoop_error {length : Nat} (hlength : length ≠ 0) (turns offset : Nat) (errno : Int) (rest : List ReadResult) :
    dataLoop (turns + 1) offset length (.error errno :: rest) =
      if errno = eagain then dataLoop turns offset length rest else { ret := some (-errno) } := by
  rw [dataLoop, if_neg hlength]
  rfl

theorem dataLoop_bytes {length : Nat} (hlength : length ≠ 0) (turns offset : Nat) (piece : Piece) (rest : List ReadResult) :
    dataLoop (turns + 1) offset length (.bytes piece :: rest) =
      (dataLoop turns ((offset + (piece.bytes.take (min length maxRead)).length) % 2 ^ 32)
        (length - (piece.bytes.take (min length maxRead)).length) (push (piece.bytes.drop (min length maxRead)) rest)).after
          (offset, piece.bytes.take (min length maxRead)) := by
  rw [dataLoop, if_neg hlength]
  rfl

/-! ## The end of the loop -/

/-- No turn is no end. -/
theorem ends_succ {offset length : Nat} {results : List ReadResult} :
    (∃ turns, (dataLoop turns offset length results).ret ≠ none) ↔ ∃ turns, (dataLoop (turns + 1) offset length results).ret ≠ none := by
  constructor
  · rintro ⟨turns, hends⟩
    cases turns with
    | zero => exact absurd rfl hends
    | succ turns => exact ⟨turns, hends⟩
  · rintro ⟨turns, hends⟩
    exact ⟨turns + 1, hends⟩

/-- With nothing to read it ends. -/
theorem ends_zero (offset : Nat) (results : List ReadResult) : ∃ turns, (dataLoop turns offset 0 results).ret ≠ none :=
  ⟨1, Option.some_ne_none 0⟩

/-- At the end of a connection the loop goes on for ever. -/
theorem not_ends_nil (turns : Nat) : ∀ {offset length : Nat}, length ≠ 0 → (dataLoop turns offset length []).ret = none := by
  induction turns with
  | zero => exact fun _ => rfl
  | succ turns ih =>
    intro offset length hlength
    rw [dataLoop_nil hlength]
    exact ih hlength

/-- An error after which the loop tries again is none that is returned. -/
theorem fails_again {errno : Int} (hagain : errno = eagain) (rest : List ReadResult) : Fails (.error errno :: rest) ↔ Fails rest := by
  constructor
  · rintro ⟨e, he, hmem⟩
    refine ⟨e, he, (List.mem_cons.mp hmem).resolve_left ?_⟩
    rintro ⟨⟩
    exact he hagain
  · rintro ⟨e, he, hmem⟩
    exact ⟨e, he, List.mem_cons_of_mem _ hmem⟩

/-- The loop ends if and only if what it is to read comes, or an error. -/
theorem loop_ends_iff (results : List ReadResult) : ∀ offset length : Nat,
    (∃ turns, (dataLoop turns offset length results).ret ≠ none) ↔ length ≤ available results ∨ Fails results := by
  induction results using reads_induction with
  | hend =>
    intro offset length
    by_cases hlength : length = 0
    · subst hlength
      exact iff_of_true (ends_zero offset _) (.inl (Nat.zero_le _))
    · refine iff_of_false ?_ ?_
      · rintro ⟨turns, hends⟩
        exact hends (not_ends_nil turns hlength)
      · rintro (hlen | ⟨errno, -, hmem⟩)
        · exact hlength (Nat.le_zero.mp hlen)
        · exact List.not_mem_nil hmem
  | herror errno rest ih =>
    intro offset length
    by_cases hlength : length = 0
    · subst hlength
      exact iff_of_true (ends_zero offset _) (.inl (Nat.zero_le _))
    · rw [ends_succ]
      simp only [dataLoop_error hlength]
      by_cases hagain : errno = eagain
      · simp only [if_pos hagain, ih, available, fails_again hagain]
      · simp only [if_neg hagain]
        exact iff_of_true ⟨0, Option.some_ne_none _⟩ (.inr ⟨errno, hagain, List.mem_cons_self⟩)
  | hbytes piece rest ih =>
    intro offset length
    by_cases hlength : length = 0
    · subst hlength
      exact iff_of_true (ends_zero offset _) (.inl (Nat.zero_le _))
    · rw [ends_succ]
      simp only [dataLoop_bytes hlength, Received.after]
      rw [ih _ (taken_pos hlength), fails_after, ← available_after piece rest (min length maxRead), Nat.sub_le_iff_le_add, Nat.add_comm]

/-! ## Where the data go -/

/-- Bytes are stored only in the first `len` bytes of the buffer. -/
def Within (len : Nat) (stores : List (Nat × List UInt8)) : Prop := ∀ store ∈ stores, ∀ i, i < store.2.length → store.1 + i < len

theorem within_nil (len : Nat) : Within len [] := fun _ hmem => absurd hmem List.not_mem_nil

theorem within_cons (len : Nat) (store : Nat × List UInt8) (stores : List (Nat × List UInt8)) :
    Within len (store :: stores) ↔ (store.2.length = 0 ∨ store.1 + store.2.length ≤ len) ∧ Within len stores := by
  rw [Within, List.forall_mem_cons]
  refine and_congr_left' ?_
  constructor
  · intro h
    by_cases hzero : store.2.length = 0
    · exact .inl hzero
    · have hlast := h (store.2.length - 1) (by omega)
      right
      omega
  · intro h i hi
    omega

/-- Before the first turn nothing is stored. -/
theorem within_succ {len offset length : Nat} {results : List ReadResult} :
    (∀ turns, Within len (dataLoop turns offset length results).stores) ↔
      ∀ turns, Within len (dataLoop (turns + 1) offset length results).stores := by
  constructor
  · exact fun h turns => h (turns + 1)
  · rintro h turns
    cases turns with
    | zero => exact within_nil len
    | succ turns => exact h turns

/-- Where the end of what is stored is within a buffer, and before, whether the offset wraps or not. -/
theorem end_within {len offset length taken left : Nat} (hlen : len < 2 ^ 32 ∨ 2 ^ 33 ≤ len) (hoffset : offset < 2 ^ 32)
    (hlength : length < 2 ^ 32) (htaken : 0 < taken) (hleft : taken + left ≤ length) :
    ((taken = 0 ∨ offset + taken ≤ len) ∧ (left = 0 ∨ (offset + taken) % 2 ^ 32 + left ≤ len)) ↔
      taken + left = 0 ∨ offset + (taken + left) ≤ len := by
  omega

/-- With nothing to read nothing is stored. -/
theorem within_zero (len offset : Nat) (results : List ReadResult) (turns : Nat) : Within len (dataLoop turns offset 0 results).stores := by
  cases turns with
  | zero => exact within_nil len
  | succ turns => exact within_nil len

/-- What is stored in all turns is within a buffer if and only if its end is, or there is nothing to store. -/
theorem loop_within_iff {len : Nat} (hlen : len < 2 ^ 32 ∨ 2 ^ 33 ≤ len) (results : List ReadResult) :
    ∀ offset length : Nat, offset < 2 ^ 32 → length < 2 ^ 32 →
      ((∀ turns, Within len (dataLoop turns offset length results).stores) ↔
        min length (available results) = 0 ∨ offset + min length (available results) ≤ len) := by
  induction results using reads_induction with
  | hend =>
    intro offset length _ _
    refine iff_of_true ?_ (.inl (Nat.min_zero length))
    by_cases hlength : length = 0
    · subst hlength
      exact within_zero len offset []
    · intro turns
      induction turns generalizing offset with
      | zero => exact within_nil len
      | succ turns ih =>
        rw [dataLoop_nil hlength, Received.after, within_cons]
        exact ⟨.inl rfl, ih _ (Nat.mod_lt _ (by decide))⟩
  | herror errno rest ih =>
    intro offset length hoffset hsmall
    by_cases hlength : length = 0
    · subst hlength
      exact iff_of_true (within_zero len offset _) (.inl (Nat.zero_min _))
    · rw [within_succ]
      simp only [dataLoop_error hlength, available]
      by_cases hagain : errno = eagain
      · simp only [if_pos hagain]
        exact ih offset length hoffset hsmall
      · simp only [if_neg hagain]
        exact iff_of_true (fun _ => within_nil len) (.inl (Nat.min_zero length))
  | hbytes piece rest ih =>
    intro offset length hoffset hsmall
    by_cases hlength : length = 0
    · subst hlength
      exact iff_of_true (within_zero len offset _) (.inl (Nat.zero_min _))
    · have hpos := length_taken_pos hlength piece
      have hle := length_taken_le length piece.bytes
      rw [within_succ]
      simp only [dataLoop_bytes hlength, Received.after, within_cons, forall_and, forall_const]
      rw [ih _ (taken_pos hlength) _ _ (Nat.mod_lt _ (by decide)) (by omega), ← available_after piece rest (min length maxRead)]
      generalize (piece.bytes.take (min length maxRead)).length = taken at hpos hle ⊢
      generalize available (push (piece.bytes.drop (min length maxRead)) rest) = more
      have hmin : min length (taken + more) = taken + min (length - taken) more := by omega
      rw [hmin]
      exact end_within hlen hoffset hsmall hpos (by omega)

/-! ## The client -/

/-- The header of a data PDU, where the first read finds all of it, and what comes behind it. -/
def header : List ReadResult → Option (List UInt8 × List ReadResult)
  | .bytes piece :: rest =>
    if sizeofDataPdu ≤ piece.bytes.length then some (piece.bytes.take sizeofDataPdu, push (piece.bytes.drop sizeofDataPdu) rest) else none
  | _ => none

theorem field_lt (bytes : List UInt8) (off : Nat) : field bytes off 4 < 2 ^ 32 := by
  have hlt := ofLe_lt ((bytes.drop off).take 4)
  have hle : 256 ^ ((bytes.drop off).take 4).length ≤ 256 ^ 4 := Nat.pow_le_pow_right (by decide) (List.length_take_le _ _)
  exact lt_of_lt_of_le hlt hle

theorem tcpInlineRead_of_header {results rest : List ReadResult} {hdr : List UInt8} (h : header results = some (hdr, rest))
    (turns len : Nat) : tcpInlineRead turns len results = dataLoop turns (dataOffset hdr) (dataLength hdr) rest := by
  cases results with
  | nil => exact nomatch h
  | cons result results =>
    cases result with
    | error errno => exact nomatch h
    | bytes piece =>
      rw [header] at h
      split at h
      · rename_i hsize
        obtain ⟨rfl, rfl⟩ := Prod.mk.inj (Option.some.inj h)
        have hmin : min sizeofDataPdu maxRead = sizeofDataPdu := by decide
        have hlen : (piece.bytes.take sizeofDataPdu).length = sizeofDataPdu := List.length_take_of_le hsize
        simp only [tcpInlineRead, read, hmin, hlen, ne_eq, not_true_eq_false, if_false]
      · exact nomatch h

/-- Without a header it returns at once. -/
theorem tcpInlineRead_of_none {results : List ReadResult} (h : header results = none) :
    ∃ ret, ∀ turns len, tcpInlineRead turns len results = { ret := some ret } := by
  cases results with
  | nil => exact ⟨-enodata, fun _ _ => rfl⟩
  | cons result results =>
    cases result with
    | error errno => exact ⟨-errno, fun _ _ => rfl⟩
    | bytes piece =>
      refine ⟨-enodata, fun turns len => ?_⟩
      rw [header] at h
      split at h
      · exact nomatch h
      · rename_i hsize
        have hmin : min sizeofDataPdu maxRead = sizeofDataPdu := by decide
        have hlen : (piece.bytes.take sizeofDataPdu).length ≠ sizeofDataPdu := by
          rw [List.length_take]
          omega
        simp only [tcpInlineRead, read, hmin, ne_eq, hlen, not_false_eq_true, if_true]

/-- The client gets to an end if and only if all the data come that the header says, or an error does, or no header. -/
theorem tcpInlineRead_ends_iff (len : Nat) (results : List ReadResult) :
    (∃ turns, (tcpInlineRead turns len results).ret ≠ none) ↔
      ∀ hdr rest, header results = some (hdr, rest) → dataLength hdr ≤ available rest ∨ Fails rest := by
  cases h : header results with
  | none =>
    obtain ⟨ret, hret⟩ := tcpInlineRead_of_none h
    refine iff_of_true ⟨0, ?_⟩ (fun hdr rest hsome => nomatch hsome)
    rw [hret]
    exact Option.some_ne_none ret
  | some found =>
    obtain ⟨hdr, rest⟩ := found
    simp only [tcpInlineRead_of_header h, loop_ends_iff]
    constructor
    · rintro hends hdr' rest' ⟨⟩
      exact hends
    · exact fun hends => hends hdr rest rfl

/-- A header that says one byte, at a place of the buffer, and a byte. -/
def oneByte (offset : Nat) : Piece where
  bytes := Tcp.commonHdr Tcp.nvmeTcpC2hdata 24 25 ++ leBytes 4 0 ++ leBytes 4 offset ++ leBytes 4 1 ++ List.replicate 4 0 ++ [7]
  nonempty := List.append_ne_nil_of_right_ne_nil _ (List.cons_ne_nil 7 [])

/-- The connection is at its end behind a header that says one byte. -/
theorem not_ends_at_eof : ¬∀ (len : Nat) (results : List ReadResult), ∃ turns, (tcpInlineRead turns len results).ret ≠ none := by
  intro h
  obtain ⟨turns, hends⟩ := h 1 [.bytes ⟨(oneByte 0).bytes.take 24, by decide⟩]
  rw [tcpInlineRead_of_header (show header _ = some ((oneByte 0).bytes.take 24, []) by decide +kernel)] at hends
  exact hends (not_ends_nil turns (by decide +kernel))

/-- The length that is passed on is that of the command, or one that no store comes to. -/
theorem passedLen_range (cmd : List UInt8) : passedLen cmd < 2 ^ 32 ∨ 2 ^ 33 ≤ passedLen cmd := by
  have hlow := @Int.le_bmod (field cmd 32 4) (2 ^ 32) (by decide)
  have hhigh := @Int.bmod_lt (field cmd 32 4) (2 ^ 32) (by decide)
  rw [passedLen, cInt]
  omega

/-- A command has its data stored in its buffer only, if and only if what the header says and the connection gives ends in it. -/
theorem tcpHandleInlineData_within_iff (cmd : List UInt8) (wrote : Option Int) (results : List ReadResult) :
    (∀ turns, Within (passedLen cmd) (tcpHandleInlineData turns cmd wrote results).stores) ↔
      (directionOf cmd = .c2h → ∀ hdr rest, header results = some (hdr, rest) →
        min (dataLength hdr) (available rest) = 0 ∨ dataOffset hdr + min (dataLength hdr) (available rest) ≤ passedLen cmd) := by
  cases hdir : directionOf cmd with
  | h2c =>
    refine iff_of_true ?_ (fun h => nomatch h)
    intro turns
    rw [tcpHandleInlineData, hdir]
    exact within_nil _
  | other =>
    refine iff_of_true ?_ (fun h => nomatch h)
    intro turns
    rw [tcpHandleInlineData, hdir]
    exact within_nil _
  | c2h =>
    simp only [tcpHandleInlineData, hdir, forall_const]
    cases h : header results with
    | none =>
      obtain ⟨ret, hret⟩ := tcpInlineRead_of_none h
      refine iff_of_true ?_ (fun hdr rest hsome => nomatch hsome)
      intro turns
      rw [hret]
      exact within_nil _
    | some found =>
      obtain ⟨hdr, rest⟩ := found
      simp only [tcpInlineRead_of_header h]
      rw [loop_within_iff (passedLen_range cmd) rest (dataOffset hdr) (dataLength hdr) (field_lt hdr 12) (field_lt hdr 16)]
      constructor
      · rintro hends hdr' rest' ⟨⟩
        exact hends
      · exact fun hends => hends hdr rest rfl

/-- A command that takes one byte, and a header that puts it behind that. -/
theorem not_within_offset : ¬∀ (cmd : List UInt8) (wrote : Option Int) (results : List ReadResult) (turns : Nat),
    Within (passedLen cmd) (tcpHandleInlineData turns cmd wrote results).stores := by
  intro h
  have hstores := h ((Tcp.Send.getLogPage 1).cmd 4096) none [.bytes (oneByte 1)] 1 (1, [7]) (by decide +kernel) 0 (by decide)
  exact absurd hstores (by decide +kernel)

end NvmeDem.InlineRead
