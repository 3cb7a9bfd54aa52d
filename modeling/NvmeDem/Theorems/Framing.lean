import NvmeDem.Fabric.Tcp
import Mathlib.Algebra.BigOperators.Group.List.Basic
import Mathlib.Tactic.Ring

/-!
# Messages in a stream that is cut anywhere

The receiver keeps nothing between two calls, and takes what a read returns for all that it asked for. So a header that comes in two
pieces is lost with the first, a header with nothing behind it yet is lost too, and a message that comes in two pieces is delivered
with memory in place of its second one (`framing_split`).

The messages are those of the PDUs exactly if every piece ends at the end of a PDU or of a header, and a read blocks only where a
PDU starts (`framing_iff`).
-/

namespace NvmeDem.Tcp

/-! ## Where a stream is cut -/

/-- The places at which pieces end, in a stream whose first byte is at `off`. -/
def Arrivals.ends : Nat → Arrivals → List Nat
  | _, [] => []
  | off, none :: rest => Arrivals.ends off rest
  | off, some piece :: rest => (off + piece.bytes.length) :: Arrivals.ends (off + piece.bytes.length) rest

/-- The places at which a read finds nothing yet. -/
def Arrivals.blocks : Nat → Arrivals → List Nat
  | _, [] => []
  | off, none :: rest => off :: Arrivals.blocks off rest
  | off, some piece :: rest => Arrivals.blocks (off + piece.bytes.length) rest

/-- The places at which PDUs start, and the end of the last. -/
def starts : Nat → List Pdu → List Nat
  | off, [] => [off]
  | off, pdu :: rest => off :: starts (off + pdu.bytes.length) rest

/-- The places at which headers end. -/
def hdrEnds : Nat → List Pdu → List Nat
  | _, [] => []
  | off, pdu :: rest => (off + sizeofCommonHdr) :: hdrEnds (off + pdu.bytes.length) rest

/-- Every piece ends with a PDU or with a header, and a read blocks only where a PDU starts or all are over. -/
structure IntactFrom (off : Nat) (arrivals : Arrivals) (pdus : List Pdu) : Prop where
  ends : ∀ e ∈ arrivals.ends off, e ∈ starts off pdus ∨ e ∈ hdrEnds off pdus
  blocks : ∀ b ∈ arrivals.blocks off, b ∈ starts off pdus

def Intact (arrivals : Arrivals) (pdus : List Pdu) : Prop := IntactFrom 0 arrivals pdus

/-- The calls deliver the same messages as when every PDU arrives whole, whatever is in the memory. -/
def SameAsWhole (arrivals : Arrivals) (pdus : List Pdu) : Prop :=
  ∀ (fresh : Nat → Mem) (calls calls' : Nat), arrivals.size ≤ calls → (whole pdus).size ≤ calls' →
    deliver fresh 0 calls arrivals = deliver fresh 0 calls' (whole pdus)

/-! ## Reads -/

section

variable {n off i calls : Nat} {arrivals rest rest' : Arrivals} {bytes hdr msg : List UInt8} {pdu : Pdu} {pdus : List Pdu}

theorem bytes_push (bytes : List UInt8) (rest : Arrivals) : (Arrivals.push bytes rest).bytes = bytes ++ rest.bytes := by
  unfold Arrivals.push
  split
  · rename_i h
    rw [h, List.nil_append]
  · rfl

theorem size_push (bytes : List UInt8) (rest : Arrivals) : (Arrivals.push bytes rest).size = bytes.length + rest.size := by
  unfold Arrivals.push
  split
  · rename_i h
    rw [h, List.length_nil, Nat.zero_add]
  · rfl

theorem blocks_push (off : Nat) (bytes : List UInt8) (rest : Arrivals) :
    (Arrivals.push bytes rest).blocks off = rest.blocks (off + bytes.length) := by
  unfold Arrivals.push
  split
  · rename_i h
    rw [h, List.length_nil, Nat.add_zero]
  · rfl

/-- What a read that returns bytes leaves. -/
structure Reads (n : Nat) (arrivals : Arrivals) (bytes : List UInt8) (rest : Arrivals) : Prop where
  nonempty : 0 < n → bytes ≠ []
  length : bytes.length ≤ n
  stream : arrivals.bytes = bytes ++ rest.bytes
  size : arrivals.size = bytes.length + rest.size
  ends : ∀ off, ∀ e ∈ arrivals.ends off, e = off + bytes.length ∨ e ∈ rest.ends (off + bytes.length)
  ends' : ∀ off, ∀ e ∈ rest.ends (off + bytes.length), e ∈ arrivals.ends off
  blocks : ∀ off, arrivals.blocks off = rest.blocks (off + bytes.length)

theorem reads_of_read (h : read n arrivals = (some bytes, rest)) : Reads n arrivals bytes rest := by
  cases arrivals with
  | nil => cases h
  | cons item later =>
    cases item with
    | none => cases h
    | some piece =>
      obtain ⟨rfl, rfl⟩ : piece.bytes.take n = bytes ∧ Arrivals.push (piece.bytes.drop n) later = rest := by
        simpa [read] using h
      have hsum : (piece.bytes.take n).length + (piece.bytes.drop n).length = piece.bytes.length := by
        rw [← List.length_append, List.take_append_drop]
      refine ⟨fun hn hnil => ?_, ?_, ?_, ?_, ?_, ?_, ?_⟩
      · rcases List.take_eq_nil_iff.mp hnil with h0 | hempty
        · exact absurd h0 (Nat.ne_of_gt hn)
        · exact piece.nonempty hempty
      · rw [List.length_take]
        exact Nat.min_le_left _ _
      · rw [bytes_push, ← List.append_assoc, List.take_append_drop]
        rfl
      · rw [size_push, ← Nat.add_assoc, hsum]
        rfl
      · intro off e he
        unfold Arrivals.push
        split
        · rename_i hempty
          rw [hempty, List.length_nil, Nat.add_zero] at hsum
          rw [hsum]
          exact List.mem_cons.mp he
        · refine Or.inr ?_
          rw [Arrivals.ends, Nat.add_assoc, hsum]
          exact he
      · intro off e he
        unfold Arrivals.push at he
        split at he
        · rename_i hempty
          rw [hempty, List.length_nil, Nat.add_zero] at hsum
          rw [hsum] at he
          exact List.mem_cons_of_mem _ he
        · rw [Arrivals.ends, Nat.add_assoc, hsum] at he
          exact he
      · intro off
        rw [blocks_push, Nat.add_assoc, hsum]
        rfl

theorem read_none (h : read n arrivals = (none, rest)) : (arrivals = [] ∧ rest = []) ∨ arrivals = none :: rest := by
  cases arrivals with
  | nil => exact Or.inl ⟨rfl, (Prod.mk.inj h).2.symm⟩
  | cons item later =>
    cases item with
    | none => exact Or.inr (congrArg (List.cons none) (Prod.mk.inj h).2)
    | some piece => cases h

/-! ## PDUs -/

theorem length_hdr (pdu : Pdu) : pdu.hdr.length = sizeofCommonHdr := by cases pdu <;> rfl

theorem hlenOf_hdr (pdu : Pdu) : hlenOf pdu.hdr = sizeofCommonHdr + pdu.msg.length := by
  cases pdu with
  | cmd bytes h => exact (congrArg (fun n => sizeofCommonHdr + n) h).symm
  | resp bytes h => exact (congrArg (fun n => sizeofCommonHdr + n) h).symm

theorem msg_pos (pdu : Pdu) : 0 < pdu.msg.length := by
  cases pdu with
  | cmd bytes h => exact h.symm ▸ (show 0 < sizeofCmd by decide)
  | resp bytes h => exact h.symm ▸ (show 0 < sizeofCompletion by decide)

theorem length_bytes (pdu : Pdu) : pdu.bytes.length = sizeofCommonHdr + pdu.msg.length := by
  rw [Pdu.bytes, List.length_append, length_hdr]

/-! ## Calls -/

/-- A call that reads a header and all of the message. -/
theorem poll_of_reads (fresh : Mem) (hhdr : read sizeofCommonHdr arrivals = (some hdr, rest))
    (hlen : hdr.length = sizeofCommonHdr) (hpos : 0 < n) (hhlen : hlenOf hdr = sizeofCommonHdr + n)
    (hmsg : read n rest = (some msg, rest')) :
    tcpPollForMsg fresh arrivals = { ret := 0, msg := some ((fresh.write 0 msg).read 0 n), rest := rest' } := by
  have hsub : ((hlenOf hdr : Int) - sizeofCommonHdr) = n := by rw [hhlen]; omega
  have hgt : ¬(n : Int) ≤ 0 := by omega
  unfold tcpPollForMsg
  rw [hhdr]
  dsimp only
  rw [if_neg (not_not_intro hlen), hsub, if_neg hgt, Int.toNat_natCast, hmsg]

/-- A call that finds no header. -/
theorem poll_of_none (fresh : Mem) (hhdr : read sizeofCommonHdr arrivals = (none, rest)) :
    tcpPollForMsg fresh arrivals = { ret := -eagain, rest := rest } := by
  unfold tcpPollForMsg
  rw [hhdr]

/-- A call that finds a part of a header. -/
theorem poll_of_part (fresh : Mem) (hhdr : read sizeofCommonHdr arrivals = (some hdr, rest))
    (hlen : hdr.length ≠ sizeofCommonHdr) : tcpPollForMsg fresh arrivals = { ret := -enodata, rest := rest } := by
  unfold tcpPollForMsg
  rw [hhdr]
  dsimp only
  rw [if_pos hlen]

/-- A call that finds a header of a message without bytes. -/
theorem poll_of_empty (fresh : Mem) (hhdr : read sizeofCommonHdr arrivals = (some hdr, rest))
    (hlen : hdr.length = sizeofCommonHdr) (hle : (hlenOf hdr : Int) - sizeofCommonHdr ≤ 0) :
    tcpPollForMsg fresh arrivals = { ret := (hlenOf hdr : Int) - sizeofCommonHdr, rest := rest } := by
  unfold tcpPollForMsg
  rw [hhdr]
  dsimp only
  rw [if_neg (not_not_intro hlen), if_pos hle]

/-- A call that finds a header and nothing behind it yet. -/
theorem poll_of_hdr (fresh : Mem) (hhdr : read sizeofCommonHdr arrivals = (some hdr, rest))
    (hlen : hdr.length = sizeofCommonHdr) (hpos : 0 < n) (hhlen : hlenOf hdr = sizeofCommonHdr + n)
    (hmsg : read n rest = (none, rest')) : tcpPollForMsg fresh arrivals = { ret := -eagain, rest := rest' } := by
  have hsub : ((hlenOf hdr : Int) - sizeofCommonHdr) = n := by rw [hhlen]; omega
  have hgt : ¬(n : Int) ≤ 0 := by omega
  unfold tcpPollForMsg
  rw [hhdr]
  dsimp only
  rw [if_neg (not_not_intro hlen), hsub, if_neg hgt, Int.toNat_natCast, hmsg]

theorem deliver_succ (fresh : Nat → Mem) (i calls : Nat) (arrivals : Arrivals) :
    deliver fresh i (calls + 1) arrivals =
      (tcpPollForMsg (fresh i) arrivals).msg.toList ++ deliver fresh (i + 1) calls (tcpPollForMsg (fresh i) arrivals).rest := rfl

/-- A call that delivers nothing. -/
theorem deliver_none {fresh : Nat → Mem} {ret : Int}
    (h : tcpPollForMsg (fresh i) arrivals = { ret := ret, rest := rest }) :
    deliver fresh i (calls + 1) arrivals = deliver fresh (i + 1) calls rest := by
  rw [deliver_succ, h]
  rfl

theorem deliver_nil (fresh : Nat → Mem) (i calls : Nat) : deliver fresh i calls [] = [] := by
  induction calls generalizing i with
  | zero => rfl
  | succ calls ih => exact ih (i + 1)

theorem deliver_reads (fresh : Nat → Mem) (i calls : Nat) (hhdr : read sizeofCommonHdr arrivals = (some hdr, rest))
    (hlen : hdr.length = sizeofCommonHdr) (hpos : 0 < n) (hhlen : hlenOf hdr = sizeofCommonHdr + n)
    (hmsg : read n rest = (some msg, rest')) :
    deliver fresh i (calls + 1) arrivals = ((fresh i).write 0 msg).read 0 n :: deliver fresh (i + 1) calls rest' := by
  rw [deliver_succ, poll_of_reads (fresh i) hhdr hlen hpos hhlen hmsg]
  rfl

/-! ## What the reads of the receiver find -/

/-- Every header is read at once, and so is every message right behind it. -/
inductive Clean : List Pdu → Arrivals → Prop
  | nil : Clean [] []
  | block {pdus : List Pdu} {arrivals : Arrivals} (h : Clean pdus arrivals) : Clean pdus (none :: arrivals)
  | pdu {pdu : Pdu} {pdus : List Pdu} {arrivals rest rest' : Arrivals}
      (hhdr : read sizeofCommonHdr arrivals = (some pdu.hdr, rest))
      (hmsg : read pdu.msg.length rest = (some pdu.msg, rest')) (h : Clean pdus rest') : Clean (pdu :: pdus) arrivals

/-- Then the messages are delivered, by as many calls as find anything. -/
theorem deliver_of_clean (fresh : Nat → Mem) (h : Clean pdus arrivals) (hcalls : arrivals.size ≤ calls) :
    deliver fresh i calls arrivals = pdus.map Pdu.msg := by
  induction h generalizing i calls with
  | nil => exact deliver_nil fresh i calls
  | @block pdus arrivals _ ih =>
    rw [Arrivals.size] at hcalls
    obtain ⟨k, rfl⟩ := Nat.exists_eq_add_of_le' (Nat.le_trans (Nat.le_add_left 1 _) hcalls)
    exact ih (Nat.le_of_succ_le_succ hcalls)
  | @pdu pdu pdus arrivals rest rest' hhdr hmsg _ ih =>
    have hsize := (reads_of_read hhdr).size
    have hsize' := (reads_of_read hmsg).size
    have hpos := msg_pos pdu
    obtain ⟨k, rfl⟩ := Nat.exists_eq_add_of_le' (show 1 ≤ calls by omega)
    rw [deliver_reads fresh i k hhdr (length_hdr pdu) hpos (hlenOf_hdr pdu) hmsg, ih (by omega), Mem.read_write_self]
    rfl

/-- A piece that is one PDU is read in two parts. -/
theorem clean_whole (pdus : List Pdu) : Clean pdus (whole pdus) := by
  induction pdus with
  | nil => exact .nil
  | cons pdu pdus ih =>
    have hlen := length_hdr pdu
    have hmsg : pdu.msg ≠ [] := List.ne_nil_of_length_pos (msg_pos pdu)
    have htake : pdu.bytes.take sizeofCommonHdr = pdu.hdr := List.take_left' hlen
    have hdrop : pdu.bytes.drop sizeofCommonHdr = pdu.msg := List.drop_left' hlen
    have hhdr : read sizeofCommonHdr (whole (pdu :: pdus)) = (some pdu.hdr, some ⟨pdu.msg, hmsg⟩ :: whole pdus) := by
      show (some (pdu.bytes.take sizeofCommonHdr), Arrivals.push (pdu.bytes.drop sizeofCommonHdr) (whole pdus)) = _
      rw [htake, hdrop, Arrivals.push, dif_neg hmsg]
    have hread : read pdu.msg.length (some ⟨pdu.msg, hmsg⟩ :: whole pdus) = (some pdu.msg, whole pdus) := by
      show (some (pdu.msg.take pdu.msg.length), Arrivals.push (pdu.msg.drop pdu.msg.length) (whole pdus)) = _
      rw [List.take_length, List.drop_length, Arrivals.push, dif_pos rfl]
    exact .pdu hhdr hread ih

/-! ## Nothing is lost -/

/-- How many bytes of a stream so many delivered messages take, headers and all. -/
def taken (msgs : List (List UInt8)) : Nat := (msgs.map (fun msg => sizeofCommonHdr + msg.length)).sum

theorem taken_msgs (pdus : List Pdu) : taken (pdus.map Pdu.msg) = (written pdus).length := by
  induction pdus with
  | nil => rfl
  | cons pdu pdus ih =>
    have hcons : taken ((pdu :: pdus).map Pdu.msg) = sizeofCommonHdr + pdu.msg.length + taken (pdus.map Pdu.msg) := rfl
    have hwritten : written (pdu :: pdus) = pdu.bytes ++ written pdus := List.flatMap_cons
    rw [hcons, ih, hwritten, List.length_append, length_bytes]

/-- Memory that holds zero, or one, at every call. -/
def zeros (_ : Nat) : Mem := Mem.filled 0

def ones (_ : Nat) : Mem := Mem.filled 1

/-- One call of two receivers that deliver the same whether memory holds zeros or ones: there is nothing yet, or some of the stream is
lost, or a whole message is delivered. -/
theorem call_cases (hne : arrivals ≠ []) (hsame : deliver zeros i (calls + 1) arrivals = deliver ones i (calls + 1) arrivals) :
    (∃ rest : Arrivals, arrivals = none :: rest ∧
      ∀ fresh : Nat → Mem, deliver fresh i (calls + 1) arrivals = deliver fresh (i + 1) calls rest) ∨
    (∃ rest : Arrivals, rest.bytes.length < arrivals.bytes.length ∧
      ∀ fresh : Nat → Mem, deliver fresh i (calls + 1) arrivals = deliver fresh (i + 1) calls rest) ∨
    (∃ (hdr msg : List UInt8) (rest rest' : Arrivals), read sizeofCommonHdr arrivals = (some hdr, rest) ∧
      hdr.length = sizeofCommonHdr ∧ 0 < msg.length ∧ hlenOf hdr = sizeofCommonHdr + msg.length ∧
      read msg.length rest = (some msg, rest') ∧
      ∀ fresh : Nat → Mem, deliver fresh i (calls + 1) arrivals = msg :: deliver fresh (i + 1) calls rest') := by
  cases hread : read sizeofCommonHdr arrivals with
  | mk got rest =>
    cases got with
    | none =>
      exact Or.inl ⟨rest, (read_none hread).resolve_left (fun h => hne h.1), fun fresh => deliver_none (poll_of_none _ hread)⟩
    | some hdr =>
      have hr := reads_of_read hread
      have hpos : 0 < hdr.length := List.length_pos_of_ne_nil (hr.nonempty (by decide))
      have hlost : rest.bytes.length < arrivals.bytes.length := by
        rw [hr.stream, List.length_append]
        omega
      by_cases hlen : hdr.length = sizeofCommonHdr
      · by_cases hle : (hlenOf hdr : Int) - sizeofCommonHdr ≤ 0
        · exact Or.inr (Or.inl ⟨rest, hlost, fun fresh => deliver_none (poll_of_empty _ hread hlen hle)⟩)
        · obtain ⟨n, hn⟩ : ∃ n, hlenOf hdr = sizeofCommonHdr + n :=
            Nat.exists_eq_add_of_le (by omega)
          have hnpos : 0 < n := by omega
          cases hread' : read n rest with
          | mk got' rest' =>
            cases got' with
            | none =>
              -- The header is gone, and what comes behind it is taken for the next one.
              have hbytes : rest'.bytes = rest.bytes := by
                rcases read_none hread' with ⟨rfl, rfl⟩ | rfl
                · rfl
                · rfl
              exact Or.inr (Or.inl ⟨rest', by rw [hbytes]; exact hlost,
                fun fresh => deliver_none (poll_of_hdr _ hread hlen hnpos hn hread')⟩)
            | some msg =>
              have hr' := reads_of_read hread'
              have hdeliver (fresh : Nat → Mem) := deliver_reads fresh i calls hread hlen hnpos hn hread'
              have hfull : msg.length = n := by
                -- Of a message that is not all there, the memory behind it is seen.
                by_contra hshort
                have hlt : msg.length < n := Nat.lt_of_le_of_ne hr'.length hshort
                rw [hdeliver zeros, hdeliver ones] at hsame
                have hbyte := Mem.eq_of_read (List.cons.inj hsame).1 hlt
                rw [Nat.zero_add, Mem.write_after (by omega), Mem.write_after (by omega)] at hbyte
                exact absurd hbyte (show (0 : UInt8) ≠ 1 by decide)
              subst hfull
              refine Or.inr (Or.inr ⟨hdr, msg, rest, rest', rfl, hlen, hnpos, hn, hread', fun fresh => ?_⟩)
              rw [hdeliver fresh, Mem.read_write_self]
      · exact Or.inr (Or.inl ⟨rest, hlost, fun fresh => deliver_none (poll_of_part _ hread hlen)⟩)

/-- What is delivered takes no more than there was. -/
theorem taken_le (hsame : deliver zeros i calls arrivals = deliver ones i calls arrivals) :
    taken (deliver zeros i calls arrivals) ≤ arrivals.bytes.length := by
  induction calls generalizing i arrivals with
  | zero => exact Nat.zero_le _
  | succ calls ih =>
    by_cases hne : arrivals = []
    · rw [hne, deliver_nil]
      exact Nat.zero_le _
    · rcases call_cases hne hsame with ⟨rest, rfl, hcall⟩ | ⟨rest, hlt, hcall⟩ | ⟨hdr, msg, rest, rest', hread, hlen, _, _, hread', hcall⟩
      · rw [hcall zeros, hcall ones] at hsame
        rw [hcall zeros]
        exact ih hsame
      · rw [hcall zeros, hcall ones] at hsame
        rw [hcall zeros]
        exact Nat.le_trans (ih hsame) (Nat.le_of_lt hlt)
      · rw [hcall zeros, hcall ones] at hsame
        have hle := ih (List.cons.inj hsame).2
        have hcons : taken (msg :: deliver zeros (i + 1) calls rest') =
            sizeofCommonHdr + msg.length + taken (deliver zeros (i + 1) calls rest') := rfl
        rw [hcall zeros, hcons, (reads_of_read hread).stream, (reads_of_read hread').stream, List.length_append,
          List.length_append, hlen]
        omega

theorem eq_nil_of_written (h : written pdus = []) : pdus = [] := by
  cases pdus with
  | nil => rfl
  | cons pdu pdus => exact absurd (List.append_eq_nil_iff.mp h).1 pdu.bytes_ne_nil

/-- The header and the message that are read first of a stream of PDUs are those of the first. -/
theorem first_pdu (hstream : hdr ++ (msg ++ bytes) = written pdus) (hlen : hdr.length = sizeofCommonHdr)
    (hhlen : hlenOf hdr = sizeofCommonHdr + msg.length) :
    ∃ (pdu : Pdu) (later : List Pdu), pdus = pdu :: later ∧ hdr = pdu.hdr ∧ msg = pdu.msg ∧ bytes = written later := by
  cases pdus with
  | nil =>
    have hnil := (List.append_eq_nil_iff.mp hstream).1
    rw [hnil] at hlen
    exact absurd hlen (by decide)
  | cons pdu later =>
    have hwritten : written (pdu :: later) = pdu.hdr ++ (pdu.msg ++ written later) := by
      rw [written, List.flatMap_cons, Pdu.bytes, List.append_assoc]
      rfl
    rw [hwritten] at hstream
    obtain ⟨hhdr, hrest⟩ := List.append_inj hstream (hlen.trans (length_hdr pdu).symm)
    have hmsg : msg.length = pdu.msg.length := by
      rw [hhdr, hlenOf_hdr] at hhlen
      omega
    obtain ⟨hmsg, hlater⟩ := List.append_inj hrest hmsg
    exact ⟨pdu, later, rfl, hhdr, hmsg, hlater⟩

/-- When the messages that are delivered take all of the stream, every read got all it asked for. -/
theorem clean_of_deliver (hstream : arrivals.bytes = written pdus) (hcalls : arrivals.size ≤ calls)
    (hsame : deliver zeros i calls arrivals = deliver ones i calls arrivals)
    (hall : arrivals.bytes.length ≤ taken (deliver zeros i calls arrivals)) : Clean pdus arrivals := by
  have hempty : arrivals = [] → Clean pdus arrivals := by
    rintro rfl
    rw [eq_nil_of_written hstream.symm]
    exact .nil
  induction calls generalizing i arrivals pdus with
  | zero =>
    cases arrivals with
    | nil => exact hempty rfl
    | cons item rest =>
      have hpos : 0 < Arrivals.size (item :: rest) := by
        cases item with
        | none => exact Nat.succ_pos _
        | some piece => exact Nat.lt_of_lt_of_le (List.length_pos_of_ne_nil piece.nonempty) (Nat.le_add_right _ _)
      omega
  | succ calls ih =>
    by_cases hne : arrivals = []
    · exact hempty hne
    · have hnext : ∀ {later : List Pdu} {rest : Arrivals}, rest.bytes = written later → rest = [] → Clean later rest := by
        rintro later rest hrest rfl
        rw [eq_nil_of_written hrest.symm]
        exact .nil
      rcases call_cases hne hsame with ⟨rest, rfl, hcall⟩ | ⟨rest, hlt, hcall⟩ | ⟨hdr, msg, rest, rest', hread, hlen, hpos, hhlen, hread', hcall⟩
      · rw [hcall zeros, hcall ones] at hsame
        rw [hcall zeros] at hall
        exact .block (ih hstream (Nat.le_of_succ_le_succ hcalls) hsame hall (hnext hstream))
      · -- What was lost is missing in the end.
        rw [hcall zeros, hcall ones] at hsame
        rw [hcall zeros] at hall
        exact absurd (taken_le hsame) (by omega)
      · have hr := reads_of_read hread
        have hr' := reads_of_read hread'
        rw [hr.stream, hr'.stream] at hstream
        obtain ⟨pdu, later, rfl, rfl, rfl, hlater⟩ := first_pdu hstream hlen hhlen
        rw [hcall zeros, hcall ones] at hsame
        have hcons : taken (pdu.msg :: deliver zeros (i + 1) calls rest') =
            sizeofCommonHdr + pdu.msg.length + taken (deliver zeros (i + 1) calls rest') := rfl
        rw [hcall zeros, hcons, hr.stream, hr'.stream, List.length_append, List.length_append, hlen] at hall
        have hsize := hr.size
        have hsize' := hr'.size
        exact .pdu hread hread'
          (ih hlater (by omega) (List.cons.inj hsame).2 (by omega) (hnext hlater))

/-- The messages are those of the PDUs exactly if every read gets all it asks for. -/
theorem sameAsWhole_iff_clean (hstream : arrivals.bytes = written pdus) : SameAsWhole arrivals pdus ↔ Clean pdus arrivals := by
  constructor
  · intro hsame
    have hmsgs (fresh : Nat → Mem) : deliver fresh 0 arrivals.size arrivals = pdus.map Pdu.msg := by
      rw [hsame fresh _ _ (Nat.le_refl _) (Nat.le_refl _), deliver_of_clean fresh (clean_whole pdus) (Nat.le_refl _)]
    refine clean_of_deliver hstream (Nat.le_refl arrivals.size) (by rw [hmsgs, hmsgs]) ?_
    rw [hmsgs, taken_msgs, hstream]
  · intro h fresh calls calls' hcalls hcalls'
    rw [deliver_of_clean fresh h hcalls, deliver_of_clean fresh (clean_whole pdus) hcalls']

/-! ## Where the cuts are -/

theorem off_mem_starts (off : Nat) (pdus : List Pdu) : off ∈ starts off pdus := by
  cases pdus with
  | nil => exact List.mem_cons_self
  | cons pdu later => exact List.mem_cons_self

theorem le_of_mem_starts {e : Nat} (h : e ∈ starts off pdus) : off ≤ e := by
  induction pdus generalizing off with
  | nil => exact Nat.le_of_eq (List.mem_singleton.mp h).symm
  | cons pdu later ih =>
    rcases List.mem_cons.mp h with rfl | h
    · exact Nat.le_refl _
    · exact Nat.le_trans (Nat.le_add_right _ _) (ih h)

theorem lt_of_mem_hdrEnds {e : Nat} (h : e ∈ hdrEnds off pdus) : off + sizeofCommonHdr ≤ e := by
  induction pdus generalizing off with
  | nil => cases h
  | cons pdu later ih =>
    rcases List.mem_cons.mp h with rfl | h
    · exact Nat.le_refl _
    · exact Nat.le_trans (Nat.add_le_add_right (Nat.le_add_right _ _) _) (ih h)

theorem lt_of_mem_ends {e : Nat} (h : e ∈ arrivals.ends off) : off < e := by
  induction arrivals generalizing off with
  | nil => cases h
  | cons item rest ih =>
    cases item with
    | none => exact ih h
    | some piece =>
      have hpos := List.length_pos_of_ne_nil piece.nonempty
      rcases List.mem_cons.mp h with rfl | h
      · omega
      · have := ih h
        omega

theorem le_of_mem_blocks {b : Nat} (h : b ∈ arrivals.blocks off) : off ≤ b := by
  induction arrivals generalizing off with
  | nil => cases h
  | cons item rest ih =>
    cases item with
    | none =>
      rcases List.mem_cons.mp h with rfl | h
      · exact Nat.le_refl _
      · exact ih h
    | some piece => exact Nat.le_trans (Nat.le_add_right _ _) (ih h)

theorem intact_of_clean (off : Nat) (h : Clean pdus arrivals) : IntactFrom off arrivals pdus := by
  induction h generalizing off with
  | nil => exact ⟨fun e he => (by cases he), fun b hb => (by cases hb)⟩
  | @block pdus arrivals _ ih =>
    refine ⟨(ih off).ends, fun b hb => ?_⟩
    rcases List.mem_cons.mp hb with rfl | hb
    · exact off_mem_starts _ _
    · exact (ih off).blocks b hb
  | @pdu pdu pdus arrivals rest rest' hhdr hmsg _ ih =>
    have hr := reads_of_read hhdr
    have hr' := reads_of_read hmsg
    have hnext : off + pdu.hdr.length + pdu.msg.length = off + pdu.bytes.length := by
      rw [Pdu.bytes, List.length_append, Nat.add_assoc]
    refine ⟨fun e he => ?_, fun b hb => ?_⟩
    · rcases hr.ends off e he with rfl | he
      · exact Or.inr (by rw [length_hdr]; exact List.mem_cons_self)
      · rcases hr'.ends _ e he with rfl | he
        · exact Or.inl (List.mem_cons_of_mem _ (by rw [hnext]; exact off_mem_starts _ _))
        · rw [hnext] at he
          exact ((ih _).ends e he).imp (List.mem_cons_of_mem _) (List.mem_cons_of_mem _)
    · rw [hr.blocks, hr'.blocks, hnext] at hb
      exact List.mem_cons_of_mem _ ((ih _).blocks b hb)

/-- A read within the first piece. -/
theorem read_piece {piece : Piece} (h : n ≤ piece.bytes.length) (hstream : piece.bytes ++ rest.bytes = bytes ++ hdr)
    (hlen : bytes.length = n) : ∃ rest' : Arrivals, read n (some piece :: rest) = (some bytes, rest') := by
  have htake : piece.bytes.take n = bytes := by
    have := congrArg (List.take n) hstream
    rwa [List.take_append_of_le_length h, List.take_left' hlen] at this
  exact ⟨_, congrArg (fun b => (some b, Arrivals.push (piece.bytes.drop n) rest)) htake⟩

/-- The next unit of the stream, a header or a message, is within the first piece when no piece ends inside of it. -/
theorem read_unit (off : Nat) (hpos : 0 < n) (hlen : bytes.length = n) (hstream : arrivals.bytes = bytes ++ hdr)
    (hends : ∀ e ∈ arrivals.ends off, off + n ≤ e) (hblocks : off ∉ arrivals.blocks off) :
    ∃ rest' : Arrivals, read n arrivals = (some bytes, rest') := by
  cases arrivals with
  | nil =>
    have hnil := (List.append_eq_nil_iff.mp hstream.symm).1
    rw [hnil] at hlen
    exact absurd hlen (Nat.ne_of_lt hpos)
  | cons item rest =>
    cases item with
    | none => exact absurd List.mem_cons_self hblocks
    | some piece =>
      have hend := hends _ List.mem_cons_self
      exact read_piece (by omega) hstream hlen

theorem clean_of_intact (hstream : arrivals.bytes = written pdus) (h : IntactFrom off arrivals pdus) : Clean pdus arrivals := by
  induction hsize : arrivals.size using Nat.strong_induction_on generalizing arrivals pdus off with
  | _ size ih =>
    cases pdus with
    | nil =>
      -- All that is left is nothing, again and again.
      cases arrivals with
      | nil => exact .nil
      | cons item rest =>
        cases item with
        | none =>
          refine .block (ih (Arrivals.size rest) ?_ hstream ⟨h.ends, fun b hb => h.blocks b (List.mem_cons_of_mem _ hb)⟩ rfl)
          rw [← hsize]
          exact Nat.lt_succ_self _
        | some piece => exact absurd (List.append_eq_nil_iff.mp hstream).1 piece.nonempty
    | cons pdu later =>
      by_cases hblock : off ∈ arrivals.blocks off
      · cases arrivals with
        | nil => cases hblock
        | cons item rest =>
          cases item with
          | none =>
            refine .block (ih (Arrivals.size rest) ?_ hstream ⟨h.ends, fun b hb => h.blocks b (List.mem_cons_of_mem _ hb)⟩ rfl)
            rw [← hsize]
            exact Nat.lt_succ_self _
          | some piece =>
            have hpos := List.length_pos_of_ne_nil piece.nonempty
            have hle : off + piece.bytes.length ≤ off := le_of_mem_blocks hblock
            omega
      · have hwritten : written (pdu :: later) = pdu.hdr ++ (pdu.msg ++ written later) := by
          rw [written, List.flatMap_cons, Pdu.bytes, List.append_assoc]
          rfl
        have hmsgpos := msg_pos pdu
        have hhdrlen := length_hdr pdu
        have hbytes := length_bytes pdu
        -- No piece ends inside the header.
        obtain ⟨rest, hread⟩ := read_unit off (show 0 < sizeofCommonHdr by decide) hhdrlen (hstream.trans hwritten)
          (fun e he => by
            have hlt := lt_of_mem_ends he
            rcases h.ends e he with hs | hd
            · rcases List.mem_cons.mp hs with rfl | hs
              · omega
              · have := le_of_mem_starts hs
                omega
            · exact lt_of_mem_hdrEnds hd) hblock
        have hr := reads_of_read hread
        have hrest : rest.bytes = pdu.msg ++ written later := by
          have := hr.stream
          rw [hstream, hwritten] at this
          exact (List.append_cancel_left this).symm
        -- No piece ends inside the message, and there is no wait before it.
        obtain ⟨rest', hread'⟩ := read_unit (off + pdu.hdr.length) hmsgpos rfl hrest
          (fun e he => by
            have hlt := lt_of_mem_ends he
            rcases h.ends e (hr.ends' off e he) with hs | hd
            · rcases List.mem_cons.mp hs with rfl | hs
              · omega
              · have := le_of_mem_starts hs
                omega
            · rcases List.mem_cons.mp hd with rfl | hd
              · omega
              · have := lt_of_mem_hdrEnds hd
                omega)
          (fun hb => by
            rw [← hr.blocks] at hb
            rcases List.mem_cons.mp (h.blocks _ hb) with heq | hs
            · have : 0 < sizeofCommonHdr := by decide
              omega
            · have := le_of_mem_starts hs
              omega)
        have hr' := reads_of_read hread'
        have hnext : off + pdu.hdr.length + pdu.msg.length = off + pdu.bytes.length := by omega
        have hintact : IntactFrom (off + pdu.bytes.length) rest' later := by
          refine ⟨fun e he => ?_, fun b hb => ?_⟩
          · have hlt := lt_of_mem_ends he
            rw [← hnext] at he
            rcases h.ends e (hr.ends' off e (hr'.ends' _ e he)) with hs | hd
            · rcases List.mem_cons.mp hs with rfl | hs
              · omega
              · exact Or.inl hs
            · rcases List.mem_cons.mp hd with rfl | hd
              · omega
              · exact Or.inr hd
          · have hle := le_of_mem_blocks hb
            rw [← hnext, ← hr'.blocks, ← hr.blocks] at hb
            rcases List.mem_cons.mp (h.blocks b hb) with rfl | hs
            · omega
            · exact hs
        have hlater : rest'.bytes = written later := by
          have := hr'.stream
          rw [hrest] at this
          exact (List.append_cancel_left this).symm
        have hless : rest'.size < size := by
          have hsize' := hr.size
          have hsize'' := hr'.size
          omega
        exact .pdu hread hread' (ih _ hless hlater hintact rfl)

end

/-- The messages of PDUs that were written one after the other are delivered as if each had arrived whole, exactly if no header and
no message is cut and nothing is waited for inside a PDU. -/
theorem framing_iff {arrivals : Arrivals} {pdus : List Pdu} (hstream : arrivals.bytes = written pdus) :
    SameAsWhole arrivals pdus ↔ Intact arrivals pdus :=
  (sameAsWhole_iff_clean hstream).trans ⟨intact_of_clean 0, clean_of_intact hstream⟩

/-! ## Examples -/

def exampleResp : Pdu := .resp (List.replicate 16 7) rfl

def exampleCmd : Pdu := .cmd (List.replicate 64 5) rfl

/-- A command whose message comes after its header, and with a completion behind it, after a wait. -/
def keptApart : Arrivals :=
  [none, some ⟨exampleCmd.hdr, by decide⟩, some ⟨exampleCmd.msg ++ exampleResp.bytes, by decide⟩, none]

/-- A completion of which the last eight bytes come later. -/
def splitResp : Arrivals := [some ⟨exampleResp.bytes.take 16, by decide⟩, some ⟨exampleResp.bytes.drop 16, by decide⟩]

theorem framing_kept : SameAsWhole keptApart [exampleCmd, exampleResp] :=
  (framing_iff (by decide)).mpr ⟨by decide, by decide⟩

theorem framing_split : splitResp.bytes = written [exampleResp] ∧ ¬SameAsWhole splitResp [exampleResp] := by
  refine ⟨by decide, fun hsame => ?_⟩
  have heq := hsame zeros 24 24 (by decide) (by decide)
  exact absurd heq (by decide)

end NvmeDem.Tcp
