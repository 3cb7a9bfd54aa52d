import NvmeDem.Dem.PseudoTarget

/-!
# The bytes of a log page reply

The header of a reply is two numbers of eight bytes, and nothing else of it is set; the entries are copied one after the other from
behind the whole header on.
-/

namespace NvmeDem.PseudoTarget

variable {log : Mem} {numrec off i n : Nat} {entries : List LogEntry}

/-! ## Entries -/

@[simp] theorem length_textField (n : Nat) (s : String) : (textField n s).length = n := by
  unfold textField cstring
  rw [List.length_append, List.length_take, List.length_map, List.length_replicate, String.length_toList]
  omega

@[simp] theorem length_entryBytes (e : LogEntry) : (entryBytes e).length = sizeofRspPageEntry := by
  simp only [entryBytes, List.length_append, length_leBytes, length_textField, List.length_replicate, List.length_cons,
    List.length_nil, sizeofRspPageEntry]

theorem copyEntries_before (entries : List LogEntry) (h : i < off) : copyEntries entries off log i = log i := by
  induction entries generalizing off log with
  | nil => rfl
  | cons e rest ih =>
    rw [copyEntries, ih (Nat.lt_of_lt_of_le h (Nat.le_add_right _ _))]
    exact Mem.write_before h

/-- The entry at a position is where the copies put it. -/
theorem read_copyEntries (h : i < entries.length) :
    (copyEntries entries off log).read (off + sizeofRspPageEntry * i) sizeofRspPageEntry = entryBytes entries[i] := by
  induction entries generalizing off log i with
  | nil => cases h
  | cons e rest ih =>
    cases i with
    | zero =>
      have hfirst : (copyEntries (e :: rest) off log).read off sizeofRspPageEntry =
          (log.write off (entryBytes e)).read off sizeofRspPageEntry :=
        Mem.read_congr (fun i hi => copyEntries_before rest (Nat.add_lt_add_left hi off))
      rw [Nat.mul_zero, Nat.add_zero, hfirst]
      exact Mem.read_write_eq (length_entryBytes e)
    | succ i =>
      have hoff : off + sizeofRspPageEntry * (i + 1) = off + sizeofRspPageEntry + sizeofRspPageEntry * i := by ring
      rw [hoff]
      exact ih (Nat.lt_of_succ_lt_succ h)

/-- The copies end behind the last entry. -/
theorem copyEntries_after (h : off + sizeofRspPageEntry * entries.length ≤ i) : copyEntries entries off log i = log i := by
  induction entries generalizing off log with
  | nil => rfl
  | cons e rest ih =>
    rw [List.length_cons, Nat.mul_succ] at h
    rw [copyEntries, ih (by omega)]
    exact Mem.write_after (by rw [length_entryBytes]; omega)

/-- The last byte of an entry is reserved. -/
theorem entryBytes_last (e : LogEntry) : (entryBytes e)[sizeofRspPageEntry - 1]? = some 0 := by
  unfold entryBytes
  rw [List.getElem?_append_right, List.getElem?_replicate, if_pos]
  all_goals
    simp only [List.length_append, length_leBytes, length_textField, List.length_replicate, List.length_cons,
      List.length_nil, sizeofRspPageEntry]
    omega

/-- The last byte of the last entry is the last that is copied. -/
theorem copyEntries_last (h : 0 < entries.length) :
    copyEntries entries off log (off + sizeofRspPageEntry * entries.length - 1) = 0 := by
  have hlt : entries.length - 1 < entries.length := by omega
  have hread : (copyEntries entries off log).read (off + sizeofRspPageEntry * (entries.length - 1)) sizeofRspPageEntry =
      entryBytes entries[entries.length - 1] := read_copyEntries hlt
  have hbyte : ((copyEntries entries off log).read (off + sizeofRspPageEntry * (entries.length - 1)) sizeofRspPageEntry)[
      sizeofRspPageEntry - 1]? = some (copyEntries entries off log
        (off + sizeofRspPageEntry * (entries.length - 1) + (sizeofRspPageEntry - 1))) := Mem.getElem?_read (by decide)
  rw [hread, entryBytes_last] at hbyte
  have hlast : off + sizeofRspPageEntry * (entries.length - 1) + (sizeofRspPageEntry - 1) =
      off + sizeofRspPageEntry * entries.length - 1 := by
    unfold sizeofRspPageEntry
    omega
  rw [← hlast]
  exact (Option.some.inj hbyte).symm

/-! ## The header -/

theorem writeHdr_after (h : 16 ≤ i) : writeHdr log numrec i = log i := by
  unfold writeHdr
  rw [Mem.write_after (by rw [length_leBytes]; omega), Mem.write_after (by rw [length_leBytes]; omega)]

/-- The last byte of the header that is set is the last one of the count. -/
theorem writeHdr_last (log : Mem) : writeHdr log 0 15 = 0 := by
  unfold writeHdr
  rw [Mem.write_after (by rw [length_leBytes]; omega)]
  have hbyte : log.write 8 (leBytes 8 0) (8 + 7) = (leBytes 8 0)[7] := Mem.write_at (by decide)
  exact hbyte

theorem read_writeHdr_genctr : (writeHdr log numrec).read 0 8 = leBytes 8 1 := Mem.read_write_eq (length_leBytes 8 1)

theorem read_writeHdr_numrec (log : Mem) (numrec : Nat) : (writeHdr log numrec).read 8 8 = leBytes 8 numrec := by
  unfold writeHdr
  rw [Mem.read_write_after (by rw [length_leBytes])]
  exact Mem.read_write_eq (length_leBytes 8 numrec)

/-- The part of the header that is set. -/
theorem read_writeHdr (log : Mem) (numrec : Nat) : (writeHdr log numrec).read 0 16 = leBytes 8 1 ++ leBytes 8 numrec := by
  rw [Mem.read_add _ 0 8 8, read_writeHdr_genctr, read_writeHdr_numrec]

/-- No more than the part that is set does not depend on what was in memory. -/
theorem read_writeHdr_le (h : n ≤ 16) : (writeHdr log numrec).read 0 n = (leBytes 8 1 ++ leBytes 8 numrec).take n := by
  rw [← read_writeHdr log numrec, Mem.take_read h]

/-! ## The command -/

/-- A request for log pages with a buffer of so many bytes. -/
structure NvmeCommand.GetsLogPage (cmd : NvmeCommand) (len : BitVec 24) : Prop where
  opcode : cmd.opcode = nvmeAdminGetLogPage
  length : cmd.length = len

theorem dispatch_getLogPage {lists : Lists} {cmd : NvmeCommand} {ans : Answers} {host : HostConn} {reqs : List EventRequest}
    {len : BitVec 24} (h : cmd.GetsLogPage len) :
    dispatch lists cmd ans host reqs =
      if len.toNat = 16 then handleGetLogPageCount lists cmd ans host reqs else handleGetLogPages lists cmd ans host reqs := by
  unfold dispatch
  rw [if_neg (by rw [h.opcode]; decide), if_neg (by rw [h.opcode]; decide), if_neg (by rw [h.opcode]; decide),
    if_pos h.opcode, h.length]

end NvmeDem.PseudoTarget
