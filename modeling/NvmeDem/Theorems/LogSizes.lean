import NvmeDem.Fabric.LogSizes

/-!
# Where the sizes of a log agree

A log of more than 16382 records does not fit into the three bytes of its length, and one of 4194303 records or more not into the word that its
size is kept in. Only the sizes that are negative as an `int` are refused, by the allocator, and the client goes by an `errno` then that the
allocator does not set.
-/

namespace NvmeDem.LogSizes

open PseudoTarget (sizeofRspPageHdr sizeofRspPageEntry)

/-- The command says the size of the buffer in both ways. -/
structure Request.Denotes (req : Request) : Prop where
  dwords : (req.numdu.toNat * 2 ^ 16 + req.numdl.toNat + 1) * 4 = req.buffer
  length : getUnalignedLe24 req.length = req.buffer

/-- What a client may do: give up, or say the size of its buffer and visit records that are in it. -/
def Outcome.Sound : Outcome → Prop
  | .rejected ret => ret < 0
  | .empty => True
  | .log req visited => req.Denotes ∧ ∀ place ∈ visited, place + sizeofRspPageEntry ≤ req.buffer

def Sound (r : Except Fault Outcome) : Prop := ∃ outcome, r = .ok outcome ∧ outcome.Sound

/-- A step of a request fails that the sizes do not decide. -/
def Steps.Fails (steps : Steps) : Prop := steps.allocKey ≠ 0 ∨ steps.sendCmd ≠ 0 ∨ steps.processNvmeRsp ≠ 0

/-! ## Sizes -/

theorem sizeT_of_nonneg {n : Nat} (h : n < 2 ^ 64) : sizeT n = n := by
  rw [sizeT]
  omega

theorem cInt_of_lt {size : Nat} (h : size < 2 ^ 31) : cInt size = size := by
  rw [cInt, Int.bmod_def]
  split <;> omega

theorem cInt_of_le {size : Nat} (h : 2 ^ 31 ≤ size) (h' : size < 2 ^ 32) : cInt size = size - 2 ^ 32 := by
  rw [cInt, Int.bmod_def]
  split <;> omega

/-- The allocator refuses the sizes with the highest bit of an `int`. -/
theorem memalignFails_iff {size : Nat} (h : size < 2 ^ 32) : memalignFails (sizeT (cInt size)) = true ↔ 2 ^ 31 ≤ size := by
  rw [memalignFails, decide_eq_true_iff, sizeT]
  rcases Nat.lt_or_ge size (2 ^ 31) with hlt | hge
  · rw [cInt_of_lt hlt]
    omega
  · rw [cInt_of_le hge h]
    omega

/-- The two halves of a word. -/
theorem halves (size : BitVec 32) :
    ((size >>> 16).setWidth 16).toNat * 2 ^ 16 + (size.setWidth 16).toNat = size.toNat := by
  have hlt := size.isLt
  simp only [BitVec.toNat_setWidth, BitVec.toNat_ushiftRight, Nat.shiftRight_eq_div_pow]
  omega

theorem getUnalignedLe24_put (val : Nat) : getUnalignedLe24 (putUnalignedLe24 val) = val % 2 ^ 24 := ofLe_leBytes 3 val

/-- A request denotes the size of its buffer if and only if that is a number of dwords and goes into three bytes. -/
theorem denotes_iff {size : Nat} (h : size < 2 ^ 31) : (request size).Denotes ↔ 4 ∣ size ∧ 0 < size ∧ size < 2 ^ 24 := by
  have hbuffer : (request size).buffer = size := sizeT_of_nonneg (by omega)
  have hword : (size : Int) % 2 ^ 32 = size := by omega
  have hlength : getUnalignedLe24 (request size).length = size % 2 ^ 24 := by
    rw [request, hword, Int.toNat_natCast]
    exact getUnalignedLe24_put size
  have hdwords : (request size).numdu.toNat * 2 ^ 16 + (request size).numdl.toNat =
      (((size / 4 : Nat) - 1 : Int) % 2 ^ 32).toNat := by
    have hdiv : (size : Int).tdiv 4 = (size / 4 : Nat) := rfl
    rw [request, halves, BitVec.toNat_ofInt, hdiv]
    rfl
  constructor
  · rintro ⟨hdw, hlen⟩
    rw [hdwords, hbuffer] at hdw
    rw [hlength, hbuffer] at hlen
    omega
  · rintro ⟨hdvd, hpos, hsmall⟩
    constructor
    · rw [hdwords, hbuffer]
      omega
    · rw [hlength, hbuffer]
      omega

/-- The size of a log with so many records. -/
theorem logSize_eq (numrec : BitVec 32) : logSize numrec = 1024 * (numrec.toNat + 1) % 2 ^ 32 := by
  rw [logSize, sizeofRspPageHdr, sizeofRspPageEntry, Nat.mul_add_one, Nat.add_comm]

theorem logSize_lt (numrec : BitVec 32) : logSize numrec < 2 ^ 32 := Nat.mod_lt _ (by decide)

/-- The records of a log are in a buffer if and only if the last one is. -/
theorem entryPlaces_within (numrec : BitVec 32) (buffer : Nat) (h : numrec ≠ 0) :
    (∀ place ∈ entryPlaces numrec, place + sizeofRspPageEntry ≤ buffer) ↔ 1024 * (numrec.toNat + 1) ≤ buffer := by
  have hpos : 0 < numrec.toNat := Nat.pos_of_ne_zero (fun hzero => h (BitVec.eq_of_toNat_eq hzero))
  constructor
  · intro hall
    have hlast := hall (sizeofRspPageHdr + sizeofRspPageEntry * (numrec.toNat - 1))
      (List.mem_map_of_mem (List.mem_range.mpr (Nat.sub_lt hpos Nat.one_pos)))
    rw [sizeofRspPageHdr, sizeofRspPageEntry] at hlast
    omega
  · intro hend place hmem
    obtain ⟨i, hi, rfl⟩ := List.mem_map.mp hmem
    have hlt := List.mem_range.mp hi
    rw [sizeofRspPageHdr, sizeofRspPageEntry]
    omega

/-! ## The client -/

/-- The log of a request that did not wrap. -/
theorem log_sound_iff (numrec : BitVec 32) (h : numrec ≠ 0) (hsize : logSize numrec < 2 ^ 31) :
    (Outcome.log (request (logSize numrec)) (entryPlaces numrec)).Sound ↔ numrec.toNat ≤ 16382 := by
  have hlt := numrec.isLt
  have hbuffer : (request (logSize numrec)).buffer = logSize numrec := sizeT_of_nonneg (by omega)
  rw [Outcome.Sound, denotes_iff hsize, hbuffer, entryPlaces_within numrec _ h, logSize_eq]
  omega

theorem sound_rejected : Sound (.ok (.rejected (-enodata))) := ⟨_, rfl, show -enodata < 0 by decide⟩

theorem not_sound_error (fault : Fault) : ¬Sound (.error fault) := fun ⟨_, h, _⟩ => nomatch h

theorem sound_ok (outcome : Outcome) : Sound (.ok outcome) ↔ outcome.Sound :=
  ⟨fun ⟨_, h, hsound⟩ => Except.ok.inj h ▸ hsound, fun h => ⟨outcome, rfl, h⟩⟩

/-- What a request leaves that the allocator does not refuse. -/
theorem sendGetLogPage_of_memalign {steps : Steps} {size : Int} (h : memalignFails (sizeT size) = false) :
    (steps.Fails ∧ (sendGetLogPage steps size).1 ≠ 0) ∨ (¬steps.Fails ∧ sendGetLogPage steps size = (0, some (request size))) := by
  simp only [sendGetLogPage, h, Bool.false_eq_true, if_false, Steps.Fails]
  by_cases hkey : steps.allocKey = 0
  · by_cases hsend : steps.sendCmd = 0
    · by_cases hrsp : steps.processNvmeRsp = 0
      · right
        simp [hkey, hsend, hrsp]
      · left
        simp [hkey, hsend, hrsp]
    · left
      simp [hkey, hsend]
  · left
    simp [hkey]

/-- A second request for a size that is no negative `int` is sound if and only if it is for few enough records, or the log is not visited. -/
theorem fetchEntries_of_lt (steps : Steps) (told reply : Reply) (h : told.numrec ≠ 0) (hsize : logSize told.numrec < 2 ^ 31) :
    Sound (fetchEntries steps told reply) ↔ told.numrec.toNat ≤ 16382 ∨ steps.Fails ∨ told ≠ reply := by
  have halloc : memalignFails (sizeT (cInt (logSize told.numrec))) = false := by
    rw [← Bool.not_eq_true, memalignFails_iff (logSize_lt _)]
    exact Nat.not_le.mpr hsize
  rcases @sendGetLogPage_of_memalign steps _ halloc with ⟨hfails, hret⟩ | ⟨hfails, hret⟩
  · rw [fetchEntries, if_pos hret]
    exact iff_of_true sound_rejected (.inr (.inl hfails))
  · have hlog := log_sound_iff told.numrec h hsize
    rw [← cInt_of_lt hsize] at hlog
    have hdiff : (told.numrec ≠ reply.numrec ∨ told.genctr ≠ reply.genctr) ↔ told ≠ reply := by
      rw [← not_and_or, ← Reply.mk.injEq]
    have hfetch : fetchEntries steps told reply = if told ≠ reply then .ok (.rejected (-einval))
        else .ok (.log (request (cInt (logSize told.numrec))) (entryPlaces told.numrec)) := by
      rw [fetchEntries, hret, if_neg (not_not_intro rfl)]
      exact if_congr hdiff rfl rfl
    rw [hfetch]
    by_cases hsame : told = reply
    · rw [if_neg (not_not_intro hsame), sound_ok, hlog]
      exact ⟨.inl, fun hsound => hsound.resolve_right (not_or.mpr ⟨hfails, not_not_intro hsame⟩)⟩
    · rw [if_pos hsame]
      exact iff_of_true ⟨_, rfl, show -einval < 0 by decide⟩ (.inr (.inr hsame))

/-- One for a negative `int` is if and only if `errno` happens to be set. -/
theorem fetchEntries_of_ge (steps : Steps) (told reply : Reply) (hsize : 2 ^ 31 ≤ logSize told.numrec) :
    Sound (fetchEntries steps told reply) ↔ steps.errno ≠ 0 := by
  have halloc := (memalignFails_iff (logSize_lt told.numrec)).mpr hsize
  have hret : sendGetLogPage steps (cInt (logSize told.numrec)) = (steps.errno, none) := by rw [sendGetLogPage, if_pos halloc]
  rw [fetchEntries, hret]
  by_cases herrno : steps.errno = 0
  · rw [if_neg (not_not_intro herrno)]
    exact iff_of_false (not_sound_error _) (not_not_intro herrno)
  · rw [if_pos herrno]
    exact iff_of_true sound_rejected herrno

/-- The second request is sound if and only if it is for few enough records, or it fails. -/
theorem fetchEntries_sound_iff (steps : Steps) (told reply : Reply) (h : told.numrec ≠ 0) :
    Sound (fetchEntries steps told reply) ↔ told.numrec.toNat ≤ 16382 ∨ (2 ^ 31 ≤ logSize told.numrec ∧ steps.errno ≠ 0) ∨
      (logSize told.numrec < 2 ^ 31 ∧ (steps.Fails ∨ told ≠ reply)) := by
  have hfew : told.numrec.toNat ≤ 16382 → logSize told.numrec < 2 ^ 31 := by
    rw [logSize_eq]
    omega
  rcases Nat.lt_or_ge (logSize told.numrec) (2 ^ 31) with hsize | hsize
  · rw [fetchEntries_of_lt steps told reply h hsize]
    simp only [Nat.not_le.mpr hsize, hsize, false_and, false_or, true_and]
  · have hmany : ¬told.numrec.toNat ≤ 16382 := fun hle => Nat.not_lt.mpr hsize (hfew hle)
    rw [fetchEntries_of_ge steps told reply hsize]
    simp only [hmany, Nat.not_lt.mpr hsize, hsize, false_and, false_or, true_and, or_false]

/-- A log is fetched with sizes that agree, or not fetched, if and only if it has few enough records, or the sizes make a negative `int` and
`errno` is set, or another step fails or the second reply differs. -/
theorem getLogpages_sound_iff (first second : Steps) (told reply : Reply) :
    Sound (getLogpages first second told reply) ↔ first.Fails ∨ told.numrec.toNat ≤ 16382 ∨
      (2 ^ 31 ≤ logSize told.numrec ∧ second.errno ≠ 0) ∨ (logSize told.numrec < 2 ^ 31 ∧ (second.Fails ∨ told ≠ reply)) := by
  rcases @sendGetLogPage_of_memalign first 16 (by decide) with ⟨hfails, hret⟩ | ⟨hfails, hret⟩
  · rw [getLogpages, if_pos hret]
    exact iff_of_true sound_rejected (.inl hfails)
  · rw [getLogpages, hret, if_neg (not_not_intro rfl)]
    by_cases hzero : told.numrec = 0
    · rw [if_pos hzero, hzero]
      exact iff_of_true ⟨_, rfl, trivial⟩ (.inr (.inl (Nat.zero_le _)))
    · rw [if_neg hzero, fetchEntries_sound_iff second told reply hzero]
      exact ⟨.inr, fun h => h.resolve_left hfails⟩

/-- A server that says it has 4194304 records. -/
theorem not_sound_wrapped : ¬∀ (first second : Steps) (told : Reply), Sound (getLogpages first second told told) := by
  intro h
  have hsound := h ⟨0, 0, 0, 0⟩ ⟨0, 0, 0, 0⟩ ⟨4194304, 0⟩
  have hzero : (4194304 : BitVec 32) ≠ 0 := by decide
  have hfetch : getLogpages ⟨0, 0, 0, 0⟩ ⟨0, 0, 0, 0⟩ ⟨4194304, 0⟩ ⟨4194304, 0⟩ =
      fetchEntries ⟨0, 0, 0, 0⟩ ⟨4194304, 0⟩ ⟨4194304, 0⟩ := by
    simp [getLogpages, sendGetLogPage, show memalignFails (sizeT 16) = false by decide]
  rw [hfetch, fetchEntries_sound_iff _ _ _ hzero] at hsound
  revert hsound
  simp only [Steps.Fails]
  decide

end NvmeDem.LogSizes
