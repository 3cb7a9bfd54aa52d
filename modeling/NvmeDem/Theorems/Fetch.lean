import NvmeDem.Fabric.Logpages
import NvmeDem.Theorems.LogBytes

/-!
# A fetched log is a snapshot

The generation counter never changes, so that the number of records alone tells the client that the log changed between its two
requests. It is enough: the second reply is one walk of the daemon's lists, and when it has as many records as the client has room
for, the client has all of it (`getLogpages_snapshot`).
-/

namespace NvmeDem.Fabric

open PseudoTarget

/-! ## Trimming -/

/-- A text that ends at its first space. -/
def cut : List UInt8 → List UInt8
  | [] => []
  | b :: bs => if b = 0 then b :: bs else if b = space then 0 :: bs else b :: cut bs

/-- An entry whose three texts end at their first space. -/
def cutEntry (e : List UInt8) : List UInt8 :=
  e.take offTrsvcid ++ cut ((e.drop offTrsvcid).take 32) ++ (e.drop 64).take 192 ++ cut ((e.drop offSubnqn).take 256) ++
    cut ((e.drop offTraddr).take 256) ++ e.drop 768

section

variable {m : Mem} {p n off k i : Nat}

theorem trim_before (h : i < p) : trim m p n i = m i := by
  induction n generalizing p with
  | zero => rfl
  | succ n ih =>
    unfold trim
    split
    · rfl
    · split
      · exact Mem.write_before h
      · exact ih (Nat.lt_succ_of_lt h)

theorem trim_after (h : p + n ≤ i) : trim m p n i = m i := by
  induction n generalizing p with
  | zero => rfl
  | succ n ih =>
    unfold trim
    split
    · rfl
    · split
      · exact Mem.write_after (by rw [List.length_singleton]; omega)
      · exact ih (by omega)

theorem read_succ (m : Mem) (p n : Nat) : m.read p (n + 1) = m p :: m.read (p + 1) n := by
  rw [Nat.add_comm n 1, Mem.read_add]
  rfl

/-- What is read of a text after it was trimmed. -/
theorem read_trim (m : Mem) (p n : Nat) : (trim m p n).read p n = cut (m.read p n) := by
  induction n generalizing p with
  | zero => rfl
  | succ n ih =>
    rw [read_succ m, cut]
    unfold trim
    split
    · exact read_succ m p n
    · split
      · rw [read_succ]
        congr 1
        · exact Mem.write_at (i := 0) (by decide)
        · exact Mem.read_write_after (by rw [List.length_singleton])
      · rw [read_succ, ih, trim_before (Nat.lt_succ_self p)]

theorem read_trim_before (h : off + k ≤ p) : (trim m p n).read off k = m.read off k :=
  Mem.read_congr (fun _ _ => trim_before (by omega))

theorem read_trim_after (h : p + n ≤ off) : (trim m p n).read off k = m.read off k :=
  Mem.read_congr (fun _ _ => trim_after (by omega))

/-- The parts of an entry: the texts, and what is before, between and behind them. -/
theorem read_entry (m : Mem) (log : Nat) :
    m.read log sizeofRspPageEntry =
      m.read log 32 ++ m.read (log + 32) 32 ++ m.read (log + 64) 192 ++ m.read (log + 256) 256 ++ m.read (log + 512) 256 ++
        m.read (log + 768) 256 := by
  have h : sizeofRspPageEntry = 32 + 32 + 192 + 256 + 256 + 256 := rfl
  rw [h, Mem.read_add, Mem.read_add, Mem.read_add, Mem.read_add, Mem.read_add]

theorem cutEntry_read (m : Mem) (log : Nat) :
    cutEntry (m.read log sizeofRspPageEntry) =
      m.read log 32 ++ cut (m.read (log + 32) 32) ++ m.read (log + 64) 192 ++ cut (m.read (log + 256) 256) ++
        cut (m.read (log + 512) 256) ++ m.read (log + 768) 256 := by
  have hpart : ∀ off k : Nat, off + k ≤ sizeofRspPageEntry →
      ((m.read log sizeofRspPageEntry).drop off).take k = m.read (log + off) k := by
    intro off k h
    rw [Mem.drop_read (by omega), Mem.take_read (by omega)]
  unfold cutEntry
  rw [Mem.take_read (by decide), hpart offTrsvcid 32 (by decide), hpart 64 192 (by decide), hpart offSubnqn 256 (by decide),
    hpart offTraddr 256 (by decide), Mem.drop_read (by decide)]
  rfl

theorem read_trimEntry (m : Mem) (log : Nat) :
    (trimEntry m log).read log sizeofRspPageEntry = cutEntry (m.read log sizeofRspPageEntry) := by
  rw [cutEntry_read, read_entry]
  unfold trimEntry offTrsvcid offSubnqn offTraddr
  dsimp only
  congr 1
  · congr 1
    · congr 1
      · congr 1
        · congr 1
          · rw [read_trim_before (by omega), read_trim_before (by omega), read_trim_before (by omega)]
          · rw [read_trim, read_trim_before (by omega), read_trim_before (by omega)]
        · rw [read_trim_after (by omega), read_trim_before (by omega), read_trim_before (by omega)]
      · rw [read_trim_after (by omega), read_trim, read_trim_before (by omega)]
    · rw [read_trim_after (by omega), read_trim_after (by omega), read_trim]
  · rw [read_trim_after (by omega), read_trim_after (by omega), read_trim_after (by omega)]

/-- Only the entry itself is changed. -/
theorem trimEntry_other (h : i < p ∨ p + sizeofRspPageEntry ≤ i) : trimEntry m p i = m i := by
  have hsize : sizeofRspPageEntry = 1024 := rfl
  unfold trimEntry offTrsvcid offSubnqn offTraddr
  rcases h with h | h
  · rw [trim_before (by omega), trim_before (by omega), trim_before (by omega)]
  · rw [trim_after (by omega), trim_after (by omega), trim_after (by omega)]

theorem trimEntries_before (h : i < p) : trimEntries n m p i = m i := by
  induction n generalizing p m with
  | zero => rfl
  | succ n ih => rw [trimEntries, ih (Nat.lt_of_lt_of_le h (Nat.le_add_right _ _)), trimEntry_other (Or.inl h)]

/-- Every entry is trimmed. -/
theorem read_trimEntries (h : i < n) :
    (trimEntries n m p).read (p + sizeofRspPageEntry * i) sizeofRspPageEntry =
      cutEntry (m.read (p + sizeofRspPageEntry * i) sizeofRspPageEntry) := by
  induction n generalizing p m i with
  | zero => cases h
  | succ n ih =>
    cases i with
    | zero =>
      have hfirst : (trimEntries (n + 1) m p).read p sizeofRspPageEntry = (trimEntry m p).read p sizeofRspPageEntry :=
        Mem.read_congr (fun i hi => trimEntries_before (Nat.add_lt_add_left hi p))
      exact hfirst.trans (read_trimEntry m p)
    | succ i =>
      have hoff : p + sizeofRspPageEntry * (i + 1) = p + sizeofRspPageEntry + sizeofRspPageEntry * i := by ring
      have hsame : (trimEntry m p).read (p + sizeofRspPageEntry + sizeofRspPageEntry * i) sizeofRspPageEntry =
          m.read (p + sizeofRspPageEntry + sizeofRspPageEntry * i) sizeofRspPageEntry :=
        Mem.read_congr (fun j _ => trimEntry_other (Or.inr (by omega)))
      rw [hoff, trimEntries, ih (Nat.lt_of_succ_lt_succ h), hsame]

end

/-! ## One request -/

section

variable {x : Exchange} {logSize : Nat} {data : Mem} {entries : List LogEntry}

/-- A completion without status is that of a command that was handled without error. -/
theorem ret_of_status {out : Handled} {commandId : Nat} (h : ((out.resp commandId).status >>> 1).toNat = 0) : out.ret = 0 := by
  by_contra hret
  have hstatus : (out.resp commandId).status = (nvmeScDnr ||| .ofInt 16 out.ret) <<< 1 := if_neg hret
  have hbit : ((out.resp commandId).status >>> 1).getLsbD 14 = true := by
    rw [hstatus]
    simp [nvmeScDnr]
  have hzero : (out.resp commandId).status >>> 1 = 0#16 := BitVec.eq_of_toNat_eq h
  rw [hzero] at hbit
  cases hbit

theorem ret_of_processNvmeRsp {poll : Int} {out : Handled} {commandId : Nat}
    (h : processNvmeRsp poll (out.resp commandId) = 0) : out.ret = 0 := by
  unfold processNvmeRsp at h
  split at h
  · rename_i hpoll
    exact absurd h hpoll
  · exact ret_of_status (Int.ofNat_eq_zero.mp h)

/-- A request that succeeds was handled without error, and its transfers were made. -/
theorem handled_of_sendGetLogPage (h : sendGetLogPage x logSize = .ok (.ok data)) :
    ∃ out, dispatch x.lists (getLogPageCmd logSize) x.ans x.host x.reqs = .ok out ∧ out.ret = 0 ∧
      data = applyTransfers (Mem.filled 0) out.transfers := by
  unfold sendGetLogPage PseudoTarget.handleRequest at h
  split at h
  · cases h
  · split at h
    · cases h
    · split at h
      · cases h
      · cases hout : dispatch x.lists (getLogPageCmd logSize) x.ans x.host x.reqs with
        | error fault =>
          rw [hout] at h
          cases h
        | ok out =>
          rw [hout] at h
          have h : (if processNvmeRsp x.poll (out.resp (getLogPageCmd logSize).commandId) ≠ 0 then
              Except.error (processNvmeRsp x.poll (out.resp (getLogPageCmd logSize).commandId))
            else Except.ok (applyTransfers (Mem.filled 0) out.transfers)) = .ok data := Except.ok.inj h
          by_cases hret : processNvmeRsp x.poll (out.resp (getLogPageCmd logSize).commandId) = 0
          · rw [if_neg (not_not_intro hret)] at h
            cases h
            exact ⟨out, rfl, ret_of_processNvmeRsp hret, rfl⟩
          · rw [if_pos hret] at h
            cases h

/-- The bytes that the client has after a write of a part of other memory. -/
theorem read_received (m : Mem) {len off k : Nat} (h : off + k ≤ len) :
    ((Mem.filled 0).write 0 (m.read 0 len)).read off k = m.read off k := by
  refine Mem.read_congr (fun i hi => ?_)
  have hlt : off + i < (m.read 0 len).length := by rw [Mem.length_read]; omega
  have hw : (Mem.filled 0).write 0 (m.read 0 len) (0 + (off + i)) = (m.read 0 len)[off + i] := Mem.write_at hlt
  rw [Nat.zero_add] at hw
  rw [hw]
  have hget := List.getElem?_eq_getElem hlt
  rw [Mem.getElem?_read (by omega), Nat.zero_add] at hget
  exact (Option.some.inj hget).symm

/-- The low half of the number of records in a header. -/
theorem ofLe_read_numrec (log : Mem) (n : Nat) : ofLe ((writeHdr log n).read 8 4) = n % 2 ^ 32 := by
  have hhalf : (writeHdr log n).read 8 4 = (leBytes 8 n).take 4 := by
    rw [← read_writeHdr_numrec log n, Mem.take_read (by decide)]
  have htake : (leBytes 8 n).take 4 = leBytes 4 n := rfl
  have hpow : 256 ^ 4 = 2 ^ 32 := by decide
  rw [hhalf, htake, ofLe_leBytes, hpow]

theorem getsLogPage_cmd (logSize : Nat) : (getLogPageCmd logSize).GetsLogPage (.ofNat 24 logSize) := ⟨rfl, rfl⟩

/-- The first request: the header has the two numbers, as they are when it is handled. -/
theorem hdr_of_count (h : sendGetLogPage x 16 = .ok (.ok data)) :
    ∃ entries, x.visible = .ok entries ∧ genctr data = 1 ∧ numrec data = entries.length % 2 ^ 32 := by
  obtain ⟨out, hout, -, hdata⟩ := handled_of_sendGetLogPage h
  rw [dispatch_getLogPage (getsLogPage_cmd 16), if_pos (by decide), PseudoTarget.handleGetLogPageCount, handleGetLogPageCount_eq] at hout
  unfold Exchange.visible
  cases hsee : NvmeDem.handleGetLogPages x.lists x.host.nqn with
  | error fault =>
    rw [hsee] at hout
    cases hout
  | ok entries =>
    rw [hsee] at hout
    cases hout
    refine ⟨entries, rfl, ?_, ?_⟩
    · rw [hdata]
      show ofLe (((Mem.filled 0).write 0 ((writeHdr x.ans.data entries.length).read 0 16)).read 0 8) = 1
      rw [read_received _ (by decide), read_writeHdr_genctr, ofLe_leBytes]
      rfl
    · rw [hdata]
      show ofLe (((Mem.filled 0).write 0 ((writeHdr x.ans.data entries.length).read 0 16)).read 8 4) = _
      rw [read_received _ (by decide), ofLe_read_numrec]

/-- The second request: the header, and as many of the entries as there is room for, as they are when it is handled. -/
theorem log_of_pages (hsize : logSize % 2 ^ 24 ≠ 16) (h : sendGetLogPage x logSize = .ok (.ok data)) :
    ∃ (entries : List LogEntry) (fresh : Mem), x.visible = .ok entries ∧
      ∀ off k, off + k ≤ logSize % 2 ^ 24 →
        data.read off k = (writeHdr (copyEntries entries sizeofRspPageHdr fresh) entries.length).read off k := by
  obtain ⟨out, hout, hret, hdata⟩ := handled_of_sendGetLogPage h
  have hlen : (BitVec.ofNat 24 logSize).toNat = logSize % 2 ^ 24 := BitVec.toNat_ofNat ..
  rw [dispatch_getLogPage (getsLogPage_cmd logSize), if_neg (by rw [hlen]; exact hsize), PseudoTarget.handleGetLogPages] at hout
  cases hlog : x.ans.malloc with
  | none =>
    rw [hlog] at hout
    cases hout
    exact absurd hret (show nvmeScInternal ≠ 0 by decide)
  | some fresh =>
    rw [hlog] at hout
    dsimp only at hout
    split at hout
    · cases hout
      exact absurd hret (show nvmeScInternal ≠ 0 by decide)
    · unfold Exchange.visible
      cases hsee : NvmeDem.handleGetLogPages x.lists x.host.nqn with
      | error fault =>
        rw [hsee] at hout
        cases hout
      | ok entries =>
        rw [hsee] at hout
        cases hout
        refine ⟨entries, fresh, rfl, fun off k hk => ?_⟩
        rw [hdata]
        exact read_received _ (hlen ▸ hk)

end

/-! ## Both -/

/-- An entry as it is in the daemon's memory, with its texts cut at their first space. -/
def fetched (e : LogEntry) : List UInt8 := cutEntry (entryBytes e)

/-- The records of a log that has all the entries. -/
theorem records_eq {data fresh : Mem} {entries : List LogEntry} {n len : Nat} (hn : n = entries.length)
    (hlen : sizeofRspPageHdr + sizeofRspPageEntry * n ≤ len)
    (hdata : ∀ off k, off + k ≤ len →
      data.read off k = (writeHdr (copyEntries entries sizeofRspPageHdr fresh) entries.length).read off k) :
    records (trimEntries n data sizeofRspPageHdr) n = entries.map fetched := by
  subst hn
  refine List.ext_getElem (by simp [records]) (fun i hi hi' => ?_)
  have hlt : i < entries.length := by simpa [records] using hi
  simp only [records, List.getElem_map, List.getElem_range]
  have hsize : sizeofRspPageHdr = 1024 ∧ sizeofRspPageEntry = 1024 := ⟨rfl, rfl⟩
  rw [hsize.1, hsize.2] at hlen
  rw [read_trimEntries hlt, hdata _ _ (by rw [hsize.1, hsize.2]; omega)]
  unfold fetched
  -- An entry lies behind the part of the header that is set.
  rw [show (writeHdr (copyEntries entries sizeofRspPageHdr fresh) entries.length).read
      (sizeofRspPageHdr + sizeofRspPageEntry * i) sizeofRspPageEntry = entryBytes entries[i] from
    (Mem.read_congr (fun j _ => writeHdr_after (by rw [hsize.1, hsize.2]; omega))).trans (read_copyEntries hlt)]

/-- The two numbers of the header that came with the entries. -/
theorem numbers_of_log {data fresh : Mem} {entries : List LogEntry} {len : Nat} (hlen : 16 ≤ len)
    (hdata : ∀ off k, off + k ≤ len →
      data.read off k = (writeHdr (copyEntries entries sizeofRspPageHdr fresh) entries.length).read off k) :
    genctr data = 1 ∧ numrec data = entries.length % 2 ^ 32 := by
  unfold genctr numrec
  rw [hdata 0 8 (by omega), hdata 8 4 (by omega), read_writeHdr_genctr, ofLe_leBytes, ofLe_read_numrec]
  exact ⟨rfl, rfl⟩

/-- When both requests succeed and have the same two numbers, the records are returned. -/
theorem getLogpages_of_same {first second : Exchange} {hdr log : Mem} (hfirst : sendGetLogPage first 16 = .ok (.ok hdr))
    (hnum : numrec hdr ≠ 0)
    (hsecond : sendGetLogPage second ((sizeofRspPageHdr + sizeofRspPageEntry * numrec hdr) % 2 ^ 32) = .ok (.ok log))
    (hsame : numrec hdr = numrec log ∧ genctr hdr = genctr log) :
    getLogpages first second = .ok (.ok (records (trimEntries (numrec hdr) log sizeofRspPageHdr) (numrec hdr))) := by
  unfold getLogpages
  rw [hfirst]
  simp only [Except.bind, if_neg hnum, hsecond, Except.map]
  rw [if_neg (fun h => h.elim (fun hne => hne hsame.1) (fun hne => hne hsame.2))]

/-- What `getLogpages` returns is what the host could see: nothing at the first request, or all that it could see at the second. -/
theorem getLogpages_snapshot {first second : Exchange} {recs : List (List UInt8)}
    (hfew : ∀ entries, first.visible = .ok entries → entries.length < 16383)
    (hfew' : ∀ entries, second.visible = .ok entries → entries.length < 16383)
    (h : getLogpages first second = .ok (.ok recs)) :
    (recs = [] → first.visible = .ok []) ∧
      (recs ≠ [] → ∃ entries, second.visible = .ok entries ∧ recs = entries.map fetched) := by
  have hsize : sizeofRspPageHdr = 1024 ∧ sizeofRspPageEntry = 1024 := ⟨rfl, rfl⟩
  unfold getLogpages at h
  cases hfirst : sendGetLogPage first 16 with
  | error fault =>
    rw [hfirst] at h
    cases h
  | ok got =>
    rw [hfirst] at h
    cases got with
    | error ret => cases h
    | ok hdr =>
      obtain ⟨seen, hseen, hgen, hnum⟩ := hdr_of_count hfirst
      have hlt := hfew seen hseen
      have hnum : numrec hdr = seen.length := hnum.trans (Nat.mod_eq_of_lt (by omega))
      by_cases hzero : numrec hdr = 0
      · have hnil : seen = [] := List.eq_nil_of_length_eq_zero (hnum ▸ hzero)
        simp only [Except.bind, if_pos hzero, Except.ok.injEq] at h
        refine ⟨fun _ => hnil ▸ hseen, fun hne => absurd h.symm hne⟩
      · simp only [Except.bind, if_neg hzero] at h
        -- The size fits the three bytes of the length, and is not that of the first request.
        have hmod : (sizeofRspPageHdr + sizeofRspPageEntry * numrec hdr) % 2 ^ 32 =
            sizeofRspPageHdr + sizeofRspPageEntry * numrec hdr := Nat.mod_eq_of_lt (by rw [hsize.1, hsize.2, hnum]; omega)
        have hmod' : (sizeofRspPageHdr + sizeofRspPageEntry * numrec hdr) % 2 ^ 24 =
            sizeofRspPageHdr + sizeofRspPageEntry * numrec hdr := Nat.mod_eq_of_lt (by rw [hsize.1, hsize.2, hnum]; omega)
        rw [hmod] at h
        cases hsecond : sendGetLogPage second (sizeofRspPageHdr + sizeofRspPageEntry * numrec hdr) with
        | error fault =>
          rw [hsecond] at h
          cases h
        | ok got =>
          rw [hsecond] at h
          cases got with
          | error ret => cases h
          | ok log =>
            simp only [Except.map, Except.ok.injEq] at h
            split at h
            · cases h
            · rename_i hsame
              cases h
              obtain ⟨entries, fresh, hvisible, hdata⟩ :=
                log_of_pages (by rw [hmod', hsize.1, hsize.2]; omega) hsecond
              rw [hmod'] at hdata
              have hlt' := hfew' entries hvisible
              have hnum' : numrec log = entries.length :=
                (numbers_of_log (by rw [hsize.1]; omega) hdata).2.trans (Nat.mod_eq_of_lt (by omega))
              have hlength : numrec hdr = entries.length := by
                rw [← hnum']
                exact not_not.mp (fun hne => hsame (Or.inl hne))
              have hrecs := records_eq hlength (Nat.le_refl _) hdata
              refine ⟨fun hnil => ?_, fun _ => ⟨entries, hvisible, hrecs⟩⟩
              -- There are as many records as the count said, and it was not zero.
              have hlen := congrArg List.length hnil
              rw [hrecs, List.length_map, ← hlength] at hlen
              exact absurd hlen hzero

/-! ## When nothing goes wrong -/

/-- A request on which all goes well. -/
structure Exchange.Smooth (x : Exchange) : Prop where
  memalign : x.memalign = 0
  allocKey : x.allocKey = 0
  sendMsg : x.sendMsg = 0
  poll : x.poll = 0
  fresh : x.ans.malloc.isSome
  key : x.ans.allocKey = true
  rmaWrite : x.ans.rmaWrite = true

section

variable {x : Exchange} {logSize : Nat} {entries : List LogEntry}

theorem sendGetLogPage_of_dispatch (h : x.Smooth) {out : Handled}
    (hout : dispatch x.lists (getLogPageCmd logSize) x.ans x.host x.reqs = .ok out) (hret : out.ret = 0) :
    sendGetLogPage x logSize = .ok (.ok (applyTransfers (Mem.filled 0) out.transfers)) := by
  have hstatus : processNvmeRsp x.poll (out.resp (getLogPageCmd logSize).commandId) = 0 := by
    simp [processNvmeRsp, h.poll, Handled.resp, hret]
  unfold sendGetLogPage PseudoTarget.handleRequest
  rw [if_neg (not_not_intro h.memalign), if_neg (not_not_intro h.allocKey), if_neg (not_not_intro h.sendMsg), hout]
  exact congrArg Except.ok (if_neg (not_not_intro hstatus))

theorem ret_rmaWrite (h : x.Smooth) (bytes : List UInt8) : (rmaWrite x.ans x.host x.reqs bytes).ret = 0 := if_pos h.rmaWrite

theorem count_of_smooth (h : x.Smooth) (hsee : x.visible = .ok entries) :
    ∃ data, sendGetLogPage x 16 = .ok (.ok data) := by
  have hout : dispatch x.lists (getLogPageCmd 16) x.ans x.host x.reqs = .ok (rmaWrite x.ans x.host x.reqs
      ((writeHdr x.ans.data entries.length).read 0 (getLogPageCmd 16).length.toNat)) := by
    rw [dispatch_getLogPage (getsLogPage_cmd 16), if_pos (by decide), PseudoTarget.handleGetLogPageCount,
      handleGetLogPageCount_eq, show NvmeDem.handleGetLogPages x.lists x.host.nqn = _ from hsee]
    rfl
  exact ⟨_, sendGetLogPage_of_dispatch h hout (ret_rmaWrite h _)⟩

theorem pages_of_smooth (h : x.Smooth) (hsize : logSize % 2 ^ 24 ≠ 16) (hsee : x.visible = .ok entries) :
    ∃ data, sendGetLogPage x logSize = .ok (.ok data) := by
  obtain ⟨fresh, hfresh⟩ := Option.isSome_iff_exists.mp h.fresh
  have hlen : (BitVec.ofNat 24 logSize).toNat = logSize % 2 ^ 24 := BitVec.toNat_ofNat ..
  have hout : dispatch x.lists (getLogPageCmd logSize) x.ans x.host x.reqs = .ok (rmaWrite x.ans x.host x.reqs
      ((writeHdr (copyEntries entries sizeofRspPageHdr fresh) entries.length).read 0 (getLogPageCmd logSize).length.toNat)) := by
    rw [dispatch_getLogPage (getsLogPage_cmd logSize), if_neg (by rw [hlen]; exact hsize), PseudoTarget.handleGetLogPages, hfresh,
      h.key, show NvmeDem.handleGetLogPages x.lists x.host.nqn = _ from hsee]
    rfl
  exact ⟨_, sendGetLogPage_of_dispatch h hout (ret_rmaWrite h _)⟩

end

/-- Two requests that meet with nothing, at times at which the host may see equally many entries, return a log. -/
theorem getLogpages_returns {first second : Exchange} {seen entries : List LogEntry} (hfirst : first.Smooth)
    (hsecond : second.Smooth) (hseen : first.visible = .ok seen) (hvisible : second.visible = .ok entries)
    (hlength : seen.length = entries.length) (hpos : 0 < seen.length) (hfew : seen.length < 16383) :
    ∃ recs, getLogpages first second = .ok (.ok recs) ∧ recs ≠ [] := by
  have hsize : sizeofRspPageHdr = 1024 ∧ sizeofRspPageEntry = 1024 := ⟨rfl, rfl⟩
  obtain ⟨hdr, hhdr⟩ := count_of_smooth hfirst hseen
  obtain ⟨seen', hseen', hgen, hnum⟩ := hdr_of_count hhdr
  rw [hseen] at hseen'
  cases hseen'
  have hnum : numrec hdr = seen.length := hnum.trans (Nat.mod_eq_of_lt (by omega))
  have hmod : (sizeofRspPageHdr + sizeofRspPageEntry * numrec hdr) % 2 ^ 24 =
      sizeofRspPageHdr + sizeofRspPageEntry * numrec hdr := Nat.mod_eq_of_lt (by rw [hsize.1, hsize.2, hnum]; omega)
  have hmod' : (sizeofRspPageHdr + sizeofRspPageEntry * numrec hdr) % 2 ^ 32 =
      sizeofRspPageHdr + sizeofRspPageEntry * numrec hdr := Nat.mod_eq_of_lt (by rw [hsize.1, hsize.2, hnum]; omega)
  have hne : (sizeofRspPageHdr + sizeofRspPageEntry * numrec hdr) % 2 ^ 24 ≠ 16 := by rw [hmod, hsize.1]; omega
  obtain ⟨log, hlog⟩ := pages_of_smooth hsecond hne hvisible
  obtain ⟨entries', fresh, hvisible', hdata⟩ := log_of_pages hne hlog
  rw [hvisible] at hvisible'
  cases hvisible'
  obtain ⟨hgen', hnum'⟩ := numbers_of_log (by rw [hmod, hsize.1]; omega) hdata
  have hnum' : numrec log = seen.length := by rw [hnum', hlength]; exact Nat.mod_eq_of_lt (by omega)
  refine ⟨_, getLogpages_of_same hhdr (by omega) (by rw [hmod']; exact hlog) ⟨hnum.trans hnum'.symm, hgen.trans hgen'.symm⟩, ?_⟩
  intro hnil
  have hlen := congrArg List.length hnil
  simp only [records, List.length_map, List.length_range, List.length_nil] at hlen
  omega

/-! ## Examples -/

/-- A request on which all goes well, while a host may see one page. -/
def oneSeenRequest : Exchange :=
  { memalign := 0, allocKey := 0, sendMsg := 0, poll := 0, lists := oneSeen
    host := { ep := 1, nqn := "nqn.h", kato := 0, countdown := 0 }, reqs := [], ans := .filled 7 }

theorem visible_oneSeenRequest : oneSeenRequest.visible = .ok [seenPage] := by decide

theorem getLogpages_snapshot_oneSeen :
    ∃ recs, getLogpages oneSeenRequest oneSeenRequest = .ok (.ok recs) ∧ recs = [fetched seenPage] := by
  have hfew : ∀ entries, oneSeenRequest.visible = .ok entries → entries.length < 16383 := by
    intro entries h
    rw [visible_oneSeenRequest] at h
    cases h
    decide
  have hsmooth : oneSeenRequest.Smooth := ⟨rfl, rfl, rfl, rfl, rfl, rfl, rfl⟩
  obtain ⟨recs, hget, hne⟩ := getLogpages_returns hsmooth hsmooth visible_oneSeenRequest visible_oneSeenRequest rfl
    (by decide) (by decide)
  obtain ⟨entries, hvisible, hrecs⟩ := (getLogpages_snapshot hfew hfew hget).2 hne
  rw [visible_oneSeenRequest] at hvisible
  cases hvisible
  exact ⟨recs, hget, hrecs⟩

end NvmeDem.Fabric
