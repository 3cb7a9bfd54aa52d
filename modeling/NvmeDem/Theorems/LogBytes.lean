import NvmeDem.Lemmas.LogBytes

/-!
# What a log page reply discloses

A reply is made of the pages that the host may see and of nothing else that the daemon knows; but a piece of fresh memory is written
to the host, and of it only the first sixteen bytes and the entries are set. A request of no more than sixteen bytes is answered
with bytes that the visible pages decide (`noninterference_iff`). Every longer one is answered with what was in the memory before,
in `recfmt` and the reserved part of the header at least, whatever the pages are (`noninterference_stale`).

The pages are copied into that memory as many as there are now, whatever the host has asked for: they stay inside it exactly if the
host has asked for a header and an entry for each (`writes_inside_iff`).
-/

namespace NvmeDem.PseudoTarget

/-- Two times the transport and the allocator answer alike, but for what is in the memory. -/
structure Answers.Alike (ans ans' : Answers) : Prop where
  malloc : ans.malloc.isSome = ans'.malloc.isSome
  allocKey : ans.allocKey = ans'.allocKey
  rmaWrite : ans.rmaWrite = ans'.rmaWrite

/-- The bytes that go to the host, or come from it, with a command. -/
def transferred (lists : Lists) (cmd : NvmeCommand) (ans : Answers) (host : HostConn) (reqs : List EventRequest) :
    Except Fault (List Transfer) :=
  (dispatch lists cmd ans host reqs).map Handled.transfers

/-- In two states of the daemon requests of one length are answered with the same bytes, whatever the memory holds. -/
def SameReply (lists lists' : Lists) (nqn : String) (len : BitVec 24) : Prop :=
  ∀ (cmd cmd' : NvmeCommand) (ans ans' : Answers) (host host' : HostConn) (reqs reqs' : List EventRequest),
    cmd.GetsLogPage len → cmd'.GetsLogPage len → host.nqn = nqn → host'.nqn = nqn → ans.Alike ans' →
      transferred lists cmd ans host reqs = transferred lists' cmd' ans' host' reqs'

/-! ## The bytes of a reply -/

section

variable {lists : Lists} {cmd : NvmeCommand} {ans : Answers} {host : HostConn} {reqs : List EventRequest}
  {entries : List LogEntry} {len : BitVec 24} {log : Mem}

/-- The reply to a request for the count. -/
theorem transferred_count (h : cmd.GetsLogPage len) (hlen : len.toNat = 16)
    (hsee : NvmeDem.handleGetLogPages lists host.nqn = .ok entries) :
    transferred lists cmd ans host reqs = .ok [.write ((writeHdr ans.data entries.length).read 0 len.toNat)] := by
  unfold transferred
  rw [dispatch_getLogPage h, if_pos hlen, handleGetLogPageCount, handleGetLogPageCount_eq, hsee, h.length]
  rfl

/-- The reply to any other request: fresh memory with the header and the entries in it. -/
theorem transferred_pages (h : cmd.GetsLogPage len) (hlen : len.toNat ≠ 16) (hlog : ans.malloc = some log)
    (hkey : ans.allocKey = true) (hsee : NvmeDem.handleGetLogPages lists host.nqn = .ok entries) :
    transferred lists cmd ans host reqs =
      .ok [.write ((writeHdr (copyEntries entries sizeofRspPageHdr log) entries.length).read 0 len.toNat)] := by
  unfold transferred
  rw [dispatch_getLogPage h, if_neg hlen]
  simp only [handleGetLogPages, hlog, hkey, hsee, h.length]
  rfl

/-- Without memory or a key for it nothing is transferred. -/
theorem transferred_refused (h : cmd.GetsLogPage len) (hlen : len.toNat ≠ 16)
    (hno : ans.malloc = none ∨ ans.allocKey = false) : transferred lists cmd ans host reqs = .ok [] := by
  unfold transferred
  rw [dispatch_getLogPage h, if_neg hlen, handleGetLogPages]
  cases hlog : ans.malloc with
  | none => rfl
  | some log =>
    rcases hno with hno | hno
    · rw [hlog] at hno
      cases hno
    · simp only [hno]
      rfl

end

/-! ## Noninterference -/

section

variable {lists lists' : Lists} {nqn : String} {entries : List LogEntry} {len : BitVec 24}

theorem sameReply_of_le (h : NvmeDem.handleGetLogPages lists nqn = .ok entries)
    (h' : NvmeDem.handleGetLogPages lists' nqn = .ok entries) (hlen : len.toNat ≤ 16) : SameReply lists lists' nqn len := by
  intro cmd cmd' ans ans' host host' reqs reqs' hcmd hcmd' hhost hhost' halike
  rw [← hhost] at h
  rw [← hhost'] at h'
  by_cases h16 : len.toNat = 16
  · rw [transferred_count hcmd h16 h, transferred_count hcmd' h16 h', read_writeHdr_le hlen, read_writeHdr_le hlen]
  · cases hlog : ans.malloc with
    | none =>
      have hlog' : ans'.malloc = none := by
        have := halike.malloc
        rw [hlog] at this
        exact Option.not_isSome_iff_eq_none.mp (by rw [← this]; decide)
      rw [transferred_refused hcmd h16 (Or.inl hlog), transferred_refused hcmd' h16 (Or.inl hlog')]
    | some log =>
      obtain ⟨log', hlog'⟩ : ∃ log', ans'.malloc = some log' := by
        have := halike.malloc
        rw [hlog] at this
        exact Option.isSome_iff_exists.mp this.symm
      cases hkey : ans.allocKey with
      | false =>
        have hkey' : ans'.allocKey = false := halike.allocKey ▸ hkey
        rw [transferred_refused hcmd h16 (Or.inr hkey), transferred_refused hcmd' h16 (Or.inr hkey')]
      | true =>
        have hkey' : ans'.allocKey = true := halike.allocKey ▸ hkey
        rw [transferred_pages hcmd h16 hlog hkey h, transferred_pages hcmd' h16 hlog' hkey' h', read_writeHdr_le hlen,
          read_writeHdr_le hlen]

/-- Everything succeeds, and the memory holds one byte everywhere. -/
def Answers.filled (b : UInt8) : Answers :=
  { rmaRead := none, rmaWrite := true, malloc := some (.filled b), allocKey := true, data := .filled b }

/-- The first byte behind `numrec` is what was in the memory. -/
theorem byte_of_reply (log : Mem) (entries : List LogEntry) :
    writeHdr (copyEntries entries sizeofRspPageHdr log) entries.length 16 = log 16 := by
  rw [writeHdr_after (Nat.le_refl 16), copyEntries_before _ (by decide)]

theorem not_sameReply_of_lt (h : NvmeDem.handleGetLogPages lists nqn = .ok entries)
    (h' : NvmeDem.handleGetLogPages lists' nqn = .ok entries) (hlen : 16 < len.toNat) : ¬SameReply lists lists' nqn len := by
  intro hsame
  have h16 : len.toNat ≠ 16 := Nat.ne_of_gt hlen
  let cmd : NvmeCommand := { opcode := nvmeAdminGetLogPage, length := len }
  let host : HostConn := { ep := 1, nqn := nqn, kato := 0, countdown := 0 }
  have hcmd : cmd.GetsLogPage len := ⟨rfl, rfl⟩
  have heq := hsame cmd cmd (.filled 0) (.filled 1) host host [] [] hcmd hcmd rfl rfl ⟨rfl, rfl, rfl⟩
  rw [transferred_pages hcmd h16 rfl rfl h, transferred_pages hcmd h16 rfl rfl h'] at heq
  simp only [Except.ok.injEq, List.cons.injEq, Transfer.write.injEq, and_true] at heq
  have hbyte := Mem.eq_of_read heq hlen
  rw [Nat.zero_add, byte_of_reply, byte_of_reply] at hbyte
  exact absurd hbyte (by decide)

end

/-! ## The buffer -/

/-- What the handler makes of the memory that it has allocated. -/
def replyMem (lists : Lists) (nqn : String) (log : Mem) : Except Fault Mem :=
  (NvmeDem.handleGetLogPages lists nqn).map (fun entries =>
    writeHdr (copyEntries entries sizeofRspPageHdr log) entries.length)

theorem handleGetLogPages_replyMem (lists : Lists) (cmd : NvmeCommand) (ans : Answers) (host : HostConn)
    (reqs : List EventRequest) (log : Mem) (hlog : ans.malloc = some log) (hkey : ans.allocKey = true) :
    handleGetLogPages lists cmd ans host reqs =
      (replyMem lists host.nqn log).map (fun m => rmaWrite ans host reqs (m.read 0 cmd.length.toNat)) := by
  unfold handleGetLogPages replyMem
  simp only [hlog, hkey]
  cases NvmeDem.handleGetLogPages lists host.nqn <;> rfl

/-- Whatever was in the memory, nothing behind the first `len` bytes of it is written to. -/
def WritesInside (lists : Lists) (nqn : String) (len : BitVec 24) : Prop :=
  ∀ log m : Mem, replyMem lists nqn log = .ok m → ∀ i : Nat, len.toNat ≤ i → m i = log i

/-- The reply stays inside its buffer exactly if that has room for the header and for each page that the host may see now; for the
part of the header that is set, when there is no page. -/
theorem writes_inside_iff (lists : Lists) (nqn : String) (len : BitVec 24) :
    WritesInside lists nqn len ↔ ∀ numrec : Nat, NvmeDem.handleGetLogPageCount lists nqn = .ok numrec →
      (if numrec = 0 then 16 else sizeofRspPageHdr + sizeofRspPageEntry * numrec) ≤ len.toNat := by
  unfold WritesInside replyMem
  rw [handleGetLogPageCount_eq]
  cases NvmeDem.handleGetLogPages lists nqn with
  | error f => exact iff_of_true (fun _ _ h => by cases h) (fun _ h => by cases h)
  | ok entries =>
    simp only [Except.map, Except.ok.injEq, forall_eq', List.length_eq_zero_iff]
    -- the memory holds ones, and the last byte that is written is a zero
    have hends : ∀ last, writeHdr (copyEntries entries sizeofRspPageHdr (.filled 1)) entries.length last = 0 →
        (∀ log i, len.toNat ≤ i → writeHdr (copyEntries entries sizeofRspPageHdr log) entries.length i = log i) →
          last < len.toNat := by
      intro last hzero hinside
      by_contra hlen
      rw [hinside (.filled 1) last (Nat.le_of_not_lt hlen)] at hzero
      have hone : (1 : UInt8) = 0 := hzero
      exact absurd hone (by decide)
    by_cases hnil : entries = []
    · rw [if_pos hnil]
      subst hnil
      constructor
      · exact hends 15 (writeHdr_last _)
      · intro hlen log i hi
        exact writeHdr_after (hlen.trans hi)
    · rw [if_neg hnil]
      have hpos := List.length_pos_iff.mpr hnil
      have hlast : 16 ≤ sizeofRspPageHdr + sizeofRspPageEntry * entries.length - 1 := by
        unfold sizeofRspPageHdr sizeofRspPageEntry
        omega
      constructor
      · intro hinside
        have := hends (sizeofRspPageHdr + sizeofRspPageEntry * entries.length - 1)
          (by rw [writeHdr_after hlast, copyEntries_last hpos]) hinside
        omega
      · intro hlen log i hi
        rw [writeHdr_after (by omega), copyEntries_after (hlen.trans hi)]

/-! ## Examples -/

def seenPage : LogEntry := { trtype := 1, adrfam := 1, subnqn := "nqn.s", traddr := "10.0.0.1", trsvcid := "4420" }

def oneSeen : Lists :=
  { targetList :=
      [{ ptr := 1, name := "t"
         subsysList := [{ nqn := "nqn.s", access := 1, logpageList := [{ portid := 1, e := seenPage, valid := true }] }] }] }

/-- Beside what the host may see there is a subsystem of another host. -/
def oneHidden : Lists :=
  { targetList :=
      [{ ptr := 1, name := "t"
         subsysList :=
           [{ nqn := "nqn.s", access := 1, logpageList := [{ portid := 1, e := seenPage, valid := true }] },
            { nqn := "nqn.p", hostList := [{ name := "o", nqn := "nqn.o" }]
              logpageList := [{ portid := 1, e := seenPage, valid := true }] }] }] }

theorem visible_oneSeen : NvmeDem.handleGetLogPages oneSeen "nqn.h" = .ok [seenPage] := by decide

theorem visible_oneHidden : NvmeDem.handleGetLogPages oneHidden "nqn.h" = .ok [seenPage] := by decide

/-- A host that asks for a header alone is answered with the header and a page. -/
theorem writes_behind_header :
    ¬∀ (lists : Lists) (nqn : String) (len : BitVec 24), len.toNat ≠ 16 → WritesInside lists nqn len := by
  intro h
  have hmem : replyMem oneSeen "nqn.h" (.filled 1) =
      .ok (writeHdr (copyEntries [seenPage] sizeofRspPageHdr (.filled 1)) 1) := by
    unfold replyMem
    rw [visible_oneSeen]
    rfl
  have hinside := h oneSeen "nqn.h" 1024 (by decide) (.filled 1) _ hmem 2047 (by decide)
  have hlast : copyEntries [seenPage] sizeofRspPageHdr (.filled 1) 2047 = 0 := copyEntries_last (by decide)
  rw [writeHdr_after (by decide), hlast] at hinside
  have hone : (0 : UInt8) = 1 := hinside
  exact absurd hone (by decide)

end NvmeDem.PseudoTarget
