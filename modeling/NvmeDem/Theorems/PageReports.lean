import NvmeDem.Dem.PageReports

/-!
# Whether the log pages fit the buffer of the reply

The text of a page is shorter than the buffer that the reply starts with (`WireSized.length_le`), so one step is enough whenever the
buffer is grown. But the test for that leaves the zero out: pages that end exactly where the buffer ends are not noticed, and the zero is
written behind it. That is the only way for a report to leave the buffer (`reports_fit_iff`).
-/

namespace NvmeDem.PageReports

open Buffer
open Refresh

/-! ## How long the text of a page is -/

theorem length_between {pre post : String} {n : Nat} (h : pre.length + post.length = n) (s : String) :
    (pre ++ s ++ post).length = s.length + n := by
  rw [String.length_append, String.length_append, ← h]
  omega

theorem length_hex4 (n : UInt16) : (hex4 n).length = 4 := by
  rw [hex4, String.length_ofList]
  rfl

theorem length_rdmaTexts (e : LogEntry) :
    ((rdmaTexts e).map String.length).sum =
      (prtypeStr e.prtype).length + (qptypeStr e.qptype).length + (cmsStr e.cms).length + 80 := by
  have hstart : " &nbsp; rdma: ".length = 14 := rfl
  have hprtype : ("prtype=<b>\"" ++ prtypeStr e.prtype ++ "\"</b> ").length = _ + 17 := length_between rfl _
  have hqptype : ("qptype=<b>\"" ++ qptypeStr e.qptype ++ "\"</b> ").length = _ + 17 := length_between rfl _
  have hcms : ("cms=<b>\"" ++ cmsStr e.cms ++ "\"</b> ").length = _ + 14 := length_between rfl _
  have hpkey : ("pkey=<b>0x" ++ hex4 e.pkey ++ "</b>").length = _ + 14 := length_between rfl _
  rw [rdmaTexts, List.map_cons, List.map_cons, List.map_cons, List.map_cons, List.map_cons, hstart, hprtype, hqptype, hcms, hpkey,
    length_hex4]
  simp only [List.map_nil, List.sum_cons, List.sum_nil]
  omega

/-- How much of the text of a page only a page of an RDMA port has. -/
def rdmaLength (e : LogEntry) : Nat := if e.trtype = trtypeRdma then ((rdmaTexts e).map String.length).sum else 0

/-- The text of a page is its fields and 140 bytes around them. -/
theorem length_formatLogpage (e : LogEntry) :
    (formatLogpage e).length =
      e.subnqn.length + (subtypeStr e.subtype).length + (Nat.repr e.portid.toNat).length + (trtypeStr e.trtype).length +
        (adrfamStr e.adrfam).length + e.traddr.length + e.trsvcid.length + (treqStr e.treq).length + rdmaLength e + 140 := by
  have hsubnqn : ("<p>subnqn=<b>\"" ++ e.subnqn ++ "\"</b> ").length = _ + 20 := length_between rfl _
  have hsubtype : ("subtype=<b>\"" ++ subtypeStr e.subtype ++ "\"</b> ").length = _ + 18 := length_between rfl _
  have hportid : ("portid=<b>" ++ Nat.repr e.portid.toNat ++ "</b> ").length = _ + 15 := length_between rfl _
  have htrtype : ("trtype=<b>\"" ++ trtypeStr e.trtype ++ "\"</b> ").length = _ + 17 := length_between rfl _
  have hadrfam : ("adrfam=<b>\"" ++ adrfamStr e.adrfam ++ "\"</b> ").length = _ + 17 := length_between rfl _
  have htraddr : ("traddr=<b>" ++ e.traddr ++ "</b> ").length = _ + 15 := length_between rfl _
  have htrsvcid : ("trsvcid=<b>" ++ e.trsvcid ++ "</b> ").length = _ + 16 := length_between rfl _
  have htreq : ("treq=<b>\"" ++ treqStr e.treq ++ "\"</b><br>").length = _ + 18 := length_between rfl _
  have hend : "</p>".length = 4 := rfl
  have hrdma : ((if e.trtype = trtypeRdma then rdmaTexts e else []).map String.length).sum = rdmaLength e := by
    unfold rdmaLength
    split
    · rfl
    · rfl
  unfold formatLogpage
  simp only [List.length_flatMap, String.length_toList]
  rw [logpageTexts, List.map_append, List.map_append, List.sum_append, List.sum_append, hrdma]
  simp only [List.map_cons, List.map_nil, List.sum_cons, List.sum_nil]
  rw [hsubnqn, hsubtype, hportid, htrtype, hadrfam, htraddr, htrsvcid, htreq, hend]
  omega

/-! ## The names in a page are short -/

theorem length_subtypeStr_le (x : UInt8) : (subtypeStr x).length ≤ 19 := by
  unfold subtypeStr
  split_ifs <;> decide

theorem length_treqStr_le (x : UInt8) : (treqStr x).length ≤ 13 := by
  unfold treqStr
  split_ifs <;> decide

theorem length_trtypeStr_le (x : UInt8) : (trtypeStr x).length ≤ 12 := by
  unfold trtypeStr
  split_ifs <;> decide

theorem length_adrfamStr_le (x : UInt8) : (adrfamStr x).length ≤ 12 := by
  unfold adrfamStr
  split_ifs <;> decide

theorem length_prtypeStr_le (x : UInt8) : (prtypeStr x).length ≤ 13 := by
  unfold prtypeStr
  split_ifs <;> decide

theorem length_qptypeStr_le (x : UInt8) : (qptypeStr x).length ≤ 12 := by
  unfold qptypeStr
  split_ifs <;> decide

theorem length_cmsStr_le (x : UInt8) : (cmsStr x).length ≤ 12 := by
  unfold cmsStr
  split_ifs <;> decide

theorem rdmaLength_le (e : LogEntry) : rdmaLength e ≤ 117 := by
  have hprtype := length_prtypeStr_le e.prtype
  have hqptype := length_qptypeStr_le e.qptype
  have hcms := length_cmsStr_le e.cms
  unfold rdmaLength
  split
  · rw [length_rdmaTexts]
    omega
  · exact Nat.zero_le 117

/-- The texts of an entry fit their fields of the log page. -/
structure WireSized (e : LogEntry) : Prop where
  subnqn : e.subnqn.length ≤ 256
  traddr : e.traddr.length ≤ 256
  trsvcid : e.trsvcid.length ≤ 32

theorem WireSized.length_le {e : LogEntry} (h : WireSized e) : (formatLogpage e).length ≤ maxBodySize := by
  have hsubtype := length_subtypeStr_le e.subtype
  have hportid : (Nat.repr e.portid.toNat).length ≤ 5 :=
    (Nat.length_repr_le_iff (by decide)).mpr (Nat.lt_trans e.portid.toNat_lt (by decide))
  have htrtype := length_trtypeStr_le e.trtype
  have hadrfam := length_adrfamStr_le e.adrfam
  have htreq := length_treqStr_le e.treq
  have hrdma := rdmaLength_le e
  have hsubnqn := h.subnqn
  have htraddr := h.traddr
  have htrsvcid := h.trsvcid
  rw [length_formatLogpage]
  show _ ≤ 1024
  omega

/-! ## Pages behind each other -/

section

variable {memory : Nat → Option (Nat → Char)} {r r' : Growing Char} {es : List LogEntry}

theorem length_mem_format (h : ∀ e ∈ es, WireSized e) : ∀ text ∈ es.map formatLogpage, text.length ≤ maxBodySize := by
  intro text htext
  obtain ⟨e, he, rfl⟩ := List.mem_map.mp htext
  exact (h e he).length_le

/-- Pages that fit the local buffer are appended. -/
theorem writePages_eq (h : ∀ e ∈ es, WireSized e) :
    writePages memory es r = (r.appendAll nul maxBodySize memory (es.map formatLogpage)).mapError Stop.ofHalt := by
  induction es generalizing r with
  | nil => rfl
  | cons e es ih =>
    have hrest : ∀ e ∈ es, WireSized e := fun e he => h e (List.mem_cons_of_mem _ he)
    rw [writePages, writePage, if_pos (h e List.mem_cons_self).length_le, List.map_cons, Growing.appendAll, writeText]
    rcases r.append nul maxBodySize memory (formatLogpage e) with halt | r'
    · rfl
    · exact ih hrest

/-- At some point the texts add up to a whole number of buffers, and there is memory for a buffer of this size. -/
def FillsUp (memory : Nat → Option (Nat → Char)) (texts : List (List Char)) : Prop :=
  ∃ (pre : List (List Char)) (j : Nat), pre <+: texts ∧ total pre = maxBodySize * (j + 1) ∧ ∀ i, i < j → (memory i).isSome = true

theorem exact_newReport_iff {texts : List (List Char)} :
    Growing.Exact maxBodySize memory newReport texts ↔ FillsUp memory texts := by
  unfold Growing.Exact FillsUp
  simp only [newReport, Nat.zero_add, Nat.zero_le, true_implies]

theorem newReport_tight : newReport.Tight maxBodySize := Growing.tight_empty newResp rfl (by decide)

/-- Text is in the buffer of the reply unless it is empty, and then there is room for the line that says so. -/
theorem finish_outOfBounds_iff {x : Except Stop (Growing Char)} (h : ∀ r, x = .ok r → r.Tight maxBodySize) :
    finish x = .error .outOfBounds ↔ x = .error (.fault .outOfBounds) := by
  rcases x with (f | _) | r
  · simp [finish]
  · simp [finish]
  · refine iff_of_false (fun hfinish => ?_) nofun
    have htight : r.Tight maxBodySize := h r rfl
    rw [finish] at hfinish
    split at hfinish
    · split at hfinish
      · rename_i hput
        have hfull : r.block.size ≤ 0 + noValidLogPages.toList.length := put_eq_none_iff.mp hput
        have hlen : noValidLogPages.toList.length = 18 := by
          rw [String.length_toList]
          rfl
        have hsize : r.block.size = 1024 * r.grown + 1024 := htight.size.trans htight.bytes
        omega
      · cases hfinish
    · cases hfinish

theorem appendAll_mapError_iff {texts : List (List Char)} (htexts : ∀ text ∈ texts, text.length ≤ maxBodySize) :
    (newReport.appendAll nul maxBodySize memory texts).mapError Stop.ofHalt = .error (.fault .outOfBounds) ↔
      FillsUp memory texts := by
  rw [← exact_newReport_iff, ← newReport_tight.appendAll_overflow_iff (z := nul) htexts]
  rcases newReport.appendAll nul maxBodySize memory texts with (_ | _) | r
  · simp [Except.mapError, Stop.ofHalt]
  · simp [Except.mapError, Stop.ofHalt]
  · simp [Except.mapError]

theorem tight_of_appendAll_mapError {texts : List (List Char)} (htexts : ∀ text ∈ texts, text.length ≤ maxBodySize)
    (h : (newReport.appendAll nul maxBodySize memory texts).mapError Stop.ofHalt = .ok r) : r.Tight maxBodySize := by
  rcases happend : newReport.appendAll nul maxBodySize memory texts with halt | r'
  · rw [happend] at h
    cases h
  · rw [happend] at h
    obtain rfl : r' = r := Except.ok.inj h
    exact newReport_tight.appendAll_ok htexts happend

end

/-! ## The report of a target -/

/-- The log pages of a target have texts that fit their fields. -/
structure WirePages (t : TargetPages) : Prop where
  attached : ∀ s ∈ t.target.subsysList, ∀ p ∈ s.logpageList, WireSized p.e
  unattached : ∀ p ∈ t.unattachedLogpageList, WireSized p.e

theorem WirePages.validEntries {t : TargetPages} (h : WirePages t) {list : List Subsystem} (hlist : list ⊆ t.target.subsysList) :
    ∀ e ∈ list.flatMap Subsystem.validEntries, WireSized e := by
  intro e he
  obtain ⟨s, hs, he⟩ := List.mem_flatMap.mp he
  obtain ⟨p, hp, rfl⟩ := List.mem_map.mp he
  exact h.attached s (hlist hs) p (List.mem_of_mem_filter hp)

/-- The texts that go behind each other in the report of a target. -/
def pagesTexts (t : TargetPages) : List (List Char) :=
  (t.target.subsysList.flatMap Subsystem.validEntries).map formatLogpage ++
    (if t.unattachedLogpageList.isEmpty then []
    else unattachedHeading.toList :: (t.unattachedLogpageList.map Logpage.e).map formatLogpage)

def targetTexts (targetList : List TargetPages) (name : String) : List (List Char) :=
  match targetList.find? (fun t => t.target.name == name) with
  | none => []
  | some t => pagesTexts t

theorem writeUnattached_eq {memory : Nat → Option (Nat → Char)} {t : TargetPages} (h : WirePages t) (r : Growing Char) :
    writeUnattached memory t r = (r.appendAll nul maxBodySize memory (if t.unattachedLogpageList.isEmpty then []
      else unattachedHeading.toList :: (t.unattachedLogpageList.map Logpage.e).map formatLogpage)).mapError Stop.ofHalt := by
  have hpages : ∀ e ∈ t.unattachedLogpageList.map Logpage.e, WireSized e := by
    intro e he
    obtain ⟨p, hp, rfl⟩ := List.mem_map.mp he
    exact h.unattached p hp
  unfold writeUnattached
  split
  · rfl
  · rw [Growing.appendAll, writeText]
    rcases r.append nul maxBodySize memory unattachedHeading.toList with halt | r'
    · rfl
    · exact writePages_eq hpages

theorem length_mem_pagesTexts {t : TargetPages} (h : WirePages t) : ∀ text ∈ pagesTexts t, text.length ≤ maxBodySize := by
  intro text htext
  rcases List.mem_append.mp htext with htext | htext
  · exact length_mem_format (h.validEntries (List.Subset.refl _)) text htext
  · split at htext
    · cases htext
    · rcases List.mem_cons.mp htext with rfl | htext
      · rw [String.length_toList]
        decide
      · obtain ⟨e, he, rfl⟩ := List.mem_map.mp htext
        obtain ⟨p, hp, rfl⟩ := List.mem_map.mp he
        exact (h.unattached p hp).length_le

theorem targetLogpage_overflow_iff {memory : Nat → Option (Nat → Char)} {targetList : List TargetPages} {name : String}
    (h : ∀ t ∈ targetList, WirePages t) :
    targetLogpage memory targetList name = .error .outOfBounds ↔ FillsUp memory (targetTexts targetList name) := by
  unfold targetLogpage targetTexts
  rcases hfind : targetList.find? (fun t => t.target.name == name) with _ | t
  · rw [hfind, ← exact_newReport_iff]
    exact iff_of_false (by simp) newReport_tight.not_exact_nil
  · have ht : WirePages t := h t (List.mem_of_find?_eq_some hfind)
    have hlengths := length_mem_pagesTexts ht
    have hwrite : (writePages memory (t.target.subsysList.flatMap Subsystem.validEntries) newReport).bind (writeUnattached memory t) =
        (newReport.appendAll nul maxBodySize memory (pagesTexts t)).mapError Stop.ofHalt := by
      rw [writePages_eq (ht.validEntries (List.Subset.refl _)), pagesTexts, Growing.appendAll_append]
      rcases newReport.appendAll nul maxBodySize memory _ with halt | r
      · rfl
      · exact writeUnattached_eq ht r
    rw [hfind]
    show finish _ = _ ↔ _
    rw [hwrite, finish_outOfBounds_iff (fun r hr => tight_of_appendAll_mapError hlengths hr)]
    exact appendAll_mapError_iff hlengths

/-! ## The report for a host -/

/-- The pages that a host sees, up to a target where a link to the host has a group that cannot be read. -/
def seenBefore (lists : Lists) (name : String) : List Target → List LogEntry
  | [] => []
  | target :: rest =>
    match if target.groupMember then indirectSharedGroup lists target name else .ok true with
    | .error _ => []
    | .ok false => seenBefore lists name rest
    | .ok true => seenEntries target name ++ seenBefore lists name rest

/-- When every group can be read these are the log pages that the host is shown. -/
theorem seenBefore_eq {lists : Lists} {name : String} {entries : List LogEntry}
    (h : NvmeDem.hostLogpage lists name = .ok entries) : seenBefore lists name lists.targetList = entries := by
  unfold NvmeDem.hostLogpage at h
  generalize lists.targetList = targets at h
  induction targets generalizing entries with
  | nil => exact Except.ok.inj h
  | cons target rest ih =>
    rw [walkLogPages] at h
    rw [seenBefore]
    rcases hshared : (if target.groupMember then indirectSharedGroup lists target name else .ok true) with f | (_ | _)
    · rw [hshared] at h
      cases h
    · rw [hshared] at h
      obtain ⟨entries', hrest, rfl⟩ := map_eq_ok h
      exact ih hrest
    · rw [hshared] at h
      obtain ⟨entries', hrest, rfl⟩ := map_eq_ok h
      exact congrArg (seenEntries target name ++ ·) (ih hrest)

def hostTexts (lists : Lists) (name : String) : List (List Char) :=
  (seenBefore lists name lists.targetList).map formatLogpage

/-- A link whose group cannot be read is not an access outside an array. -/
theorem sharesGroup_ne_outOfBounds (groups : List Group) (target : Target) (isHost : GroupHostLink → Bool)
    (links : List GroupHostLink) : sharesGroup groups target isHost links ≠ .error .outOfBounds := by
  induction links with
  | nil => exact nofun
  | cons host rest ih =>
    have hgroup : groupTargets groups host.group ≠ .error .outOfBounds := by
      unfold groupTargets
      split
      · simp
      · split <;> simp
    rw [sharesGroup]
    split
    · rcases hread : groupTargets groups host.group with f | targets
      · rw [hread] at hgroup
        intro h
        exact hgroup (congrArg Except.error (Except.error.inj h))
      · show (if target.ptr ∈ targets then _ else _) ≠ _
        split
        · exact nofun
        · exact ih
    · exact ih

theorem writePages_append {memory : Nat → Option (Nat → Char)} (es es' : List LogEntry) (r : Growing Char) :
    writePages memory (es ++ es') r = (writePages memory es r).bind (writePages memory es') := by
  induction es generalizing r with
  | nil => rfl
  | cons e es ih =>
    rw [List.cons_append, writePages, writePages]
    rcases writePage memory e r with stop | r'
    · rfl
    · exact ih r'

/-- The loop goes wrong when the writing of these pages does; the buffer is as they leave it. -/
theorem hostPages_cases {memory : Nat → Option (Nat → Char)} {lists : Lists} {name : String} (targets : List Target)
    (r : Growing Char) :
    (hostPages memory lists name targets r = .error (.fault .outOfBounds) ↔
      writePages memory (seenBefore lists name targets) r = .error (.fault .outOfBounds)) ∧
    ∀ r', hostPages memory lists name targets r = .ok r' → writePages memory (seenBefore lists name targets) r = .ok r' := by
  induction targets generalizing r with
  | nil => exact ⟨Iff.rfl, fun r' h => h⟩
  | cons target rest ih =>
    rw [hostPages, seenBefore]
    rcases hshared : (if target.groupMember then indirectSharedGroup lists target name else .ok true) with f | (_ | _)
    · have hf : f ≠ .outOfBounds := by
        rintro rfl
        split at hshared
        · exact sharesGroup_ne_outOfBounds _ _ _ _ hshared
        · cases hshared
      refine ⟨iff_of_false (fun h => hf ?_) nofun, nofun⟩
      injection h with h
      injection h
    · exact ih r
    · show ((writePages memory (seenEntries target name) r).bind _ = _ ↔ _) ∧ _
      rw [writePages_append]
      rcases writePages memory (seenEntries target name) r with stop | r'
      · exact ⟨Iff.rfl, nofun⟩
      · exact ih r'

theorem WirePages.seenBefore {lists : Lists} (h : ∀ t ∈ lists.targetList, WirePages ⟨t, []⟩) (name : String) :
    ∀ e ∈ seenBefore lists name lists.targetList, WireSized e := by
  generalize lists.targetList = targets at h
  induction targets with
  | nil => exact fun e he => absurd he List.not_mem_nil
  | cons target rest ih =>
    have hrest := ih (fun t ht => h t (List.mem_cons_of_mem _ ht))
    rw [PageReports.seenBefore]
    split
    · exact fun e he => absurd he List.not_mem_nil
    · exact hrest
    · intro e he
      rcases List.mem_append.mp he with he | he
      · exact (h target List.mem_cons_self).validEntries (List.filter_subset_self _) e he
      · exact hrest e he

theorem hostLogpage_overflow_iff {memory : Nat → Option (Nat → Char)} {lists : Lists} {name : String}
    (h : ∀ t ∈ lists.targetList, WirePages ⟨t, []⟩) :
    hostLogpage memory lists name = .error .outOfBounds ↔ FillsUp memory (hostTexts lists name) := by
  have hwire := WirePages.seenBefore h name
  have hlengths := length_mem_format hwire
  obtain ⟨hoverflow, hok⟩ := @hostPages_cases memory lists name lists.targetList newReport
  have htight : ∀ r, hostPages memory lists name lists.targetList newReport = .ok r → r.Tight maxBodySize := by
    intro r hr
    have hpages := hok r hr
    rw [writePages_eq hwire] at hpages
    exact tight_of_appendAll_mapError hlengths hpages
  unfold hostLogpage hostTexts
  rw [finish_outOfBounds_iff htight, hoverflow, writePages_eq hwire]
  exact appendAll_mapError_iff hlengths

/-! ## A report that does not fit -/

def fullNqn : String := "nqn.2019-05.test:storage-rack-07-shelf-2-of-the-first-row-volume-1"

theorem length_fullNqn : fullNqn.length = 66 := by decide

/-- The page of a port, with a text of 256 bytes. -/
def fullPage (trsvcid : String) : Logpage :=
  { portid := 1
    valid := true
    e :=
      { trtype := 3, adrfam := 1, subtype := 2, portid := 1, traddr := "192.168.1.1", trsvcid := trsvcid
        subnqn := fullNqn } }

/-- A target with a subsystem on four ports. -/
def fullTarget : TargetPages :=
  { target :=
      { ptr := 1
        name := "t"
        subsysList :=
          [{ nqn := fullNqn, access := 1
             logpageList := ["4420", "4421", "4422", "4423"].map fullPage }] } }

theorem length_fullPage {trsvcid : String} (h : trsvcid.length = 4) : (formatLogpage (fullPage trsvcid).e).length = 256 := by
  have hsubnqn : (fullPage trsvcid).e.subnqn.length = 66 := length_fullNqn
  have hsubtype : (subtypeStr 2).length = 14 := by decide
  have hportid : (Nat.repr (1 : UInt16).toNat).length = 1 := by decide
  have htrtype : (trtypeStr 3).length = 3 := by decide
  have hadrfam : (adrfamStr 1).length = 4 := by decide
  have htraddr : "192.168.1.1".length = 11 := by decide
  have htrsvcid : (fullPage trsvcid).e.trsvcid.length = 4 := h
  have htreq : (treqStr 0).length = 13 := by decide
  have htype : ¬(3 : UInt8) = trtypeRdma := by decide
  have hrdma : rdmaLength (fullPage trsvcid).e = 0 := if_neg htype
  rw [length_formatLogpage, hsubnqn, htrsvcid, hrdma]
  show 66 + (subtypeStr 2).length + (Nat.repr (1 : UInt16).toNat).length + (trtypeStr 3).length + (adrfamStr 1).length +
    "192.168.1.1".length + 4 + (treqStr 0).length + 0 + 140 = 256
  rw [hsubtype, hportid, htrtype, hadrfam, htraddr, htreq]

theorem fullPage_wire {trsvcid : String} (h : trsvcid.length = 4) : WireSized (fullPage trsvcid).e := by
  have htraddr : "192.168.1.1".length ≤ 256 := by decide
  exact ⟨Nat.le_trans (Nat.le_of_eq length_fullNqn) (by decide), htraddr, Nat.le_trans (Nat.le_of_eq h) (by decide)⟩

theorem fullTarget_wire : ∀ t ∈ [fullTarget], WirePages t := by
  intro t ht
  obtain rfl := List.mem_singleton.mp ht
  refine ⟨?_, nofun⟩
  intro s hs p hp
  obtain rfl := List.mem_singleton.mp hs
  obtain ⟨trsvcid, hmem, rfl⟩ := List.mem_map.mp hp
  have hlen : ∀ x ∈ ["4420", "4421", "4422", "4423"], x.length = 4 := by decide
  exact fullPage_wire (hlen trsvcid hmem)

/-- Four pages end where the buffer ends, and the zero goes behind it. -/
theorem fullTarget_overflow : targetLogpage (fun _ => some (fun _ => nul)) [fullTarget] "t" = .error .outOfBounds := by
  refine (targetLogpage_overflow_iff fullTarget_wire).mpr ⟨targetTexts [fullTarget] "t", 0, List.prefix_rfl, ?_, nofun⟩
  have htexts : targetTexts [fullTarget] "t" =
      ["4420", "4421", "4422", "4423"].map (fun trsvcid => formatLogpage (fullPage trsvcid).e) := rfl
  rw [htexts]
  simp only [List.map_cons, List.map_nil, total_cons, total_nil]
  rw [length_fullPage rfl, length_fullPage rfl, length_fullPage rfl, length_fullPage rfl]
  rfl

/-! ## When the reports fit -/

/-- The reports on log pages stay in the buffer of the reply exactly if their texts never fill it up. -/
theorem reports_fit_iff (memory : Nat → Option (Nat → Char)) (targetList : List TargetPages) (lists : Lists) (name : String)
    (htargets : ∀ t ∈ targetList, WirePages t) (hlists : ∀ t ∈ lists.targetList, WirePages ⟨t, []⟩) :
    (targetLogpage memory targetList name ≠ .error .outOfBounds ↔ ¬FillsUp memory (targetTexts targetList name)) ∧
      (hostLogpage memory lists name ≠ .error .outOfBounds ↔ ¬FillsUp memory (hostTexts lists name)) :=
  ⟨not_congr (targetLogpage_overflow_iff htargets), not_congr (hostLogpage_overflow_iff hlists)⟩

theorem reports_fit_iff_fullTarget :
    (targetLogpage (fun _ => none) [fullTarget] "t" ≠ .error .outOfBounds ↔
        ¬FillsUp (fun _ => none) (targetTexts [fullTarget] "t")) ∧
      (hostLogpage (fun _ => none) {} "t" ≠ .error .outOfBounds ↔ ¬FillsUp (fun _ => none) (hostTexts {} "t")) :=
  reports_fit_iff (fun _ => none) [fullTarget] {} "t" fullTarget_wire (fun _ ht => absurd ht List.not_mem_nil)

end NvmeDem.PageReports
