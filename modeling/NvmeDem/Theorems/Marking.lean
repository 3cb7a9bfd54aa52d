import NvmeDem.Ac.Connect
import NvmeDem.Theorems.Caches

/-!
# What the directory tells the connecting client

A directory that can be read comes to the controllers that it shows, and each of them to a mark for the first page that it is for.
Without the flags, what the client does with its pages is what `Ac/Updates` has.
-/

namespace NvmeDem

namespace Client

/-! ## The files of a controller -/

/-- The name of a controller's subsystem fits its buffer. -/
def Named (ctrl : KernelCtrl) : Prop := '\n' ∉ ctrl.subnqn.toList ∧ ctrl.subnqn.length ≤ maxNqnSize

/-- The other files of a controller fit theirs. The one for an address holds 40 characters, of which 16 name the parts. -/
structure Legible (ctrl : KernelCtrl) : Prop where
  trtype : '\n' ∉ ctrl.trtype.toList ∧ ctrl.trtype.length ≤ maxNqnSize
  traddr : ',' ∉ ctrl.traddr.toList ∧ '\n' ∉ ctrl.traddr.toList
  trsvcid : '\n' ∉ ctrl.trsvcid.toList
  fits : ctrl.traddr.length + ctrl.trsvcid.length + 16 ≤ configAddressSize

theorem readLine_line {size : Nat} {s : String} (buf : String) (hline : '\n' ∉ s.toList) (hlen : s.length ≤ size) :
    readLine size (s ++ "\n") buf = s := by
  have hne : s ++ "\n" ≠ "" := fun h => by
    have hlength := congrArg String.length h
    simp at hlength
  have htake : (cCut size (s ++ "\n")).toList = s.toList ++ ['\n'].take (size - s.length) := by
    rw [cCut, String.toList_ofList, String.toList_append, List.take_append, String.length_toList,
      List.take_of_length_le (by rwa [String.length_toList])]
    rfl
  have hall : ∀ c ∈ s.toList, decide (c ≠ '\n') = true := fun c hc => decide_eq_true (fun heq => hline (heq ▸ hc))
  have hrest : (['\n'].take (size - s.length)).takeWhile (fun c => decide (c ≠ '\n')) = [] := by
    cases size - s.length <;> rfl
  rw [readLine, if_neg hne, htake, List.takeWhile_append_of_pos hall, hrest, List.append_nil, String.ofList_toList]

theorem afterFirst_append {c : Char} {xs ys : List Char} (h : c ∉ xs) : afterFirst c (xs ++ c :: ys) = some ys := by
  have hall : ∀ d ∈ xs, decide (d ≠ c) = true := fun d hd => decide_eq_true (fun heq => h (heq ▸ hd))
  rw [afterFirst, List.dropWhile_append_of_pos hall, List.dropWhile_cons_of_neg (by simp)]
  rfl

theorem takeWhile_append_cons {c : Char} {xs ys : List Char} (h : c ∉ xs) :
    (xs ++ c :: ys).takeWhile (fun d => decide (d ≠ c)) = xs := by
  have hall : ∀ d ∈ xs, decide (d ≠ c) = true := fun d hd => decide_eq_true (fun heq => h (heq ▸ hd))
  rw [List.takeWhile_append_of_pos hall, List.takeWhile_cons_of_neg (by simp), List.append_nil]

/-- The address of a controller is taken apart again. -/
theorem readAddress_files {buf : Buffers} {traddr trsvcid : String} (hcomma : ',' ∉ traddr.toList)
    (haddr : buf.address = "traddr=" ++ traddr ++ ",trsvcid=" ++ trsvcid) :
    (readAddress buf).1 = .ctrl buf.val traddr (some trsvcid) := by
  have hfirst : afterFirst '=' buf.address.toList = some (traddr.toList ++ ',' :: ("trsvcid=".toList ++ trsvcid.toList)) := by
    have hsplit : buf.address.toList =
        "traddr".toList ++ '=' :: (traddr.toList ++ ',' :: ("trsvcid=".toList ++ trsvcid.toList)) := by
      rw [haddr]
      simp
    rw [hsplit]
    exact afterFirst_append (by decide)
  have hport : afterFirst '=' ("trsvcid=".toList ++ trsvcid.toList) = some trsvcid.toList := by
    show afterFirst '=' ("trsvcid".toList ++ '=' :: trsvcid.toList) = _
    exact afterFirst_append (by decide)
  unfold readAddress
  simp only [hfirst, afterFirst_append hcomma, hport, takeWhile_append_cons hcomma, Option.map_some, String.ofList_toList]

/-- What the client makes of a controller's files when it looks for a subsystem. -/
theorem readEntry_files {nqn name : String} {ctrl : KernelCtrl} (buf : Buffers) (hname : cCut 4 name = "nvme")
    (hnamed : Named ctrl) (hleg : ctrl.subnqn = nqn → Legible ctrl) :
    (readEntry nqn (files ctrl name) buf).1 =
      if ctrl.subnqn = nqn then .ctrl ctrl.trtype ctrl.traddr (some ctrl.trsvcid) else .nothing := by
  have hval : readLine maxNqnSize (ctrl.subnqn ++ "\n") buf.val = ctrl.subnqn := readLine_line _ hnamed.1 hnamed.2
  unfold readEntry files
  simp only [if_pos hname, hval]
  by_cases hnqn : ctrl.subnqn = nqn
  · have hl := hleg hnqn
    have hline : '\n' ∉ ("traddr=" ++ ctrl.traddr ++ ",trsvcid=" ++ ctrl.trsvcid).toList := by
      simp [hl.traddr.2, hl.trsvcid]
    have hlen : ("traddr=" ++ ctrl.traddr ++ ",trsvcid=" ++ ctrl.trsvcid).length ≤ configAddressSize := by
      have hfits := hl.fits
      have hfirst : "traddr=".length = 7 := rfl
      have hsecond : ",trsvcid=".length = 9 := rfl
      rw [String.length_append, String.length_append, String.length_append, hfirst, hsecond]
      omega
    have haddr := readLine_line buf.address hline hlen
    have htype := readLine_line ctrl.subnqn hl.trtype.1 hl.trtype.2
    rw [if_pos hnqn.symm, if_pos hnqn, haddr, htype]
    exact readAddress_files hl.traddr.1 rfl
  · rw [if_neg (Ne.symm hnqn), if_neg hnqn]

theorem readEntry_other {nqn : String} {entry : DirEntry} (buf : Buffers) (hname : cCut 4 entry.name ≠ "nvme") :
    readEntry nqn entry buf = (.nothing, buf) := by
  unfold readEntry
  exact if_neg hname

/-! ## Marking the pages of a subsystem -/

theorem plain_markPage (ctrl : KernelCtrl) (pages : List Page) :
    (markPage ctrl pages).map Page.toAcLogpage = NvmeDem.markPage ctrl (pages.map Page.toAcLogpage) := by
  induction pages with
  | nil => rfl
  | cons page pages ih =>
    unfold markPage
    rw [List.map_cons, NvmeDem.markPage]
    split
    · cases hv : page.valid <;> simp
    · rw [List.map_cons, ih]

/-- A page after a controller was looked for is one from before, connected only if it was or if the controller is its own. -/
theorem mem_markPage {ctrl : KernelCtrl} {pages : List Page} {page : Page} (h : page ∈ markPage ctrl pages) :
    ∃ old ∈ pages, page.toAcLogpage = old.toAcLogpage ∧
      (page.connected = old.connected ∨ (page.connected = true ∧ ctrlMatches ctrl page.toAcLogpage = true)) := by
  induction pages with
  | nil => cases h
  | cons first pages ih =>
    have hrest : page ∈ pages → ∃ old ∈ first :: pages, page.toAcLogpage = old.toAcLogpage ∧
        (page.connected = old.connected ∨ (page.connected = true ∧ ctrlMatches ctrl page.toAcLogpage = true)) :=
      fun hmem => ⟨page, List.mem_cons_of_mem _ hmem, rfl, Or.inl rfl⟩
    unfold markPage at h
    split at h
    · rename_i hmatch
      split at h
      · rcases List.mem_cons.mp h with rfl | h
        · exact ⟨first, List.mem_cons_self, rfl, Or.inr ⟨rfl, hmatch⟩⟩
        · exact hrest h
      · exact hrest h
      · exact ⟨page, h, rfl, Or.inl rfl⟩
    · rcases List.mem_cons.mp h with rfl | h
      · exact ⟨page, List.mem_cons_self, rfl, Or.inl rfl⟩
      · obtain ⟨old, hold, hof⟩ := ih h
        exact ⟨old, List.mem_cons_of_mem _ hold, hof⟩

/-- At most one page is for the controller, and it is not new. -/
structure Ready (ctrl : KernelCtrl) (pages : List AcLogpage) : Prop where
  one : pages.Pairwise (fun page page' => ctrlMatches ctrl page = true → ctrlMatches ctrl page' = false)
  known : ∀ page ∈ pages, ctrlMatches ctrl page = true → page.valid ≠ .new

theorem Ready.sublist {ctrl : KernelCtrl} {pages pages' : List AcLogpage} (h : Ready ctrl pages) (hs : pages'.Sublist pages) :
    Ready ctrl pages' :=
  ⟨h.one.sublist hs, fun page hpage => h.known page (hs.subset hpage)⟩

/-- What the client has for the controller is connected. -/
def Done (ctrl : KernelCtrl) (pages : List Page) : Prop :=
  ∀ page ∈ pages, ctrlMatches ctrl page.toAcLogpage = true → page.connected = true

theorem Done.markPage {ctrl ctrl' : KernelCtrl} {pages : List Page} (h : Done ctrl pages) :
    Done ctrl (markPage ctrl' pages) := by
  intro page hpage hmatch
  obtain ⟨old, hold, heq, hflag | hflag⟩ := mem_markPage hpage
  · rw [hflag]
    rw [heq] at hmatch
    exact h old hold hmatch
  · exact hflag.1

theorem Ready.markPage {ctrl : KernelCtrl} {pages : List Page} (h : Ready ctrl (pages.map Page.toAcLogpage)) :
    Done ctrl (markPage ctrl pages) := by
  induction pages with
  | nil => exact fun page hpage => absurd hpage List.not_mem_nil
  | cons first pages ih =>
    obtain ⟨hone, hknown⟩ := h
    rw [List.map_cons, List.pairwise_cons] at hone
    unfold Client.markPage
    split
    · rename_i hmatch
      have hrest : ∀ page ∈ pages, ctrlMatches ctrl page.toAcLogpage = true → page.connected = true := fun page hpage hp => by
        rw [hone.1 _ (List.mem_map_of_mem hpage) hmatch] at hp
        cases hp
      split
      · intro page hpage hp
        rcases List.mem_cons.mp hpage with rfl | hpage
        · rfl
        · exact hrest page hpage hp
      · exact hrest
      · rename_i hnew
        exact absurd hnew (hknown _ List.mem_cons_self hmatch)
    · rename_i hno
      intro page hpage hp
      rcases List.mem_cons.mp hpage with rfl | hpage
      · exact absurd hp hno
      · exact ih ⟨hone.2, fun page hpage => hknown page (List.mem_cons_of_mem _ hpage)⟩ page hpage hp

/-- The pages after the controllers of a directory were looked for, one after the other. -/
def markPages (ctrls : List KernelCtrl) (pages : List Page) : List Page :=
  ctrls.foldl (fun pages ctrl => markPage ctrl pages) pages

theorem Done.markPages {ctrl : KernelCtrl} {pages : List Page} (h : Done ctrl pages) (ctrls : List KernelCtrl) :
    Done ctrl (markPages ctrls pages) := by
  induction ctrls generalizing pages with
  | nil => exact h
  | cons first ctrls ih => exact ih h.markPage

theorem Ready.markPages {ctrl : KernelCtrl} {ctrls : List KernelCtrl} {pages : List Page}
    (h : Ready ctrl (pages.map Page.toAcLogpage)) (hmem : ctrl ∈ ctrls) : Done ctrl (markPages ctrls pages) := by
  induction ctrls generalizing pages with
  | nil => cases hmem
  | cons first ctrls ih =>
    rcases List.mem_cons.mp hmem with rfl | hmem
    · exact h.markPage.markPages ctrls
    · refine ih ?_ hmem
      rw [plain_markPage]
      exact h.sublist (markPage_sublist first _)

/-- A page that is connected after that was before, or is for one of the controllers. -/
theorem mem_markPages {ctrls : List KernelCtrl} {pages : List Page} {page : Page} (h : page ∈ markPages ctrls pages) :
    ∃ old ∈ pages, page.toAcLogpage = old.toAcLogpage ∧
      (page.connected = old.connected ∨ ∃ ctrl ∈ ctrls, ctrlMatches ctrl page.toAcLogpage = true) := by
  induction ctrls generalizing pages with
  | nil => exact ⟨page, h, rfl, Or.inl rfl⟩
  | cons first ctrls ih =>
    obtain ⟨mid, hmid, heq, hflag⟩ := ih h
    obtain ⟨old, hold, heq', hflag'⟩ := mem_markPage hmid
    refine ⟨old, hold, heq.trans heq', ?_⟩
    rcases hflag with hflag | ⟨ctrl, hctrl, hmatch⟩
    · rcases hflag' with hflag' | ⟨-, hmatch⟩
      · exact Or.inl (hflag.trans hflag')
      · rw [← heq] at hmatch
        exact Or.inr ⟨first, List.mem_cons_self, hmatch⟩
    · exact Or.inr ⟨ctrl, List.mem_cons_of_mem _ hctrl, hmatch⟩

/-- The controller that a page is for; the address family is not part of it. -/
def requestFor (key : PageKey) : KernelCtrl :=
  { subnqn := key.subnqn, trtype := trtypeStr key.trtype, traddr := key.traddr, trsvcid := key.trsvcid }

theorem ctrlMatches_iff {ctrl : KernelCtrl} {nqn : String} {page : AcLogpage} (h : ctrl.subnqn = nqn) :
    ctrlMatches ctrl page = true ↔ requestFor (page.e.keyFor nqn) = ctrl := by
  obtain ⟨subnqn, trtype, traddr, trsvcid⟩ := ctrl
  obtain rfl := h
  simp [ctrlMatches, requestFor, LogEntry.keyFor, and_assoc]

/-- After the controllers of a subsystem were looked for, a page whose controller was ready is connected if the kernel has it. -/
theorem connected_iff {kernel : Finset KernelCtrl} {nqn : String} {ctrls : List KernelCtrl} {pages : List Page} {page : Page}
    (hctrls : ∀ ctrl, ctrl ∈ ctrls ↔ ctrl ∈ kernel ∧ ctrl.subnqn = nqn) (hunmarked : ∀ page ∈ pages, page.connected = false)
    (hready : page.request nqn ∈ kernel → Ready (page.request nqn) (pages.map Page.toAcLogpage))
    (hpage : page ∈ markPages ctrls pages) : page.connected = true ↔ page.request nqn ∈ kernel := by
  constructor
  · intro hconnected
    obtain ⟨old, hold, -, hflag | ⟨ctrl, hctrl, hmatch⟩⟩ := mem_markPages hpage
    · rw [hunmarked old hold, hconnected] at hflag
      cases hflag
    · obtain ⟨hkernel, hnqn⟩ := (hctrls ctrl).mp hctrl
      have hrequest : page.request nqn = ctrl := (ctrlMatches_iff hnqn).mp hmatch
      rwa [hrequest]
  · intro hkernel
    exact (hready hkernel).markPages ((hctrls _).mpr ⟨hkernel, rfl⟩) page hpage ((ctrlMatches_iff rfl).mpr rfl)

/-! ## Reading the directory -/

/-- A directory that shows the kernel's controllers is read as those of the subsystem. -/
theorem markEntries_shows {nqn : String} {ctrls : List KernelCtrl} {dir : List DirEntry}
    (hdir : List.Forall₂ (fun ctrl entry => entry = files ctrl entry.name) ctrls
      (dir.filter (fun entry => decide (cCut 4 entry.name = "nvme"))))
    (hnamed : ∀ ctrl ∈ ctrls, Named ctrl) (hleg : ∀ ctrl ∈ ctrls, ctrl.subnqn = nqn → Legible ctrl) (buf : Buffers)
    (pages : List Page) :
    ∃ buf', markEntries nqn dir buf pages =
      .ok (markPages (ctrls.filter (fun ctrl => decide (ctrl.subnqn = nqn))) pages, buf') := by
  induction dir generalizing ctrls buf pages with
  | nil =>
    cases hdir
    exact ⟨buf, rfl⟩
  | cons entry dir ih =>
    rw [markEntries]
    by_cases hname : cCut 4 entry.name = "nvme"
    · rw [List.filter_cons, if_pos (decide_eq_true hname)] at hdir
      cases hdir with
      | @cons ctrl _ ctrls _ hentry hdir =>
        have hread := readEntry_files buf hname (hnamed ctrl List.mem_cons_self) (hleg ctrl List.mem_cons_self)
        rw [← hentry] at hread
        have hrest := fun pages => ih hdir (fun c hc => hnamed c (List.mem_cons_of_mem _ hc))
          (fun c hc => hleg c (List.mem_cons_of_mem _ hc)) (readEntry nqn entry buf).2 pages
        rw [hread]
        by_cases hnqn : ctrl.subnqn = nqn
        · rw [if_pos hnqn, List.filter_cons, if_pos (decide_eq_true hnqn)]
          have hctrl : KernelCtrl.mk nqn ctrl.trtype ctrl.traddr ctrl.trsvcid = ctrl := by rw [← hnqn]
          obtain ⟨buf', hbuf⟩ := hrest (markPage ctrl pages)
          refine ⟨buf', ?_⟩
          rw [markShown, hctrl]
          exact hbuf
        · rw [if_neg hnqn, List.filter_cons_of_neg (by simpa using hnqn)]
          exact hrest pages
    · rw [List.filter_cons_of_neg (by simpa using hname)] at hdir
      rw [readEntry_other buf hname]
      exact ih hdir hnamed hleg buf pages

/-- What becomes of a subsystem whose directory is read. -/
def Looked (kernel : Finset KernelCtrl) (subsys subsys' : Subsystem) : Prop :=
  subsys'.nqn = subsys.nqn ∧ ∃ ctrls : List KernelCtrl, (∀ ctrl, ctrl ∈ ctrls ↔ ctrl ∈ kernel ∧ ctrl.subnqn = subsys.nqn) ∧
    subsys'.logpageList = markPages ctrls subsys.unmark.logpageList

/-- A walk in which each directory can be opened and read. -/
theorem markConnected_shows {kernel : Finset KernelCtrl} {dirs : List (Option (List DirEntry))} {cache : List Subsystem}
    (hopen : none ∉ dirs) (hlen : cache.length ≤ dirs.length) (hshows : ∀ dir, some dir ∈ dirs → Shows kernel dir)
    (hnamed : ∀ ctrl ∈ kernel, Named ctrl) (hleg : ∀ ctrl ∈ kernel, ctrl.subnqn ∈ cache.map Subsystem.nqn → Legible ctrl)
    (buf : Buffers) : ∃ cache', markConnected dirs buf cache = .ok cache' ∧ List.Forall₂ (Looked kernel) cache cache' := by
  induction cache generalizing dirs buf with
  | nil => exact ⟨[], by cases dirs <;> rfl, .nil⟩
  | cons subsys cache ih =>
    cases dirs with
    | nil => exact absurd hlen (by simp)
    | cons dir dirs =>
      cases dir with
      | none => exact absurd List.mem_cons_self hopen
      | some dir =>
        obtain ⟨ctrls, hctrls, hdir⟩ := hshows dir List.mem_cons_self
        have hread : ∀ ctrl ∈ ctrls, ctrl.subnqn = subsys.nqn → Legible ctrl := fun ctrl hctrl heq =>
          hleg ctrl ((hctrls ctrl).mp hctrl) (heq ▸ List.mem_cons_self)
        obtain ⟨buf', hentries⟩ :=
          markEntries_shows hdir (fun ctrl hctrl => hnamed ctrl ((hctrls ctrl).mp hctrl)) hread buf subsys.unmark.logpageList
        obtain ⟨rest, hrest, hlooked⟩ := ih (fun hmem => hopen (List.mem_cons_of_mem _ hmem))
          (Nat.le_of_succ_le_succ hlen) (fun dir hmem => hshows dir (List.mem_cons_of_mem _ hmem))
          (fun ctrl hctrl hmem => hleg ctrl hctrl (List.mem_cons_of_mem _ hmem)) buf'
        let shown := ctrls.filter (fun ctrl => decide (ctrl.subnqn = subsys.nqn))
        refine ⟨{ subsys with logpageList := markPages shown subsys.unmark.logpageList } :: rest, ?_,
          .cons ⟨rfl, shown, fun ctrl => ?_, rfl⟩ hlooked⟩
        · rw [markConnected, hentries]
          show (markConnected dirs buf' cache >>= _) = _
          rw [hrest]
          rfl
        · rw [List.mem_filter, hctrls, decide_eq_true_eq]

/-! ## The cache without the flags -/

theorem plain_unmark (pages : List Page) :
    (pages.map (fun page => { page with connected := false })).map Page.toAcLogpage = pages.map Page.toAcLogpage := by
  rw [List.map_map]
  rfl

theorem plain_invalidate (cache : List Subsystem) :
    plain (invalidateLogPages cache) = NvmeDem.invalidateLogPages (plain cache) := by
  simp only [plain, invalidateLogPages, NvmeDem.invalidateLogPages, List.map_map, Function.comp_def, Subsystem.plain]

theorem plain_savePage (flag : LogEntry → Bool) (e : LogEntry) (pages : List Page) :
    (savePage flag e pages).map Page.toAcLogpage = NvmeDem.savePage e (pages.map Page.toAcLogpage) := by
  induction pages with
  | nil => rfl
  | cons page pages ih =>
    rw [List.map_cons, NvmeDem.savePage, savePage]
    split
    · rfl
    · rw [List.map_cons, ih]

theorem plain_saveLogPage (flag : LogEntry → Bool) (e : LogEntry) (cache : List Subsystem) :
    plain (saveLogPage flag e cache) = NvmeDem.saveLogPage e (plain cache) := by
  unfold plain
  induction cache with
  | nil => rfl
  | cons subsys cache ih =>
    rw [List.map_cons, NvmeDem.saveLogPage, saveLogPage]
    show _ = if subsys.nqn = e.subnqn then _ else _
    split
    · rw [List.map_cons, Subsystem.plain, plain_savePage]
      rfl
    · rw [List.map_cons, ih]

theorem plain_saveLogPages (flag : LogEntry → Bool) (log : List (LogEntry × Memory)) (cache : List Subsystem) :
    plain (saveLogPages flag log cache) = saveLogPagesIn log (plain cache) := by
  induction log generalizing cache with
  | nil => rfl
  | cons entry log ih =>
    obtain ⟨e, mem⟩ := entry
    have hfind : (plain cache).find? (fun subsys => subsys.nqn == e.subnqn) =
        (cache.find? (fun subsys => subsys.nqn == e.subnqn)).map Subsystem.plain := by
      rw [plain, List.find?_map]
      rfl
    have hgo : plain (saveLogPages flag log (saveLogPage flag e cache)) =
        saveLogPagesIn log (NvmeDem.saveLogPage e (plain cache)) := by
      rw [ih, plain_saveLogPage]
    rw [saveLogPages, saveLogPagesIn, hfind]
    cases cache.find? (fun subsys => subsys.nqn == e.subnqn) with
    | some subsys =>
      dsimp only [Option.map_some]
      have hany : (subsys.plain.logpageList.any fun page => matchLogpage page e) =
          subsys.logpageList.any (fun page => matchLogpage page.toAcLogpage e) := by
        rw [Subsystem.plain, List.any_map]
        rfl
      rw [hany]
      split
      · exact hgo
      · rfl
    | none =>
      dsimp only [Option.map_none]
      split
      · split
        · exact hgo
        · simp [plain, Subsystem.plain]
      · rfl

theorem plain_markShown (nqn : String) (pages : List Page) (shown : Shown) :
    (markShown nqn pages shown).map (List.map Page.toAcLogpage) = shown.mark nqn (pages.map Page.toAcLogpage) := by
  cases shown with
  | nothing => rfl
  | noAddr => rfl
  | ctrl trtype addr port =>
    cases port with
    | none =>
      unfold markShown Shown.mark
      dsimp only
      rw [List.any_map]
      show Except.map _ (if pages.any (portCompared trtype addr ∘ Page.toAcLogpage) = true then _ else _) = _
      split <;> rfl
    | some port => exact congrArg Except.ok (plain_markPage _ pages)

theorem plain_markEntries (nqn : String) (dir : List DirEntry) (buf : Buffers) (pages : List Page) :
    (markEntries nqn dir buf pages).map (fun read => (read.1.map Page.toAcLogpage, read.2)) =
      NvmeDem.markEntries nqn dir buf (pages.map Page.toAcLogpage) := by
  induction dir generalizing buf pages with
  | nil => rfl
  | cons entry dir ih =>
    rw [markEntries, NvmeDem.markEntries, ← plain_markShown]
    cases markShown nqn pages (readEntry nqn entry buf).1 with
    | error f => rfl
    | ok pages' => exact ih _ pages'

/-- The flags do not decide which pages are kept. -/
theorem plain_markConnected (dirs : List (Option (List DirEntry))) (buf : Buffers) (cache : List Subsystem) :
    (markConnected dirs buf cache).map plain = NvmeDem.markConnected dirs buf (plain cache) := by
  have hunmark (subsys : Subsystem) : subsys.unmark.plain = subsys.plain := by
    rw [Subsystem.plain, Subsystem.unmark, plain_unmark]
    rfl
  induction cache generalizing dirs buf with
  | nil => cases dirs with
    | nil => rfl
    | cons dir dirs => cases dir <;> rfl
  | cons subsys cache ih =>
    cases dirs with
    | nil => exact congrArg Except.ok (congrArg₂ List.cons (hunmark subsys) rfl)
    | cons dir dirs =>
      cases dir with
      | none => exact congrArg Except.ok (congrArg₂ List.cons (hunmark subsys) rfl)
      | some dir =>
        have hpages : subsys.plain.logpageList = subsys.unmark.logpageList.map Page.toAcLogpage := (plain_unmark _).symm
        rw [markConnected, plain, List.map_cons, NvmeDem.markConnected, hpages, ← plain_markEntries]
        show _ = Except.map _ (markEntries subsys.nqn dir buf subsys.unmark.logpageList) >>= _
        cases markEntries subsys.nqn dir buf subsys.unmark.logpageList with
        | error f => rfl
        | ok read =>
          obtain ⟨pages, buf'⟩ := read
          have hrest := ih dirs buf'
          show Except.map plain (markConnected dirs buf' cache >>= _) = NvmeDem.markConnected dirs buf' (plain cache) >>= _
          rw [← hrest]
          cases markConnected dirs buf' cache <;> rfl

theorem plain_cleanup (cache : List Subsystem) : plain (cleanupLogPages cache) = NvmeDem.cleanupLogPages (plain cache) := by
  let clean (subsys : Subsystem) : Subsystem :=
    { subsys with logpageList := subsys.logpageList.filter (fun page => decide (page.valid ≠ .deleted)) }
  have hclean (subsys : Subsystem) :
      (clean subsys).plain =
        { subsys.plain with logpageList := subsys.plain.logpageList.filter (fun page => decide (page.valid ≠ .deleted)) } := by
    simp only [clean, Subsystem.plain, List.filter_map, Function.comp_def]
  induction cache with
  | nil => rfl
  | cons subsys cache ih =>
    unfold plain cleanupLogPages NvmeDem.cleanupLogPages at ih ⊢
    rw [List.map_cons, List.map_cons, List.map_cons, List.filter_cons, List.filter_cons, ← hclean]
    have hempty : (clean subsys).plain.logpageList.isEmpty = (clean subsys).logpageList.isEmpty := List.isEmpty_map
    rw [hempty]
    split
    · rw [List.map_cons, ih]
    · exact ih

end Client

end NvmeDem
