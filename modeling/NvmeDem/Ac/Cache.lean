import NvmeDem.Dem.Address
import NvmeDem.Dem.State

/-!
# The log pages that the connecting client keeps

The client keeps, for each subsystem it was told of, the log pages of the last log it read. A new log is merged into them: all
pages are marked deleted, a page that the log has is marked valid again, a page that is new is added, and what is still marked
deleted is removed. What is left is the log, whatever was kept before (`mem_cachedKeys_update`).

Which pages the client is connected to is not kept here; it does not decide which pages are kept.
-/

namespace NvmeDem

inductive PageState where
  | valid | deleted | new
  deriving DecidableEq, Repr

structure AcLogpage where
  e : LogEntry
  valid : PageState
  deriving DecidableEq, Repr

structure AcSubsystem where
  nqn : String
  logpageList : List AcLogpage
  deriving DecidableEq, Repr

/-- What tells one log page from another. -/
structure PageKey where
  subnqn : String
  trtype : UInt8
  adrfam : UInt8
  traddr : String
  trsvcid : String
  deriving DecidableEq, Repr

/-- The key of a page that is kept for the subsystem with an NQN. -/
def LogEntry.keyFor (e : LogEntry) (nqn : String) : PageKey :=
  { subnqn := nqn, trtype := e.trtype, adrfam := e.adrfam, traddr := e.traddr, trsvcid := e.trsvcid }

def LogEntry.key (e : LogEntry) : PageKey := e.keyFor e.subnqn

/-! ## Reading a log -/

/-- A text up to its first space. -/
def trim (s : String) : String := String.ofList (s.toList.takeWhile (fun c => c ≠ ' '))

def LogEntry.trim (e : LogEntry) : LogEntry :=
  { e with traddr := NvmeDem.trim e.traddr, subnqn := NvmeDem.trim e.subnqn, trsvcid := NvmeDem.trim e.trsvcid }

/-! ## Merging a log -/

def invalidateLogPages (cache : List AcSubsystem) : List AcSubsystem :=
  cache.map (fun subsys =>
    { subsys with logpageList := subsys.logpageList.map (fun page => { page with valid := .deleted }) })

def matchLogpage (page : AcLogpage) (e : LogEntry) : Bool :=
  e.traddr == page.e.traddr && e.trsvcid == page.e.trsvcid && e.trtype == page.e.trtype && e.adrfam == page.e.adrfam

/-- The pages of a subsystem with an entry: the page that matches it is valid, or a new page is added. -/
def savePage (e : LogEntry) : List AcLogpage → List AcLogpage
  | [] => [{ e := e, valid := .new }]
  | page :: rest => if matchLogpage page e then { page with valid := .valid } :: rest else page :: savePage e rest

/-- One turn of `saveLogPages`: the first subsystem with the NQN of the entry, or a new one, is given the page. -/
def saveLogPage (e : LogEntry) : List AcSubsystem → List AcSubsystem
  | [] => [{ nqn := e.subnqn, logpageList := savePage e [] }]
  | subsys :: rest =>
    if subsys.nqn = e.subnqn then { subsys with logpageList := savePage e subsys.logpageList } :: rest
    else subsys :: saveLogPage e rest

def saveLogPages (log : List LogEntry) (cache : List AcSubsystem) : List AcSubsystem :=
  log.foldl (fun cache e => saveLogPage e cache) cache

/-! ## After a merge -/

/-- A controller that the kernel has, as its directory shows it. -/
structure KernelCtrl where
  subnqn : String
  trtype : String
  traddr : String
  trsvcid : String
  deriving DecidableEq, Repr

def ctrlMatches (ctrl : KernelCtrl) (page : AcLogpage) : Bool :=
  trtypeStr page.e.trtype == ctrl.trtype && page.e.traddr == ctrl.traddr && page.e.trsvcid == ctrl.trsvcid

/-- The first page that the kernel's controller is for is dropped if it is marked deleted. -/
def markPage (ctrl : KernelCtrl) : List AcLogpage → List AcLogpage
  | [] => []
  | page :: rest =>
    if ctrlMatches ctrl page then if page.valid = .deleted then rest else page :: rest
    else page :: markPage ctrl rest

def markSubsystem (dir : List KernelCtrl) (subsys : AcSubsystem) : AcSubsystem :=
  let ctrls := dir.filter (fun ctrl => ctrl.subnqn == subsys.nqn)
  { subsys with logpageList := ctrls.foldl (fun pages ctrl => markPage ctrl pages) subsys.logpageList }

/-- What the directory shows is read anew for each subsystem; when it cannot be opened the walk is over. -/
def markConnectedSubsystems : List (Option (List KernelCtrl)) → List AcSubsystem → List AcSubsystem
  | some dir :: dirs, subsys :: rest => markSubsystem dir subsys :: markConnectedSubsystems dirs rest
  | _, cache => cache

def cleanupLogPages (cache : List AcSubsystem) : List AcSubsystem :=
  (cache.map (fun subsys =>
    { subsys with logpageList := subsys.logpageList.filter (fun page => decide (page.valid ≠ .deleted)) })).filter
    (fun subsys => !subsys.logpageList.isEmpty)

/-! ## What is kept -/

def AcSubsystem.keys (subsys : AcSubsystem) : List PageKey := subsys.logpageList.map (fun page => page.e.keyFor subsys.nqn)

/-- The keys of the pages that are kept. -/
def cachedKeys (cache : List AcSubsystem) : List PageKey := cache.flatMap AcSubsystem.keys

/-- The keys of the pages that are not marked deleted. -/
def liveKeys (cache : List AcSubsystem) : List PageKey :=
  cache.flatMap (fun subsys =>
    (subsys.logpageList.filter (fun page => decide (page.valid ≠ .deleted))).map (fun page => page.e.keyFor subsys.nqn))

theorem liveKeys_invalidate (cache : List AcSubsystem) : liveKeys (invalidateLogPages cache) = [] := by
  simp [liveKeys, invalidateLogPages]

theorem key_of_match {page : AcLogpage} {e : LogEntry} (h : matchLogpage page e = true) (nqn : String) :
    page.e.keyFor nqn = e.keyFor nqn := by
  simp only [matchLogpage, Bool.and_eq_true, beq_iff_eq] at h
  obtain ⟨⟨⟨h1, h2⟩, h3⟩, h4⟩ := h
  simp [LogEntry.keyFor, h1, h2, h3, h4]

/-- The live pages of a subsystem after an entry was saved there. -/
theorem mem_savePage (e : LogEntry) (nqn : String) (pages : List AcLogpage) (key : PageKey) :
    key ∈ ((savePage e pages).filter (fun page => decide (page.valid ≠ .deleted))).map (fun page => page.e.keyFor nqn) ↔
      key = e.keyFor nqn ∨
        key ∈ (pages.filter (fun page => decide (page.valid ≠ .deleted))).map (fun page => page.e.keyFor nqn) := by
  induction pages with
  | nil => simp [savePage]
  | cons page pages ih =>
    unfold savePage
    by_cases hm : matchLogpage page e = true
    · have hk := key_of_match hm nqn
      rw [if_pos hm]
      by_cases hv : page.valid = .deleted
      · simp [hv, hk]
      · simp [hv, hk]
    · rw [if_neg hm]
      by_cases hv : page.valid = .deleted
      · simpa [hv] using ih
      · simp only [hv, ne_eq, not_false_eq_true, decide_true, List.filter_cons_of_pos, List.map_cons, List.mem_cons] at ih ⊢
        rw [ih]
        tauto

theorem mem_liveKeys_saveLogPage (e : LogEntry) (cache : List AcSubsystem) (key : PageKey) :
    key ∈ liveKeys (saveLogPage e cache) ↔ key = e.key ∨ key ∈ liveKeys cache := by
  induction cache with
  | nil => simp [saveLogPage, liveKeys, savePage, LogEntry.key]
  | cons subsys cache ih =>
    unfold saveLogPage
    by_cases hn : subsys.nqn = e.subnqn
    · rw [if_pos hn]
      unfold liveKeys
      rw [List.flatMap_cons, List.flatMap_cons, List.mem_append, List.mem_append, mem_savePage, hn, or_assoc]
      rfl
    · rw [if_neg hn]
      unfold liveKeys at ih ⊢
      rw [List.flatMap_cons, List.flatMap_cons, List.mem_append, List.mem_append, ih]
      tauto

theorem mem_liveKeys_saveLogPages (log : List LogEntry) (cache : List AcSubsystem) (key : PageKey) :
    key ∈ liveKeys (saveLogPages log cache) ↔ key ∈ log.map LogEntry.key ∨ key ∈ liveKeys cache := by
  induction log generalizing cache with
  | nil => simp [saveLogPages]
  | cons e log ih =>
    have h := ih (saveLogPage e cache)
    rw [mem_liveKeys_saveLogPage] at h
    simp only [saveLogPages, List.foldl_cons, List.map_cons, List.mem_cons] at h ⊢
    rw [h]
    tauto

theorem filter_markPage (ctrl : KernelCtrl) (pages : List AcLogpage) :
    (markPage ctrl pages).filter (fun page => decide (page.valid ≠ .deleted)) =
      pages.filter (fun page => decide (page.valid ≠ .deleted)) := by
  induction pages with
  | nil => rfl
  | cons page pages ih =>
    unfold markPage
    split
    · split
      · rename_i hv
        simp [hv]
      · rfl
    · simp only [List.filter_cons, ih]

theorem filter_markPages (dir : List KernelCtrl) (pages : List AcLogpage) :
    (dir.foldl (fun pages ctrl => markPage ctrl pages) pages).filter (fun page => decide (page.valid ≠ .deleted)) =
      pages.filter (fun page => decide (page.valid ≠ .deleted)) := by
  induction dir generalizing pages with
  | nil => rfl
  | cons ctrl dir ih => rw [List.foldl_cons, ih, filter_markPage]

/-- Only pages that are marked deleted are dropped for what the kernel has. -/
theorem liveKeys_markConnected (dirs : List (Option (List KernelCtrl))) (cache : List AcSubsystem) :
    liveKeys (markConnectedSubsystems dirs cache) = liveKeys cache := by
  induction dirs generalizing cache with
  | nil => simp [markConnectedSubsystems]
  | cons dir dirs ih =>
    cases cache with
    | nil => cases dir <;> rfl
    | cons subsys cache =>
      cases dir with
      | none => rfl
      | some dir =>
        have h := ih cache
        unfold liveKeys at h ⊢
        simp only [markConnectedSubsystems, markSubsystem, List.flatMap_cons, filter_markPages, h]

theorem cachedKeys_cleanup (cache : List AcSubsystem) : cachedKeys (cleanupLogPages cache) = liveKeys cache := by
  induction cache with
  | nil => rfl
  | cons subsys cache ih =>
    unfold cachedKeys cleanupLogPages liveKeys at ih ⊢
    simp only [List.map_cons, List.flatMap_cons, List.filter_cons]
    split
    · rw [List.flatMap_cons, ih]
      rfl
    · rename_i hempty
      simp only [Bool.not_eq_true', Bool.not_eq_false, List.isEmpty_iff] at hempty
      rw [ih, hempty]
      rfl

/-- A log replaces what was kept: after it the keys are those of the log. -/
theorem mem_cachedKeys_update (dirs : List (Option (List KernelCtrl))) (log : List LogEntry) (cache : List AcSubsystem)
    (key : PageKey) :
    key ∈ cachedKeys (cleanupLogPages (markConnectedSubsystems dirs (saveLogPages log (invalidateLogPages cache)))) ↔
      key ∈ log.map LogEntry.key := by
  rw [cachedKeys_cleanup, liveKeys_markConnected, mem_liveKeys_saveLogPages, liveKeys_invalidate]
  simp

end NvmeDem
