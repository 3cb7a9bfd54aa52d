import Mathlib.Data.Finset.Insert
import NvmeDem.Ac.Updates
import NvmeDem.Lib.Run

/-!
# What the connecting client connects to

A page that the client keeps has a flag besides its mark. The flags are set when the client reads the directory of the kernel's
controllers, and one more each time it asks the kernel for a controller, which it does for one page in each turn of its main
loop.

The flag of a page that is new is whatever the memory held that was found for it, until the directory is read.
-/

namespace NvmeDem

namespace Client

structure Page extends AcLogpage where
  connected : Bool
  deriving DecidableEq, Repr

structure Subsystem where
  nqn : String
  logpageList : List Page
  deriving DecidableEq, Repr

/-- The cache without the flags. -/
def Subsystem.plain (subsys : Subsystem) : AcSubsystem :=
  { nqn := subsys.nqn, logpageList := subsys.logpageList.map Page.toAcLogpage }

def plain (cache : List Subsystem) : List AcSubsystem := cache.map Subsystem.plain

/-! ## Merging a log -/

def invalidateLogPages (cache : List Subsystem) : List Subsystem :=
  cache.map (fun subsys => { subsys with logpageList := subsys.logpageList.map (fun page => { page with valid := .deleted }) })

/-- `flag` is what the memory holds where the flag of a new page is. -/
def savePage (flag : LogEntry → Bool) (e : LogEntry) : List Page → List Page
  | [] => [{ e := e, valid := .new, connected := flag e }]
  | page :: rest =>
    if matchLogpage page.toAcLogpage e then { page with valid := .valid } :: rest else page :: savePage flag e rest

def saveLogPage (flag : LogEntry → Bool) (e : LogEntry) : List Subsystem → List Subsystem
  | [] => [{ nqn := e.subnqn, logpageList := savePage flag e [] }]
  | subsys :: rest =>
    if subsys.nqn = e.subnqn then { subsys with logpageList := savePage flag e subsys.logpageList } :: rest
    else subsys :: saveLogPage flag e rest

def saveLogPages (flag : LogEntry → Bool) : List (LogEntry × Memory) → List Subsystem → List Subsystem
  | [], cache => cache
  | (e, mem) :: log, cache =>
    match cache.find? (fun subsys => subsys.nqn == e.subnqn) with
    | some subsys =>
      if subsys.logpageList.any (fun page => matchLogpage page.toAcLogpage e) || mem.page then
        saveLogPages flag log (saveLogPage flag e cache)
      else cache
    | none =>
      if mem.subsys then
        if mem.page then saveLogPages flag log (saveLogPage flag e cache)
        else cache ++ [{ nqn := e.subnqn, logpageList := [] }]
      else cache

/-- A log, with the answers of `malloc` for its entries, or none when the fetch fails. -/
def fetchLogPages (flag : LogEntry → Bool) (fetch : Option (List (LogEntry × Memory))) (cache : List Subsystem) :
    List Subsystem :=
  match fetch with
  | none => cache
  | some log => saveLogPages flag log (invalidateLogPages cache)

/-! ## Reading the directory -/

/-- The first page that a controller is for: it is connected if it is valid, and dropped if it is marked deleted. -/
def markPage (ctrl : KernelCtrl) : List Page → List Page
  | [] => []
  | page :: rest =>
    if ctrlMatches ctrl page.toAcLogpage then
      match page.valid with
      | .valid => { page with connected := true } :: rest
      | .deleted => rest
      | .new => page :: rest
    else page :: markPage ctrl rest

/-- `Shown.mark` with the flags. -/
def markShown (nqn : String) (pages : List Page) : Shown → Except Fault (List Page)
  | .nothing => .ok pages
  | .noAddr => .error .nullPointer
  | .ctrl trtype addr none =>
    if pages.any (fun page => portCompared trtype addr page.toAcLogpage) then .error .nullPointer else .ok pages
  | .ctrl trtype addr (some port) =>
    .ok (markPage { subnqn := nqn, trtype := trtype, traddr := addr, trsvcid := port } pages)

def markEntries (nqn : String) : List DirEntry → Buffers → List Page → Except Fault (List Page × Buffers)
  | [], buf, pages => .ok (pages, buf)
  | entry :: dir, buf, pages => do
    let pages ← markShown nqn pages (readEntry nqn entry buf).1
    markEntries nqn dir (readEntry nqn entry buf).2 pages

def Subsystem.unmark (subsys : Subsystem) : Subsystem :=
  { subsys with logpageList := subsys.logpageList.map (fun page => { page with connected := false }) }

/-- `mark_connected_subsystems`, with the directory as in `NvmeDem.markConnected`. The flags of a subsystem are cleared before
its directory is opened. -/
def markConnected : List (Option (List DirEntry)) → Buffers → List Subsystem → Except Fault (List Subsystem)
  | _, _, [] => .ok []
  | some dir :: dirs, buf, subsys :: rest => do
    let (pages, buf) ← markEntries subsys.nqn dir buf subsys.unmark.logpageList
    let rest ← markConnected dirs buf rest
    return { subsys with logpageList := pages } :: rest
  | _, _, subsys :: rest => .ok (subsys.unmark :: rest)

def cleanupLogPages (cache : List Subsystem) : List Subsystem :=
  (cache.map (fun subsys =>
    { subsys with logpageList := subsys.logpageList.filter (fun page => decide (page.valid ≠ .deleted)) })).filter
    (fun subsys => !subsys.logpageList.isEmpty)

/-! ## Connecting -/

/-- The controller that the kernel is asked for. -/
def Page.request (nqn : String) (page : Page) : KernelCtrl :=
  { subnqn := nqn, trtype := trtypeStr page.e.trtype, traddr := page.e.traddr, trsvcid := page.e.trsvcid }

/-- The pages of a subsystem, up to the first that is not connected and for which the file of the kernel can be opened. `opens`
has the answers of `fopen`, from one on. -/
def connectPages (opens : Nat → Bool) (nqn : String) : Nat → List Page → Option KernelCtrl × Nat × List Page
  | i, [] => (none, i, [])
  | i, page :: rest =>
    if page.connected then
      let (req, i, rest) := connectPages opens nqn i rest
      (req, i, page :: rest)
    else if opens i then (some (page.request nqn), i + 1, { page with connected := true } :: rest)
    else
      let (req, i, rest) := connectPages opens nqn (i + 1) rest
      (req, i, page :: rest)

/-- What is asked of the kernel, if anything, and the cache after that. -/
def connectOneSubsystem (opens : Nat → Bool) : Nat → List Subsystem → Option KernelCtrl × List Subsystem
  | _, [] => (none, [])
  | i, subsys :: cache =>
    let (req, i, pages) := connectPages opens subsys.nqn i subsys.logpageList
    if req.isSome then (req, { subsys with logpageList := pages } :: cache)
    else
      let (req, cache) := connectOneSubsystem opens i cache
      (req, { subsys with logpageList := pages } :: cache)

/-! ## The client and the kernel -/

/-- The files that the kernel shows for a controller. -/
def files (ctrl : KernelCtrl) (name : String) : DirEntry where
  name := name
  subsysnqn := some (ctrl.subnqn ++ "\n")
  address := some ("traddr=" ++ ctrl.traddr ++ ",trsvcid=" ++ ctrl.trsvcid ++ "\n")
  transport := some (ctrl.trtype ++ "\n")

/-- A directory that shows the controllers, and besides them nothing that the client looks at. -/
def Shows (kernel : Finset KernelCtrl) (dir : List DirEntry) : Prop :=
  ∃ ctrls : List KernelCtrl, (∀ ctrl, ctrl ∈ ctrls ↔ ctrl ∈ kernel) ∧
    List.Forall₂ (fun ctrl entry => entry = files ctrl entry.name) ctrls
      (dir.filter (fun entry => decide (cCut 4 entry.name = "nvme")))

structure State where
  cache : List Subsystem
  kernel : Finset KernelCtrl

/-- At the start nothing is kept, and the kernel may have any controllers. -/
def State.start (kernel : Finset KernelCtrl) : State := { cache := [], kernel := kernel }

/-- What `process_updates` finds. -/
structure Update where
  /-- The controllers that the kernel has by now. -/
  kernel : Finset KernelCtrl
  flag : LogEntry → Bool
  fetch : Option (List (LogEntry × Memory))
  /-- The directory as it is read for each subsystem, or none when it cannot be opened. -/
  dirs : List (Option (List DirEntry))
  /-- What the buffers hold at first. -/
  junk : Buffers

def Update.marked (u : Update) (cache : List Subsystem) : Except Fault (List Subsystem) :=
  markConnected u.dirs u.junk (fetchLogPages u.flag u.fetch cache)

/-- The directory shows what the kernel has, whenever it is read. -/
def Update.Shown (u : Update) : Prop := ∀ dir, some dir ∈ u.dirs → Shows u.kernel dir

inductive Op where
  | processUpdates (u : Update)
  | connectOneSubsystem (opens : Nat → Bool) (accepted : Bool)
  | cleanupDq

/-- Controllers come and go between two updates, just before the second. The kernel may refuse what it is asked for. -/
def step (op : Op) (s s' : State) : Prop :=
  match op with
  | .processUpdates u =>
    u.Shown ∧ ∃ cache, u.marked s.cache = .ok cache ∧ s' = { cache := cleanupLogPages cache, kernel := u.kernel }
  | .connectOneSubsystem opens accepted =>
    let (req, cache) := Client.connectOneSubsystem opens 0 s.cache
    s' = { cache := cache, kernel := if accepted then req.elim s.kernel (fun ctrl => insert ctrl s.kernel) else s.kernel }
  | .cleanupDq => s' = { cache := [], kernel := s.kernel }

end Client

end NvmeDem
