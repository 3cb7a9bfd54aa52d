import NvmeDem.Ac.Cache

/-!
# A log taken into a client's cache

Both clients fetch a log and merge it into their cache. The connecting client then reads the directory of the kernel's
controllers, once for each subsystem, and drops pages that are marked deleted and connected; the monitor reports what changed.
Both then remove what is marked deleted.

The texts of the directory are whatever the kernel shows. A text that ends before what is looked for in it leaves a pointer to
one past NULL, which is not the NULL that the code checks for (`legible`).
-/

namespace NvmeDem

/-! ## Saving a log when memory may run out -/

/-- What `malloc` answers when an entry needs a subsystem and when it needs a page. -/
structure Memory where
  subsys : Bool
  page : Bool
  deriving DecidableEq, Repr

/-- `saveLogPages` with the answers of `malloc`: the rest of the log is given up when one fails. -/
def saveLogPagesIn : List (LogEntry × Memory) → List AcSubsystem → List AcSubsystem
  | [], cache => cache
  | (e, mem) :: log, cache =>
    match cache.find? (fun subsys => subsys.nqn == e.subnqn) with
    | some subsys =>
      if subsys.logpageList.any (fun page => matchLogpage page e) || mem.page then saveLogPagesIn log (saveLogPage e cache)
      else cache
    | none =>
      if mem.subsys then
        if mem.page then saveLogPagesIn log (saveLogPage e cache)
        -- The subsystem is on the list by now.
        else cache ++ [{ nqn := e.subnqn, logpageList := [] }]
      else cache

/-! ## The kernel's directory -/

/-- One entry of the directory, with the texts of its files; a file that cannot be opened has none. -/
structure DirEntry where
  name : String
  subsysnqn : Option String
  address : Option String
  transport : Option String
  deriving DecidableEq, Repr

/-- The two buffers that the files are read into. They live as long as the walk over all subsystems. -/
structure Buffers where
  val : String
  address : String
  deriving DecidableEq, Repr

/-- `fgets` and the cut at the end of the line. An empty file leaves what the buffer held. -/
def readLine (size : Nat) (file buf : String) : String :=
  String.ofList ((if file = "" then buf else cCut size file).toList.takeWhile (fun c => c ≠ '\n'))

/-- What follows the first such character of a text. -/
def afterFirst (c : Char) (s : List Char) : Option (List Char) := (s.dropWhile (fun d => d ≠ c)).tail?

/-- What an entry comes to for one subsystem: nothing to look at, an address without `=`, or a controller, whose port may be
without `=`. -/
inductive Shown where
  | nothing
  | noAddr
  | ctrl (trtype addr : String) (port : Option String)
  deriving DecidableEq, Repr

/-- The address of an entry is cut in two at its comma, in the buffer. -/
def readAddress (buf : Buffers) : Shown × Buffers :=
  match afterFirst '=' buf.address.toList with
  | none => (.noAddr, buf)
  | some addr =>
    match afterFirst ',' addr with
    | none => (.nothing, buf)
    | some port =>
      (.ctrl buf.val (String.ofList (addr.takeWhile (fun c => c ≠ ','))) ((afterFirst '=' port).map String.ofList),
        { buf with address := cCut (buf.address.length - (port.length + 1)) buf.address })

def readEntry (nqn : String) (entry : DirEntry) (buf : Buffers) : Shown × Buffers :=
  if cCut 4 entry.name = "nvme" then
    match entry.subsysnqn with
    | none => (.nothing, buf)
    | some file =>
      let buf := { buf with val := readLine maxNqnSize file buf.val }
      if nqn = buf.val then
        match entry.address with
        | none => (.nothing, buf)
        | some file =>
          let buf := { buf with address := readLine configAddressSize file buf.address }
          match entry.transport with
          | none => (.nothing, buf)
          | some file => readAddress { buf with val := readLine maxNqnSize file buf.val }
      else (.nothing, buf)
  else (.nothing, buf)

/-- Whether a page is compared with the port of a controller. -/
def portCompared (trtype addr : String) (page : AcLogpage) : Bool :=
  trtypeStr page.e.trtype == trtype && page.e.traddr == addr

/-- The pages of a subsystem after one entry. -/
def Shown.mark (nqn : String) (pages : List AcLogpage) : Shown → Except Fault (List AcLogpage)
  | .nothing => .ok pages
  -- One past NULL is not NULL: the comma is looked for there.
  | .noAddr => .error .nullPointer
  | .ctrl trtype addr none => if pages.any (portCompared trtype addr) then .error .nullPointer else .ok pages
  | .ctrl trtype addr (some port) =>
    .ok (markPage { subnqn := nqn, trtype := trtype, traddr := addr, trsvcid := port } pages)

def markEntries (nqn : String) : List DirEntry → Buffers → List AcLogpage → Except Fault (List AcLogpage × Buffers)
  | [], buf, pages => .ok (pages, buf)
  | entry :: dir, buf, pages => do
    let pages ← (readEntry nqn entry buf).1.mark nqn pages
    markEntries nqn dir (readEntry nqn entry buf).2 pages

/-- `mark_connected_subsystems`: `dirs` has the directory as it is read for each subsystem in turn, or none when it cannot be
opened, which ends the walk. -/
def markConnected : List (Option (List DirEntry)) → Buffers → List AcSubsystem → Except Fault (List AcSubsystem)
  | some dir :: dirs, buf, subsys :: rest => do
    let (pages, buf) ← markEntries subsys.nqn dir buf subsys.logpageList
    let rest ← markConnected dirs buf rest
    return { subsys with logpageList := pages } :: rest
  | _, _, cache => .ok cache

/-- A log that was fetched, taken into the cache of the connecting client; `junk` is what its buffers hold at first. -/
def processUpdates (dirs : List (Option (List DirEntry))) (junk : Buffers) (log : List (LogEntry × Memory))
    (cache : List AcSubsystem) : Except Fault (List AcSubsystem) := do
  let cache ← markConnected dirs junk (saveLogPagesIn log (invalidateLogPages cache))
  return cleanupLogPages cache

namespace Monitor

/-- What is marked deleted is reported and removed, and so is a subsystem without pages; without memory for a header the
function returns at once. -/
def printLogPages (hdr : Bool) (cache : List AcSubsystem) : List AcSubsystem :=
  if hdr then NvmeDem.cleanupLogPages cache else cache

/-- The monitor's own cleanup, which leaves subsystems without pages. -/
def cleanupLogPages (cache : List AcSubsystem) : List AcSubsystem :=
  cache.map (fun subsys =>
    { subsys with logpageList := subsys.logpageList.filter (fun page => decide (page.valid ≠ .deleted)) })

/-- A log that was fetched, taken into the cache of the monitor; `hdr` says whether there is memory for a header. -/
def reportUpdates (hdr : Bool) (log : List (LogEntry × Memory)) (cache : List AcSubsystem) : List AcSubsystem :=
  cleanupLogPages (printLogPages hdr (saveLogPagesIn log (invalidateLogPages cache)))

end Monitor

end NvmeDem
