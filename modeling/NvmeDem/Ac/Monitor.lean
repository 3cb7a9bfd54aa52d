import NvmeDem.Ac.Updates
import NvmeDem.Lib.Run

/-!
# What the monitor reports

The monitor fetches a log, merges it into what it keeps, prints what is new and what is gone, and forgets what is gone. When the
fetch fails it prints all the same, from what it has kept.
-/

namespace NvmeDem

namespace Monitor

/-- What is printed: a page that is new, with its own texts; a page that is gone, under the subsystem that had it; a subsystem
that is left without pages. -/
inductive Report where
  | newPage (e : LogEntry)
  | deletedPage (nqn : String) (e : LogEntry)
  | deletedSubsystem (nqn : String)
  deriving DecidableEq, Repr

def reportPage (nqn : String) (page : AcLogpage) : Option Report :=
  match page.valid with
  | .new => some (.newPage page.e)
  | .deleted => some (.deletedPage nqn page.e)
  | .valid => none

def reportSubsystem (subsys : AcSubsystem) : List Report :=
  subsys.logpageList.filterMap (reportPage subsys.nqn) ++
    if subsys.logpageList.all (fun page => decide (page.valid = .deleted)) then [.deletedSubsystem subsys.nqn] else []

/-- What `print_log_pages` prints, of which `printLogPages` is what is left. -/
def printed (hdr : Bool) (cache : List AcSubsystem) : List Report := if hdr then cache.flatMap reportSubsystem else []

/-- A call of `report_updates`: the log that is fetched, with the answers of `malloc` for its entries, or none when the fetch
fails; and whether there is memory for a header. -/
structure Call where
  fetch : Option (List (LogEntry × Memory))
  hdr : Bool
  deriving DecidableEq, Repr

def fetchLogPages (fetch : Option (List (LogEntry × Memory))) (cache : List AcSubsystem) : List AcSubsystem :=
  match fetch with
  | none => cache
  | some log => saveLogPagesIn log (invalidateLogPages cache)

/-- What a call prints and what it leaves. -/
def report (call : Call) (cache : List AcSubsystem) : List Report × List AcSubsystem :=
  let cache := fetchLogPages call.fetch cache
  (printed call.hdr cache, cleanupLogPages (printLogPages call.hdr cache))

/-! ## What a reader of the reports is told -/

def Report.newKey? : Report → Option PageKey
  | .newPage e => some e.key
  | _ => none

def Report.deletedKey? : Report → Option PageKey
  | .deletedPage nqn e => some (e.keyFor nqn)
  | _ => none

/-- The pages that are printed as new. -/
def newKeys (out : List Report) : List PageKey := out.filterMap Report.newKey?

/-- The pages that are printed as deleted. -/
def deletedKeys (out : List Report) : List PageKey := out.filterMap Report.deletedKey?

/-! ## Rounds -/

/-- What the monitor keeps, and the last log that it fetched. -/
structure Watch where
  cache : List AcSubsystem
  last : List LogEntry
  deriving DecidableEq, Repr

/-- Before the first call there is nothing. -/
def Watch.start : Watch := { cache := [], last := [] }

def Watch.out (w : Watch) (call : Call) : List Report := (report call w.cache).1

def Watch.next (w : Watch) (call : Call) : Watch where
  cache := (report call w.cache).2
  last := match call.fetch with
    | some log => log.map Prod.fst
    | none => w.last

/-- The differences of two logs, each printed once. -/
structure Differences (last current : List LogEntry) (out : List Report) : Prop where
  new : ∀ key, key ∈ newKeys out ↔ key ∈ current.map LogEntry.key ∧ key ∉ last.map LogEntry.key
  once : (newKeys out).Nodup
  deleted : ∀ key, key ∈ deletedKeys out ↔ key ∈ last.map LogEntry.key ∧ key ∉ current.map LogEntry.key

/-- A call prints the differences of its log and the last one, or no page if it has no log. -/
def Watch.ReportsDifferences (w : Watch) (call : Call) : Prop :=
  match call.fetch with
  | some log => Differences w.last (log.map Prod.fst) (w.out call)
  | none => newKeys (w.out call) = [] ∧ deletedKeys (w.out call) = []

end Monitor

end NvmeDem
