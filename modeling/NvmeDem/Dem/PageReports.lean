import NvmeDem.Dem.Address
import NvmeDem.Dem.Refresh
import NvmeDem.Store.Listing

/-!
# Log pages for a client

The REST interface shows the log pages of a target, and those that a host can see, as a text. Each page is first written to a local buffer.
Before it goes behind the pages that are in the reply, the buffer of the reply is grown by `maxBodySize` bytes if the page would end behind
it; the terminating zero is not counted.

`memory` says what each call for more memory gives. Without memory the function returns an error.
-/

namespace NvmeDem.PageReports

open Buffer
open Refresh

/-! ## The text of a page -/

def maxBodySize : Nat := 1024

def subtypeStr (subtype : UInt8) : String :=
  if subtype = 1 then "discovery subsystem" else if subtype = 2 then "nvme subsystem" else "unrecognized"

def treqStr (treq : UInt8) : String :=
  if treq = 0 then "not specified" else if treq = 1 then "required" else if treq = 2 then "not required" else "unrecognized"

def prtypeStr (prtype : UInt8) : String :=
  if prtype = 1 then "not specified" else if prtype = 2 then "infiniband" else if prtype = 3 then "roce"
  else if prtype = 4 then "roce-v2" else if prtype = 5 then "iwarp" else "unrecognized"

def qptypeStr (qptype : UInt8) : String :=
  if qptype = 1 then "connected" else if qptype = 2 then "datagram" else "unrecognized"

def cmsStr (cm : UInt8) : String := if cm = 1 then "rdma-cm" else "unrecognized"

/-- `%04x` of a 16-bit number. -/
def hex4 (n : UInt16) : String :=
  String.ofList ([n.toNat / 4096, n.toNat / 256 % 16, n.toNat / 16 % 16, n.toNat % 16].map Nat.digitChar)

def trtypeRdma : UInt8 := 1

/-- What only a page of an RDMA port has. -/
def rdmaTexts (e : LogEntry) : List String :=
  [" &nbsp; rdma: ", "prtype=<b>\"" ++ prtypeStr e.prtype ++ "\"</b> ", "qptype=<b>\"" ++ qptypeStr e.qptype ++ "\"</b> ",
    "cms=<b>\"" ++ cmsStr e.cms ++ "\"</b> ", "pkey=<b>0x" ++ hex4 e.pkey ++ "</b>"]

def logpageTexts (e : LogEntry) : List String :=
  ["<p>subnqn=<b>\"" ++ e.subnqn ++ "\"</b> ", "subtype=<b>\"" ++ subtypeStr e.subtype ++ "\"</b> ",
    "portid=<b>" ++ Nat.repr e.portid.toNat ++ "</b> ", "trtype=<b>\"" ++ trtypeStr e.trtype ++ "\"</b> ",
    "adrfam=<b>\"" ++ adrfamStr e.adrfam ++ "\"</b> ", "traddr=<b>" ++ e.traddr ++ "</b> ",
    "trsvcid=<b>" ++ e.trsvcid ++ "</b> ", "treq=<b>\"" ++ treqStr e.treq ++ "\"</b><br>"] ++
  (if e.trtype = trtypeRdma then rdmaTexts e else []) ++ ["</p>"]

def formatLogpage (e : LogEntry) : List Char := (logpageTexts e).flatMap String.toList

def unattachedHeading : String := "<p><p><b style='color:red'>Unattached Log Pages</b><p>"

def noValidLogPages : String := "No valid Log Pages"

/-! ## The loops -/

/-- Why a report ends early. -/
inductive Stop where
  | fault (f : Fault)
  | noMemory

def Stop.ofHalt : Halt → Stop
  | .noMemory => .noMemory
  | .overflow => .fault .outOfBounds

variable (memory : Nat → Option (Nat → Char))

/-- Put the text of the local buffer behind what is in the reply. -/
def writeText (buf : List Char) (r : Growing Char) : Except Stop (Growing Char) :=
  (r.append nul maxBodySize memory buf).mapError Stop.ofHalt

/-- A page that is too long for the local buffer is written past its end. -/
def writePage (e : LogEntry) (r : Growing Char) : Except Stop (Growing Char) :=
  if (formatLogpage e).length ≤ maxBodySize then writeText memory (formatLogpage e) r else .error (.fault .outOfBounds)

def writePages : List LogEntry → Growing Char → Except Stop (Growing Char)
  | [], r => .ok r
  | e :: es, r => (writePage memory e r).bind (writePages es)

def writeUnattached (t : TargetPages) (r : Growing Char) : Except Stop (Growing Char) :=
  if t.unattachedLogpageList.isEmpty then .ok r
  else (writeText memory unattachedHeading.toList r).bind (writePages memory (t.unattachedLogpageList.map Logpage.e))

/-- The reply when a request comes in. -/
def newReport : Growing Char := { block := newResp, len := 0, bytes := maxBodySize, grown := 0 }

/-- The end of both functions: an error number, or the buffer of the reply. -/
def finish : Except Stop (Growing Char) → Except Fault (Except Int (Block Char))
  | .error (.fault f) => .error f
  | .error .noMemory => .ok (.error (-enomem))
  | .ok r =>
    if r.len = 0 then
      match r.block.put nul 0 noValidLogPages.toList with
      | none => .error .outOfBounds
      | some resp => .ok (.ok resp)
    else .ok (.ok r.block)

/-! ## The reports -/

def targetLogpage (targetList : List TargetPages) (name : String) : Except Fault (Except Int (Block Char)) :=
  match targetList.find? (fun t => t.target.name == name) with
  | none => .ok (.error (-enoent))
  | some t =>
    finish ((writePages memory (t.target.subsysList.flatMap Subsystem.validEntries) newReport).bind (writeUnattached memory t))

/-- The valid log pages of a target that a host with this alias may see. -/
def seenEntries (target : Target) (name : String) : List LogEntry :=
  (target.subsysList.filter (fun subsys =>
    !subsys.isRestricted || subsys.hostList.any (fun host => host.name == name))).flatMap Subsystem.validEntries

/-- The loop over the targets. -/
def hostPages (lists : Lists) (name : String) : List Target → Growing Char → Except Stop (Growing Char)
  | [], r => .ok r
  | target :: rest, r =>
    match if target.groupMember then indirectSharedGroup lists target name else .ok true with
    | .error f => .error (.fault f)
    | .ok false => hostPages lists name rest r
    | .ok true => (writePages memory (seenEntries target name) r).bind (hostPages lists name rest)

def hostLogpage (lists : Lists) (name : String) : Except Fault (Except Int (Block Char)) :=
  finish (hostPages memory lists name lists.targetList newReport)

end NvmeDem.PageReports
