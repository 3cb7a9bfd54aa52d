import NvmeDem.Dem.PseudoTarget

/-!
# The sizes of a discovery log

A server says how many records its log has, and the client asks for a log of that many. The size of it is computed in a `size_t` and kept in an
`unsigned int`, handed on as an `int`, allocated as a `size_t`, and sent as a number of dwords in two halves and as a length of three bytes.

Here a client is followed from the number it was told to the records it visits, which are places in its buffer. Memory is to be had for every
size that an object can have, and for no other. `posix_memalign` does not set `errno`, so that it is anything when an allocation fails.
-/

namespace NvmeDem.LogSizes

open PseudoTarget (sizeofRspPageHdr sizeofRspPageEntry)

def enodata : Int := 61

/-- How the steps of a request end that the sizes do not decide: zero or an error. -/
structure Steps where
  errno : Int
  allocKey : Int
  sendCmd : Int
  processNvmeRsp : Int

/-- The two numbers in the header of a log. -/
structure Reply where
  numrec : BitVec 32
  genctr : BitVec 64
  deriving DecidableEq

/-- A request: the bytes of the buffer, and how many the command says there are. -/
structure Request where
  buffer : Nat
  numdl : BitVec 16
  numdu : BitVec 16
  length : List UInt8
  deriving DecidableEq

def putUnalignedLe24 (val : Nat) : List UInt8 := leBytes 3 val
def getUnalignedLe24 (p : List UInt8) : Nat := ofLe p

/-- An `int` where a `size_t` is wanted. -/
def sizeT (n : Int) : Nat := (n % 2 ^ 64).toNat

/-- `posix_memalign` of a size that no object can have. -/
def memalignFails (size : Nat) : Bool := 2 ^ 63 ≤ size

/-- What `send_get_log_page` prepares, and `rdma_set_sgl` in it. -/
def request (logSize : Int) : Request :=
  let size := BitVec.ofInt 32 (logSize.tdiv 4 - 1)
  { buffer := sizeT logSize
    numdl := size.setWidth 16
    numdu := (size >>> 16).setWidth 16
    length := putUnalignedLe24 (logSize % 2 ^ 32).toNat }

/-- What it returns, with the request if that is left to its caller. -/
def sendGetLogPage (steps : Steps) (logSize : Int) : Int × Option Request :=
  if memalignFails (sizeT logSize) then (steps.errno, none)
  else if steps.allocKey ≠ 0 then (steps.allocKey, none)
  else if steps.sendCmd ≠ 0 then (steps.sendCmd, none)
  else (steps.processNvmeRsp, some (request logSize))

/-- How the client ends: with an error, with a log of no records, or with the places of the records it has visited. -/
inductive Outcome where
  | rejected (ret : Int)
  | empty
  | log (req : Request) (visited : List Nat)

def logSize (numrec : BitVec 32) : Nat := (sizeofRspPageHdr + sizeofRspPageEntry * numrec.toNat) % 2 ^ 32

def entryPlaces (numrec : BitVec 32) : List Nat :=
  (List.range numrec.toNat).map (fun i => sizeofRspPageHdr + sizeofRspPageEntry * i)

/-- The second request. If it returns zero without a buffer, the log is the one that was freed. -/
def fetchEntries (steps : Steps) (told reply : Reply) : Except Fault Outcome :=
  let got := sendGetLogPage steps (cInt (logSize told.numrec))
  if got.1 ≠ 0 then .ok (.rejected (-enodata))
  else
    match got.2 with
    | none => .error .freed
    | some req =>
      if told.numrec ≠ reply.numrec ∨ told.genctr ≠ reply.genctr then .ok (.rejected (-einval))
      else .ok (.log req (entryPlaces told.numrec))

/-- `get_logpages`, with the replies to its two requests. -/
def getLogpages (first second : Steps) (told reply : Reply) : Except Fault Outcome :=
  let got := sendGetLogPage first 16
  if got.1 ≠ 0 then .ok (.rejected (-enodata))
  else
    match got.2 with
    | none => .error .wildPointer
    | some _ => if told.numrec = 0 then .ok .empty else fetchEntries second told reply

end NvmeDem.LogSizes
