import NvmeDem.Dem.PseudoTarget

/-!
# Fetching a discovery log

A client asks twice: first for the two numbers of the header, and then for the header with as many entries as it was told. The log
that comes back is taken if it has the same two numbers, and its texts end at their first space.

What happens on the way of a request, and what the daemon's lists are when it is handled, is an `Exchange`; a client waits for the
completion of the command it sent before it goes on.
-/

namespace NvmeDem.Fabric

open PseudoTarget

def enodata : Int := 61

/-- The way of one request: how the steps of the client end (0 or an error), and what the daemon handles it with. -/
structure Exchange where
  memalign : Int
  allocKey : Int
  sendMsg : Int
  poll : Int
  lists : Lists
  host : HostConn
  reqs : List EventRequest
  ans : Answers

/-- The entries that the host may see when the request is handled. -/
def Exchange.visible (x : Exchange) : Except Fault (List LogEntry) := NvmeDem.handleGetLogPages x.lists x.host.nqn

/-- The log page command with a buffer of `logSize` bytes. -/
def getLogPageCmd (logSize : Nat) : NvmeCommand := { opcode := nvmeAdminGetLogPage, length := .ofNat 24 logSize }

/-- The client's memory after the transfers of a command. -/
def applyTransfers (data : Mem) : List Transfer → Mem
  | [] => data
  | .read _ :: rest => applyTransfers data rest
  | .write bytes :: rest => applyTransfers (data.write 0 bytes) rest

/-- The status of the completion of a command. -/
def processNvmeRsp (poll : Int) (rsp : NvmeCompletion) : Int := if poll ≠ 0 then poll else (rsp.status >>> 1).toNat

/-- One request: an error, or the buffer that was zero before. -/
def sendGetLogPage (x : Exchange) (logSize : Nat) : Except Fault (Except Int Mem) :=
  if x.memalign ≠ 0 then .ok (.error x.memalign)
  else if x.allocKey ≠ 0 then .ok (.error x.allocKey)
  else if x.sendMsg ≠ 0 then .ok (.error x.sendMsg)
  else
    (PseudoTarget.handleRequest x.lists (getLogPageCmd logSize) x.ans x.host x.reqs).map (fun out =>
      let ret := processNvmeRsp x.poll out.2
      if ret ≠ 0 then .error ret else .ok (applyTransfers (Mem.filled 0) out.1.transfers))

/-! ## Trimming -/

def space : UInt8 := 32

/-- A text of at most `n` bytes ends at its first space. -/
def trim (m : Mem) (p : Nat) : Nat → Mem
  | 0 => m
  | n + 1 => if m p = 0 then m else if m p = space then m.write p [0] else trim m (p + 1) n

def offTrsvcid : Nat := 32
def offSubnqn : Nat := 256
def offTraddr : Nat := 512

def trimEntry (m : Mem) (log : Nat) : Mem :=
  let m := trim m (log + offTraddr) 256
  let m := trim m (log + offSubnqn) 256
  trim m (log + offTrsvcid) 32

/-- The entries are trimmed one after the other, the first at `log`. -/
def trimEntries : Nat → Mem → Nat → Mem
  | 0, m, _ => m
  | n + 1, m, log => trimEntries n (trimEntry m log) (log + sizeofRspPageEntry)

/-! ## The client -/

/-- The bytes of the entries that the caller is given. -/
def records (hdr : Mem) (numrec : Nat) : List (List UInt8) :=
  (List.range numrec).map (fun i => hdr.read (sizeofRspPageHdr + sizeofRspPageEntry * i) sizeofRspPageEntry)

def genctr (hdr : Mem) : Nat := ofLe (hdr.read 0 8)

/-- The low half of the number of records. -/
def numrec (hdr : Mem) : Nat := ofLe (hdr.read 8 4)

/-- The two requests: an error, or the records that were fetched. -/
def getLogpages (first second : Exchange) : Except Fault (Except Int (List (List UInt8))) :=
  (sendGetLogPage first 16).bind (fun got =>
    match got with
    | .error _ => .ok (.error (-enodata))
    | .ok hdr =>
      if numrec hdr = 0 then .ok (.ok [])
      else
        let logSize := (sizeofRspPageHdr + sizeofRspPageEntry * numrec hdr) % 2 ^ 32
        (sendGetLogPage second logSize).map (fun got =>
          match got with
          | .error _ => .error (-enodata)
          | .ok log =>
            if numrec hdr ≠ numrec log ∨ genctr hdr ≠ genctr log then .error (-einval)
            else .ok (records (trimEntries (numrec hdr) log sizeofRspPageHdr) (numrec hdr))))

end NvmeDem.Fabric
