import NvmeDem.Store.Basic

/-!
# Calls over HTTP

A program has one context for all its calls. The library asks `readCb` for the data of an upload, as much at a time as it has room for,
and hands what it receives to `writeCb` in portions. `execCurl` makes one call: it returns a copy of what was received, and leaves the
context empty for the next one.

What the library does in a call is a `Transfer`. An upload goes on until the data are at an end or the library stops asking. Memory is
always to be had.
-/

namespace NvmeDem.Curl

def curleOk : Nat := 0
def curleCouldntConnect : Nat := 7

/-- The context: what was received so far, and what is left to be read, with its size. -/
structure Ctx where
  writeData : List UInt8
  readData : List UInt8
  readSz : Nat
  deriving DecidableEq, Repr

def initCurl : Ctx := { writeData := [], readData := [], readSz := 0 }

/-- What an upload is given when there is room for `len` bytes. -/
def readCb (len : Nat) (ctx : Ctx) : List UInt8 × Ctx :=
  if ctx.readSz = 0 then ([], ctx)
  else if len > ctx.readSz then (ctx.readData.take ctx.readSz, { ctx with readSz := 0 })
  else (ctx.readData.take len, { ctx with readData := ctx.readData.drop len, readSz := ctx.readSz - len })

def writeCb (contents : List UInt8) (ctx : Ctx) : Ctx := { ctx with writeData := ctx.writeData ++ contents }

/-- What the library does in a call: how much room it has each time it asks, what it receives, how the call ends, what `errno` is
then, and the length that the header of the answer gave, -1 if it gave none. -/
structure Transfer where
  rooms : List Nat
  rooms_pos : ∀ room ∈ rooms, 0 < room
  chunks : List (List UInt8)
  code : Nat
  errno : Int
  contentLength : Int

/-- The upload ends when there is nothing more. -/
def upload : List Nat → Ctx → List UInt8 × Ctx
  | [], ctx => ([], ctx)
  | room :: rooms, ctx =>
    let (bytes, ctx) := readCb room ctx
    if bytes = [] then ([], ctx)
    else
      let (more, ctx) := upload rooms ctx
      (bytes ++ more, ctx)

def download (chunks : List (List UInt8)) (ctx : Ctx) : Ctx := chunks.foldl (fun ctx contents => writeCb contents ctx) ctx

/-- The text at the beginning of memory that ends with a zero, cut to a length; a negative one is the largest there is. -/
def strndup (bytes : List UInt8) (n : Int) : List UInt8 :=
  let text := bytes.takeWhile (fun b => b ≠ 0)
  if n < 0 then text else text.take n.toNat

/-- What a call returns, and what it fills in. -/
structure Ret where
  ret : Int
  result : Option (List UInt8)
  deriving DecidableEq, Repr

/-- The end of a call. -/
def execCurl (transfer : Transfer) (ctx : Ctx) : Ret × Ctx :=
  let ctx := download transfer.chunks ctx
  let ret : Ret :=
    if transfer.code = curleOk then { ret := 0, result := some (strndup ctx.writeData transfer.contentLength) }
    else if transfer.code = curleCouldntConnect then { ret := -transfer.errno, result := none }
    else { ret := -einval, result := none }
  (ret, if ctx.writeData.length ≠ 0 then { ctx with writeData := [] } else ctx)

/-- A call: only `exec_put` sends its data through the context. -/
inductive Call where
  | execGet
  | execPut (data : List UInt8)
  | execPost
  | execPatch
  | execDelete
  deriving DecidableEq, Repr

/-- A call as the library carries it out: what is uploaded, and what is returned. -/
def Call.exec (call : Call) (transfer : Transfer) (ctx : Ctx) : (List UInt8 × Ret) × Ctx :=
  match call with
  | .execPut data =>
    let (bytes, ctx) := upload transfer.rooms { ctx with readData := data, readSz := data.length }
    let (ret, ctx) := execCurl transfer ctx
    ((bytes, ret), ctx)
  | _ =>
    let (ret, ctx) := execCurl transfer ctx
    (([], ret), ctx)

/-- The calls of a program, one after the other. -/
def session : List (Call × Transfer) → Ctx → List (List UInt8 × Ret)
  | [], _ => []
  | (call, transfer) :: calls, ctx =>
    let (ret, ctx) := call.exec transfer ctx
    ret :: session calls ctx

end NvmeDem.Curl
