import NvmeDem.Lib.Buffer
import NvmeDem.Store.Basic

/-!
# Lists of names

The functions of `json.c` that write the names of the groups, hosts or targets for a client. They leave the store and return zero. The
text goes into the buffer of the reply, which has `bodySize` bytes. Before the names are written, their lengths are added up, and when
they are too many for this buffer it is reallocated.

The library call for that may give no memory; then the list is left empty. `memory` is what it gives: the bytes behind those that are kept.

A loop whose end is the `int` that holds the number of entries does not come to the entries of an array that is longer than an `int` can
say.
-/

namespace NvmeDem

open Jansson
open Buffer

/-! ## Constants and macros -/

def bodySize : Nat := 1024
def uriParmMode : String := "mode="
def uriParmFabric : String := "fabric="
def parmModeLen : Nat := 5
def parmFabricLen : Nat := 7

def nul : Char := '\x00'

def arrayJsonString (i : Nat) (obj : String) : String := (if i = 0 then "" else ",") ++ "\"" ++ obj ++ "\""

def startJsonArray (tag : String) : String := "\"" ++ tag ++ "\":["

def endJsonArray : String := "]"

/-- Write texts behind each other, each with `sprintf`. -/
def sprintfs (texts : List String) (p : Nat) (resp : Block Char) : Option (Nat × Block Char) :=
  resp.puts nul (texts.map String.toList) p

/-! ## Names of an array -/

/-- The entries that a loop comes to. -/
def counted (array : List Json) : List Json := array.take (cInt array.length).toNat

def strlenArray (array : List Json) (tag : String) : Int :=
  (counted array).foldl (fun n iter =>
    match iter.strField tag with
    | some obj => cInt (n + (obj.length + 4))
    | none => n) 0

def listEntry (tag : String) (iter : Json × Nat) : Option String := (iter.1.strField tag).map (arrayJsonString iter.2)

/-- The texts of the names. An entry without a name is passed over, but the next one has a comma. -/
def listArray (array : List Json) (tag : String) : List String := (counted array).zipIdx.filterMap (listEntry tag)

/-- The texts of names that are counted as they are written. -/
def writeNames (names : List String) : List String := names.zipIdx.map (fun name => arrayJsonString name.2 name.1)

/-- The aliases of the targets that have a port of the type, one for each of these ports. -/
def fabricNames (array : List Json) (type : String) : List String :=
  (counted array).flatMap (fun iter =>
    (counted (iter.entries tagPortids)).filterMap (fun obj =>
      if obj.strField tagType = some type then iter.strField tagAlias else none))

def modeNames (array : List Json) (mode : String) : List String :=
  (counted array).filterMap (fun iter => if iter.strField tagMgmtMode = some mode then iter.strField tagAlias else none)

/-- What follows the name of a parameter in a query. -/
def parmValue (query : String) (n : Nat) : String := String.ofList (query.toList.drop n)

def hasParm (query parm : String) : Bool := parm.toList.isPrefixOf query.toList

def filterFabric (array : List Json) (query : String) : List String :=
  writeNames (fabricNames array (parmValue query parmFabricLen))

def filterMode (array : List Json) (query : String) : List String :=
  writeNames (modeNames array (parmValue query parmModeLen))

/-! ## The lists -/

/-- Grow the buffer for the names of an array when their lengths say so, and write. `write` is given the array, the sum of the lengths
and its place. -/
def growAndWrite (nameTag : String) (write : List Json → Int → Nat → Block Char → Option (Nat × Block Char))
    (memory : Option (Nat → Char)) : Option Json → Nat → Block Char → Option (Nat × Block Char)
  | none, p, resp => some (p, resp)
  | some array, p, resp =>
    let n := strlenArray array.elems nameTag
    if (bodySize : Int) - 32 < n then
      match memory with
      | none => some (p, resp)
      | some fresh => write array.elems n p (resp.resize ((bodySize : Int) - 32 + (n - bodySize)).toNat fresh)
    else write array.elems n p resp

/-- The list of what `write` writes for the array under a tag. -/
def listNames (tag nameTag : String) (write : List Json → Int → Nat → Block Char → Option (Nat × Block Char)) (root : Json)
    (memory : Option (Nat → Char)) (offset : Nat) (resp : Block Char) : Option (Nat × Block Char) := do
  let (p, resp) ← sprintfs [startJsonArray tag] offset resp
  let (p, resp) ← growAndWrite nameTag write memory (root.objectGet tag) p resp
  sprintfs [endJsonArray] p resp

/-- The buffer as it is when a request comes in. -/
def newResp : Block Char := { size := bodySize, cell := fun _ => nul }

/-- The list between braces. -/
def listText (tag nameTag : String) (write : List Json → Int → Nat → Block Char → Option (Nat × Block Char)) (root : Json)
    (memory : Option (Nat → Char)) : Option (Nat × Block Char) := do
  let (n, resp) ← sprintfs ["\x7b"] 0 newResp
  let (p, resp) ← listNames tag nameTag write root memory n resp
  sprintfs ["\x7d"] p resp

def listJson (tag nameTag : String) (write : List Json → Int → Nat → Block Char → Option (Nat × Block Char)) (root : Json)
    (memory : Option (Nat → Char)) : Except Fault (Block Char) :=
  match listText tag nameTag write root memory with
  | none => .error .outOfBounds
  | some (_, resp) => .ok resp

def writeArray (tag : String) (array : List Json) (_ : Int) (p : Nat) (resp : Block Char) : Option (Nat × Block Char) :=
  sprintfs (listArray array tag) p resp

/-- Nothing is written, but the place moves by the sum of the lengths. -/
def leaveGap (_ : List Json) (n : Int) (p : Nat) (resp : Block Char) : Option (Nat × Block Char) :=
  -- A place before the buffer is not written yet, but the end of the list comes next.
  if 0 ≤ p + n then some ((p + n).toNat, resp) else none

/-- A query that is neither for a mode nor for a fabric leaves a gap. -/
def writeTargets (query : Option String) (array : List Json) (n : Int) (p : Nat) (resp : Block Char) :
    Option (Nat × Block Char) :=
  match query with
  | none => writeArray tagAlias array n p resp
  | some query =>
    if hasParm query uriParmMode then sprintfs (filterMode array query) p resp
    else if hasParm query uriParmFabric then sprintfs (filterFabric array query) p resp
    else leaveGap array n p resp

def listJsonGroup (root : Json) (memory : Option (Nat → Char)) : Except Fault (Block Char) :=
  listJson tagGroups tagName (writeArray tagName) root memory

def listJsonHost (root : Json) (memory : Option (Nat → Char)) : Except Fault (Block Char) :=
  listJson tagHosts tagAlias (writeArray tagAlias) root memory

def listJsonTarget (query : Option String) (root : Json) (memory : Option (Nat → Char)) : Except Fault (Block Char) :=
  listJson tagTargets tagAlias (writeTargets query) root memory

end NvmeDem
