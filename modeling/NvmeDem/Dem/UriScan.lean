import NvmeDem.Dem.Rest
import NvmeDem.Store.Listing

/-!
# How a URI is split in place

`parse_uri` works on a copy of the URI with a zero behind it. It walks over the copy, puts a zero in the place of each slash and stores a
pointer to what comes next. A pointer is here the index of a character in the copy, and a character outside of it, or a place outside of the
array of the parts, is not read or written. The function of the daemon and the one of an endpoint share the loop; only the first skips a
scheme, looks at the last part that it stored, and counts it.
-/

namespace NvmeDem.UriScan

/-- What the loop leaves: the copy, the index of the last part, and the array of the parts. -/
structure Scan where
  mem : List Char
  i : Int
  part : List (Option Nat)
  deriving DecidableEq, Repr

/-- The loop of `parse_uri`, from the character at `p`. -/
def scan (mem : List Char) (p : Nat) (i : Int) (depth : Nat) (part : List (Option Nat)) : Except Fault Scan :=
  if depth = 0 then .ok { mem := mem, i := i, part := part }
  else
    match h : mem[p]? with
    | none => .error .outOfBounds
    | some c =>
      if c = nul then .ok { mem := mem, i := i, part := part }
      else if c = '/' then
        -- With the last of the depth the loop ends, and the part is not stored.
        if depth - 1 = 0 then scan (mem.set p nul) (p + 1) (i + 1) (depth - 1) part
        else if 0 ≤ i + 1 ∧ i + 1 < part.length then
          scan (mem.set p nul) (p + 1) (i + 1) (depth - 1) (part.set (i + 1).toNat (some (p + 1)))
        else .error .outOfBounds
      else scan mem (p + 1) i depth part
termination_by mem.length - p
decreasing_by
  all_goals have hlt : p < mem.length := (List.getElem?_eq_some_iff.mp h).1
  · rw [List.length_set]
    omega
  · rw [List.length_set]
    omega
  · omega

/-- `parse_uri` of the daemon: what it returns, and what it leaves. -/
def demParseUri (uri : List Char) (depth : Nat) (part : List (Option Nat)) : Except Fault (Int × Scan) := do
  let mem := uri ++ [nul]
  let s ← scan mem (if mem.head? = some '/' then 0 else 6) (-1) (depth + 1) part
  if 0 ≤ s.i then
    match s.part[s.i.toNat]? with
    | none => .error .outOfBounds
    | some ptr => return (if ptr.isSome then s.i + 1 else s.i, s)
  else return (s.i, s)

/-- `parse_uri` of an endpoint. -/
def endpointParseUri (uri : List Char) (depth : Nat) (part : List (Option Nat)) : Except Fault (Int × Scan) := do
  let s ← scan (uri ++ [nul]) 0 (-1) (depth + 1) part
  return (s.i, s)

/-- The array of the parts as a request begins. -/
def noParts : List (Option Nat) := List.replicate Rest.maxDepth none

/-- The string at a pointer. -/
def stringAt (mem : List Char) (p : Nat) : List Char := (mem.drop p).takeWhile (· ≠ nul)

/-- The parts as the handlers read them. -/
def Scan.parts (s : Scan) : List (Option (List Char)) := s.part.map (Option.map (stringAt s.mem))

end NvmeDem.UriScan
