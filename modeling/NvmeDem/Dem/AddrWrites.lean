import NvmeDem.Dem.Address

/-!
# The writes of the address parser

The parser of addresses puts the characters of a number into a buffer of eight, and looks at how many there are when the number ends. The
numbers go into the array of its caller. Here the buffer and the array are cells, written or not, and a write is to a cell that there is or it
is a fault. What comes out of it is `stringToAddr`, apart from which cells are written.
-/

namespace NvmeDem.AddrWrites

/-- A text in memory, without the zero that ends it. -/
def CText : Type := { text : List Char // '\x00' ∉ text }

def put {α : Type} (cells : List (Option α)) (i : Nat) (x : α) : Except Fault (List (Option α)) :=
  if i < cells.length then .ok (cells.set i (some x)) else .error .outOfBounds

/-- The text in a buffer up to its zero, for a reader that may not come to a cell that was not written. -/
def textOf : List (Option Char) → Except Fault (List Char)
  | [] => .error .outOfBounds
  | none :: _ => .error .outOfBounds
  | some c :: cells => if c = '\x00' then .ok [] else (textOf cells).map (fun text => c :: text)

/-- How the parser ends: at a number that is too wide, or with zero or a prefix length. -/
inductive Ret where
  | tooWide
  | done (ret : Int)
  deriving DecidableEq, Repr

structure AddrMem where
  ret : Ret
  addr : List (Option Int)
  text : List Char
  deriving DecidableEq, Repr

/-- A number ends: the buffer and the array, or nothing where it is too wide. -/
def endNumber (width : Nat) (nibble : List (Option Char)) (z j : Nat) (addr : List (Option Int)) :
    Except Fault (Option (List (Option Char) × List (Option Int))) :=
  if z ≠ 0 then
    if width < z then .ok none
    else do
      let nibble ← put nibble z '\x00'
      let number ← textOf nibble
      let addr ← put addr j (atoi number)
      return some (nibble, addr)
  else do
    let addr ← put addr j 0
    return some (nibble, addr)

/-- `for (; j < len; j++)`, in `len - j` turns. -/
def padZeros : Nat → Nat → List (Option Int) → Except Fault (List (Option Int))
  | 0, _, addr => .ok addr
  | turns + 1, j, addr => do
    let addr ← put addr j 0
    padZeros turns (j + 1) addr

/-- What is behind the loop over the text. -/
def afterLoop (len j : Nat) (seen rest : List Char) (addr : List (Option Int)) : Except Fault AddrMem := do
  let addr ← padZeros (len - j) j addr
  if rest.head? = some '/' then return { ret := .done (atoi rest.tail), addr := addr, text := seen }
  else return { ret := .done 0, addr := addr, text := seen ++ rest }

def addrLoop (len width : Nat) (delim : Char) :
    List Char → List Char → List (Option Char) → Nat → Nat → List (Option Int) → Except Fault AddrMem
  | seen, [], nibble, z, j, addr =>
    if j < len then do
      match ← endNumber width nibble z j addr with
      | none => return { ret := .tooWide, addr := addr, text := seen }
      | some (_, addr) => afterLoop len (j + 1) seen [] addr
    else afterLoop len j seen [] addr
  | seen, c :: rest, nibble, z, j, addr =>
    if j < len then
      if c = delim ∨ c = '/' then do
        match ← endNumber width nibble z j addr with
        | none => return { ret := .tooWide, addr := addr, text := seen ++ c :: rest }
        | some (nibble, addr) =>
          if c = '/' then afterLoop len (j + 1) seen (c :: rest) addr
          else addrLoop len width delim (seen ++ [c]) rest nibble 0 (j + 1) addr
      else do
        let nibble ← put nibble z c
        addrLoop len width delim (seen ++ [c]) rest nibble (z + 1) j addr
    else afterLoop len j seen (c :: rest) addr

/-- `string_to_addr`, on a buffer and an array that are not written yet. -/
def stringToAddr (p : CText) (len width : Nat) (delim : Char) : Except Fault AddrMem :=
  addrLoop len width delim [] p.val (List.replicate nibbleSize none) 0 0 (List.replicate len none)

/-! ## The formats -/

inductive Format where
  | ipv4
  | ipv6
  | fc
  deriving DecidableEq, Repr

def Format.len : Format → Nat
  | .ipv4 => 4
  | .ipv6 => 8
  | .fc => 8

def Format.width : Format → Nat
  | .ipv4 => 3
  | .ipv6 => 4
  | .fc => 2

def Format.delim : Format → Char
  | .ipv4 => '.'
  | .ipv6 => ':'
  | .fc => ':'

/-- `ipv4_to_addr`, `ipv6_to_addr` and `fc_to_addr`. -/
def toAddr (format : Format) (p : CText) : Except Fault AddrMem := stringToAddr p format.len format.width format.delim

end NvmeDem.AddrWrites
