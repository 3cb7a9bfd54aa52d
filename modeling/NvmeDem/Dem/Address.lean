import NvmeDem.Store.Basic

/-!
# Addresses of ports

The text of an address is cut at its delimiter into numbers: four for IPv4, eight for IPv6 and for a fibre channel. It may end
in a slash and a prefix length, which the parser returns, and it cuts the text there.

Transports and address families have names and numbers. The table from names to numbers is shorter than the one back: a name
that it does not have becomes zero.
-/

namespace NvmeDem

/-! ## Numbers -/

def isSpace (c : Char) : Bool := c == ' ' || ('\t' ≤ c && c ≤ '\r')

/-- The number that a run of digits makes, and no more than a C `long` holds of it. -/
def digitsValue (limit : Nat) : Nat → List Char → Nat
  | acc, [] => acc
  | acc, c :: cs =>
    if c.isDigit then digitsValue limit (min limit (acc * 10 + (c.toNat - '0'.toNat))) cs else acc

/-- `atoi`: leading space, a sign, digits; the C library reads a `long` and keeps an `int` of it. -/
def atoi (cs : List Char) : Int :=
  match cs.dropWhile isSpace with
  | '-' :: ds => cInt (-(digitsValue (2 ^ 63) 0 ds : Int))
  | '+' :: ds => cInt (digitsValue (2 ^ 63 - 1) 0 ds)
  | ds => cInt (digitsValue (2 ^ 63 - 1) 0 ds)

/-! ## Names of transports and address families -/

def trtypeStr (trtype : UInt8) : String :=
  if trtype = 1 then "rdma" else if trtype = 2 then "fc" else if trtype = 3 then "tcp"
  else if trtype = 254 then "loop" else "unrecognized"

def toTrtype (str : String) : UInt8 := if str = "rdma" then 1 else if str = "fc" then 2 else if str = "tcp" then 3 else 0

def adrfamStr (adrfam : UInt8) : String :=
  if adrfam = 0 then "pci" else if adrfam = 1 then "ipv4" else if adrfam = 2 then "ipv6" else if adrfam = 3 then "ib"
  else if adrfam = 4 then "fc" else "unrecognized"

def toAdrfam (str : String) : UInt8 := if str = "ipv4" then 1 else if str = "ipv6" then 2 else if str = "fc" then 4 else 0

/-! ## Addresses -/

/-- The size of the buffer for one number of an address. -/
def nibbleSize : Nat := 8

/-- What the parser gives back: its return value, the numbers and the text that is left of the address. -/
structure AddrOut where
  ret : Int
  addr : List Int
  text : List Char
  deriving DecidableEq, Repr

/-- The numbers of an address that were not in its text. -/
def padAddr (len : Nat) (addr : List Int) : List Int := addr ++ List.replicate (len - addr.length) 0

/-- The loop of `stringToAddr`: the text before the place it is at, what is left of it, the number being read and the numbers
read. A number longer than its buffer is written past the end. -/
def stringToAddrLoop (len width : Nat) (delim : Char) :
    List Char → List Char → List Char → List Int → Except Fault AddrOut
  | seen, [], nibble, addr =>
    -- The terminating zero ends the last number.
    if addr.length < len then
      if width < nibble.length then .ok { ret := -1, addr := addr, text := seen }
      else .ok { ret := 0, addr := padAddr len (addr ++ [atoi nibble]), text := seen }
    else .ok { ret := 0, addr := addr, text := seen }
  | seen, c :: rest, nibble, addr =>
    if addr.length < len then
      if c = delim ∨ c = '/' then
        if width < nibble.length then .ok { ret := -1, addr := addr, text := seen ++ c :: rest }
        else if c = '/' then .ok { ret := atoi rest, addr := padAddr len (addr ++ [atoi nibble]), text := seen }
        else stringToAddrLoop len width delim (seen ++ [c]) rest [] (addr ++ [atoi nibble])
      else if nibble.length < nibbleSize then
        stringToAddrLoop len width delim (seen ++ [c]) rest (nibble ++ [c]) addr
      else .error .outOfBounds
    -- All numbers were read; a slash right behind the last one is still looked for.
    else if c = '/' then .ok { ret := atoi rest, addr := addr, text := seen }
    else .ok { ret := 0, addr := addr, text := seen ++ c :: rest }

def stringToAddr (p : String) (len width : Nat) (delim : Char) : Except Fault AddrOut :=
  stringToAddrLoop len width delim [] p.toList [] []

def ipv4ToAddr (p : String) : Except Fault AddrOut := stringToAddr p 4 3 '.'
def ipv6ToAddr (p : String) : Except Fault AddrOut := stringToAddr p 8 4 ':'
def fcToAddr (p : String) : Except Fault AddrOut := stringToAddr p 8 2 ':'

end NvmeDem
