import NvmeDem.Dem.Load
import NvmeDem.Lib.Stdio

/-!
# Interface files

An interface of the daemon or of an endpoint comes from a file of lines `tag = value`, with blanks, quotes and comments. Five scanners read
a line, each a loop over the characters; a scanner that returns a code other than zero ends the line, and what is left of the line is
skipped in any case. A line that sets none of the known tags, or that is no good, leaves the record of the interface as it was.

A scanner of words returns what it wrote in its buffer only with the code zero, as no caller looks at the buffer otherwise.
-/

namespace NvmeDem.IfaceFile

open Stdio

/-! ## Characters -/

def isWhitespace (c : Char) : Bool := c = ' ' || c = '\t' || c = '\r'
def isQuote (c : Char) : Bool := c = '\x27' || c = '\x22'
def isEol (c : Char) : Bool := c = '\n' || c = eof

def comment : Char := '#'
def equal : Char := '='
def maxEqual : Nat := 2
def largestTag : Nat := 8
def largestVal : Nat := 40

/-! ## Scanners -/

def consumeLine : Scan Int Unit :=
  whileNotEof (fun _ c => if isEol c then .stop (.ok ()) else .next ()) (fun _ => .error 1) ()

def whitespaceTurn (_ : Unit) (c : Char) : Turn Unit (Except Int Unit) :=
  if c = comment then .stop (.error 1)
  else if !isWhitespace c || isEol c then .back (.ok ())
  else .next ()

def consumeWhitespace : Scan Int Unit := whileNotEof whitespaceTurn (fun _ => .error 1) ()

/-- What a scanner returns that leaves its loop: an empty word is the code 1. -/
def written (word : List Char) : Except Int (List Char) := if word = [] then .error 1 else .ok word

/-- A turn of the loop over a word: the characters written so far, and whether a quote is open. A quote is not written; blanks and the
end of the line end the word inside of quotes, too. -/
def wordTurn (n : Nat) (s : List Char × Bool) (c : Char) : Turn (List Char × Bool) (Except Int (List Char)) :=
  if c = comment ∧ s.2 = false then .stop (written s.1)
  else if isQuote c then .next (s.1, !s.2)
  else if isWhitespace c || isEol c || c = equal then .back (written s.1)
  else if s.1.length + 1 = n then .stop (written (s.1 ++ [c]))
  else .next (s.1 ++ [c], s.2)

def parseWord (n : Nat) : Scan Int (List Char) := whileNotEof (wordTurn n) (fun s => written s.1) ([], false)

def equalTurn (n : Nat) (word : List Char) (c : Char) : Turn (List Char) (Except Int (List Char)) :=
  if c = comment then .stop (written word)
  else if c ≠ equal then .back (written word)
  else if word.length + 1 = n then .stop (written (word ++ [c]))
  else .next (word ++ [c])

def parseEqual (n : Nat) : Scan Int (List Char) := whileNotEof (equalTurn n) written []

/-! ## Lines -/

/-- What `parse_line` reads behind the blanks that follow a tag. -/
def behindTag (valueMax : Nat) (tag : List Char) : Scan Int (List Char × List Char) := do
  let sign ← parseEqual maxEqual
  if sign ≠ [equal] then Scan.fail (-1)
  else do
    consumeWhitespace
    let value ← parseWord valueMax
    return (tag, value)

/-- The part of `parse_line` before its label `out`. -/
def parseFields (tagMax valueMax : Nat) : Scan Int (List Char × List Char) := do
  consumeWhitespace
  let tag ← parseWord tagMax
  consumeWhitespace
  behindTag valueMax tag

/-- Read a line: a code other than zero, or the tag and the value. -/
def parseLine (tagMax valueMax : Nat) : Scan Int (List Char × List Char) := fun fd =>
  ((parseFields tagMax valueMax fd).1, (consumeLine (parseFields tagMax valueMax fd).2).2)

/-- A buffer as a text: up to the first zero. -/
def cText (word : List Char) : List Char := word.takeWhile (fun c => c ≠ '\x00')

/-- Two texts are the same but for the case of letters. -/
def sameCase (word : List Char) (tag : String) : Bool := (cText word).map Char.toLower = tag.toList.map Char.toLower

/-- A value copied into a field of the record, which is zeroed behind it. -/
def copied (size : Nat) (value : List Char) : String := String.ofList ((cText value).take size)

/-! ## The daemon -/

/-- An interface of the daemon. -/
structure HostIface where
  type : String := ""
  family : String := ""
  address : String := ""
  port : String := ""
  deriving DecidableEq, Repr

def HostIface.set (iface : HostIface) (tag val : List Char) : HostIface :=
  if sameCase tag tagType then { iface with type := copied configTypeSize val }
  else if sameCase tag tagFamily then { iface with family := copied configFamilySize val }
  else if sameCase tag tagAddress then { iface with address := copied configAddressSize val }
  else if sameCase tag tagTrsvcid then { iface with port := copied configPortSize val }
  else iface

/-- `read_dem_config`, given what it does with a tag and a value. -/
def readConfig {ι : Type} (set : ι → List Char → List Char → ι) (iface : ι) (fd : File) : ι × File :=
  match parseLine largestTag largestVal fd with
  | (.ok (tag, val), fd) => (set iface tag val, fd)
  | (.error _, fd) => (iface, fd)

def readDemConfig : HostIface → File → HostIface × File := readConfig HostIface.set

/-! ## The endpoint -/

def setPortid (iface : Portid) (tag val : List Char) : Portid :=
  if sameCase tag tagType then { iface with type := copied configTypeSize val }
  else if sameCase tag tagFamily then { iface with family := copied configFamilySize val }
  else if sameCase tag tagAddress then { iface with address := copied configAddressSize val }
  else iface

def readPortidConfig : Portid → File → Portid × File := readConfig setPortid

end NvmeDem.IfaceFile
