import NvmeDem.Store.Basic

/-!
# The signature of the administrator

A request that has an Authorization header is served if the value of the header is the signature of the daemon. A request may change the
signature, given the old one; the new one is written to a file, from which it is read when the daemon starts.

The signature is a string of the HTTP library, which the daemon has made of a buffer that it gives back at once. Whether such a string has memory
of its own is a parameter here, as is the comparison of one with a text. Memory is always to be had, and a file that is open takes what is written.
-/

namespace NvmeDem.Signature

open Jansson (Json)

def tagOld : String := "OLD"
def tagNew : String := "NEW"

def eperm : Int := 1

/-- What the daemon uses of the HTTP library. -/
structure Mongoose where
  /-- `mg_mk_str_n` copies the text, and does not only point to it. -/
  copies : Bool
  /-- `mg_vcmp` of the text of a string with another text. -/
  vcmp : List Char → List Char → Int

/-- A string of the library: the memory it points to, if that was not given back, and its length. -/
structure MgStr where
  p : Option (List Char)
  len : Nat
  deriving DecidableEq, Repr

/-- What is read of a string. -/
def MgStr.read (s : MgStr) : Except Fault (List Char) :=
  match s.p with
  | none => .error .freed
  | some text => .ok (text.take s.len)

/-- `mg_mk_str_n` of a buffer, which is freed behind it. -/
def mgMkStrN (mg : Mongoose) (buf : List Char) (len : Nat) : MgStr :=
  { p := if mg.copies then some (buf.take len) else none, len := len }

/-- The signature that is in force: whether it was set, its string, and the file of signatures. -/
structure State where
  user : Bool
  signature : MgStr
  file : Option (List Char)
  deriving DecidableEq, Repr

/-- The text of a C string. -/
def cText (s : String) : List Char := s.toList.takeWhile (fun c => c ≠ '\x00')

def basic : List Char := "Basic ".toList

def defaultText : List Char := "Basic QjU6v9wxOTU4QGBlgPztOCQ6QTsD".toList

/-- The daemon before it looks for a file. -/
def start (file : Option (List Char)) : State :=
  { user := false, signature := { p := some defaultText, len := defaultText.length }, file := file }

/-! ## Requests -/

/-- `is_equal` of the value of a header with the signature. -/
def isEqual (header : List Char) (s : MgStr) : Except Fault Bool :=
  if header.length ≠ s.len then .ok false else s.read.map (fun text => header = text)

structure Updated where
  ret : Int
  resp : String
  state : State
  deriving DecidableEq, Repr

def invalid (s : State) : Updated := { ret := -einval, resp := "invalid json syntax", state := s }

/-- What `update_signature` does with the two texts of a request. -/
def replaceSignature (mg : Mongoose) (opened : Bool) (old new : List Char) (s : State) : Except Fault Updated :=
  s.signature.read.bind (fun text =>
    if mg.vcmp text (basic ++ old) ≠ 0 then .ok (invalid s)
    else if !opened then .ok { ret := -eperm, resp := "unable to update", state := s }
    -- The string of an earlier update is freed.
    else if s.user = true ∧ s.signature.p = none then .error .freed
    else
      let buf := basic ++ new
      .ok { ret := 0, resp := "update successful", state := { user := true, signature := mgMkStrN mg buf (6 + new.length), file := some new } })

def updateSignature (mg : Mongoose) (J : JsonLib) (opened : Bool) (data : String) (s : State) : Except Fault Updated :=
  if data.length = 0 then .ok (invalid s)
  else
    match J.loads data with
    | none => .ok (invalid s)
    | some request =>
      match request.strField tagOld, request.strField tagNew with
      | some old, some new => replaceSignature mg opened (cText old) (cText new) s
      | _, _ => .ok (invalid s)

/-! ## The start of the daemon -/

/-- The characters that `fgets` reads into a buffer with room for `n` of them besides the zero: to a newline, and with it. -/
def fgets : Nat → List Char → List Char
  | 0, _ => []
  | _, [] => []
  | n + 1, c :: rest => if c = '\n' then [c] else c :: fgets n rest

def sizeofBuf : Nat := 256

/-- A copy of a text with its zero into so many bytes. -/
def copyInto (size : Nat) (text : List Char) : Except Fault (List Char) := if text.length + 1 ≤ size then .ok text else .error .outOfBounds

/-- `set_signature`, of a daemon that starts with a file of signatures or without. -/
def setSignature (mg : Mongoose) (file : Option (List Char)) : Except Fault State :=
  match file with
  | none => .ok (start none)
  | some contents =>
    let buf := (basic ++ fgets (sizeofBuf - 7 - 1) contents).takeWhile (fun c => c ≠ '\x00')
    if buf.length = 0 then .ok (start (some contents))
    else
      -- The zero goes behind the newline, and the length is one less than that of the text.
      let len := if buf.getLast? = some '\n' then buf.length - 1 else buf.length
      (copyInto (len + 1) buf).map (fun sig => { user := true, signature := mgMkStrN mg sig len, file := some contents })

end NvmeDem.Signature
