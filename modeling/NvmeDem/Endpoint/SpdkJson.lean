import NvmeDem.Lib.Json
import NvmeDem.Store.Basic

/-!
# Objects in the replies of a back end

The back end of a manager is asked in JSON, and the library that comes with it parses a reply into an array of values: one for a scalar, and for
an array or an object one that begins it, those inside and one that ends it. The one that begins it says how many are inside.

The manager walks through the values of an object, and decodes the fields that are in its table. What it uses of the library is a parameter here,
with what the library documents. Memory for the marks of the fields it has seen is always to be had.
-/

namespace NvmeDem.SpdkJson

open Jansson (Json)

/-! ## Values -/

inductive ValType where
  | null
  | true
  | false
  | number
  | string
  | arrayBegin
  | arrayEnd
  | objectBegin
  | objectEnd
  | name
  deriving DecidableEq, Repr

/-- A value of the parser: its text, and for one that begins an array or an object how many values are inside. -/
structure Val where
  type : ValType
  text : String := ""
  len : Nat := 0
  deriving DecidableEq, Repr

mutual

/-- The values that a document is parsed into. -/
def values : Json → List Val
  | .null => [{ type := .null }]
  | .bool b => [{ type := if b then .true else .false }]
  | .integer n => [{ type := .number, text := toString n }]
  | .real text => [{ type := .number, text := text }]
  | .string s => [{ type := .string, text := s }]
  | .array elems => { type := .arrayBegin, len := (elemValues elems).length } :: (elemValues elems ++ [{ type := .arrayEnd }])
  | .object fields => { type := .objectBegin, len := (fieldValues fields).length } :: (fieldValues fields ++ [{ type := .objectEnd }])

def elemValues : List Json → List Val
  | [] => []
  | elem :: elems => values elem ++ elemValues elems

def fieldValues : List (String × Json) → List Val
  | [] => []
  | (name, v) :: fields => { type := .name, text := name } :: (values v ++ fieldValues fields)

end

/-- What the manager uses of the library: how many values a value has, and whether a value is a text. -/
structure Library where
  valLen : Val → Nat
  strequal : Val → String → Bool
  valLen_begin : ∀ v, v.type = .arrayBegin ∨ v.type = .objectBegin → valLen v = v.len + 2
  valLen_other : ∀ v, v.type ≠ .arrayBegin → v.type ≠ .objectBegin → valLen v = 1
  strequal_iff : ∀ v text, strequal v text = true ↔ (v.type = .string ∨ v.type = .name) ∧ v.text = text

/-! ## Decoding an object -/

/-- An entry of a table: `decodeFunc` is what the decoder returns for the values of a field, and `store` what it does to the record. -/
structure Decoder (σ : Type) where
  name : String
  optional : Bool
  decodeFunc : List Val → Int
  store : List Val → σ → σ

/-- The state of the loop. -/
structure Decoding (σ : Type) where
  seen : List Bool
  invalid : Bool
  out : σ

variable {σ : Type} (lib : Library) (decoders : List (Decoder σ))

/-- The inner loop: the first entry that has the name of the field. -/
def decodeField (name : Val) (v : List Val) (s : Decoding σ) : Decoding σ :=
  match decoders.zipIdx.find? (fun dec => lib.strequal name dec.1.name) with
  | none => s
  | some (dec, decidx) => { seen := s.seen.set decidx true, invalid := dec.decodeFunc v ≠ 0, out := dec.store v s.out }

/-- The outer loop, from the `i`-th value inside of the object. -/
def decodeLoop (vals : List Val) (len i : Nat) (s : Decoding σ) : Except Fault (Decoding σ) :=
  if i < len then
    match vals[i + 1]?, vals[i + 2]? with
    | some name, some v =>
      decodeLoop vals len (i + (1 + lib.valLen v))
        (decodeField lib decoders name ((vals.drop (i + 2)).take (lib.valLen v)) s)
    | _, _ => .error .outOfBounds
  else .ok s
termination_by len - i

/-- `my_decode_object`: what it returns, and the record. -/
def myDecodeObject (vals : Option (List Val)) (out : σ) : Except Fault (Int × σ) :=
  match vals with
  | none => .ok (-1, out)
  | some [] => .error .outOfBounds
  | some (first :: rest) =>
    if first.type ≠ .objectBegin then .ok (-1, out)
    else
      (decodeLoop lib decoders (first :: rest) first.len 0 { seen := List.replicate decoders.length false, invalid := false, out := out }).map
        (fun s =>
          let missing := (decoders.zip s.seen).any (fun dec => !dec.1.optional && !dec.2)
          (if s.invalid || missing then -1 else 0, s.out))

/-! ## Tables -/

/-- `my_decode_string`. Memory for a copy is always to be had. -/
def myDecodeString : List Val → Int
  | v :: _ => if v.type = .string ∨ v.type = .name then 0 else -einval
  | [] => -einval

structure Subsys where
  nqn : String := ""
  subtype : String := ""
  deriving DecidableEq, Repr

/-- The text that is stored of a field that is one. -/
def copyOf (old : String) : List Val → String
  | v :: _ => if v.type = .string ∨ v.type = .name then v.text else old
  | [] => old

/-- `subsys_decoders`, with what becomes of the namespaces of a subsystem. -/
def subsysDecoders (nsParse : List Val → Int) : List (Decoder Subsys) :=
  [{ name := "nqn", optional := false, decodeFunc := myDecodeString, store := fun v out => { out with nqn := copyOf out.nqn v } },
    { name := "subtype", optional := false, decodeFunc := myDecodeString, store := fun v out => { out with subtype := copyOf out.subtype v } },
    { name := "namespaces", optional := true, decodeFunc := nsParse, store := fun _ out => out }]

end NvmeDem.SpdkJson
