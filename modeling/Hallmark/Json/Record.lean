import Hallmark.Json.Basic
import Hallmark.SortedMap

/-!
# Reading records

Readers take a JSON value to a value of a type, or to nothing when it does not have the form of that type.  A record
is read from an object with its field names, in any order and among other members, or from an array of its fields in
order.
-/

namespace Hallmark.Json

/-- A reader of values of a type. -/
abbrev Reader (α : Type) := Json → Option α

namespace Read

def bool : Reader Bool
  | .bool b => some b
  | _ => none

def string : Reader String
  | .string raw => (Quoted.decode? raw).map String.ofList
  | _ => none

def below (bound : Nat) : Reader Nat
  | .number n => n.natural?.filter (· < bound)
  | _ => none

def u16 : Reader UInt16 := fun j => (below UInt16.size j).map UInt16.ofNat

def u32 : Reader UInt32 := fun j => (below UInt32.size j).map UInt32.ofNat

def u64 : Reader UInt64 := fun j => (below UInt64.size j).map UInt64.ofNat

def float : Reader Binary64
  | .number n => n.binary?
  | _ => none

def nullable {α : Type} (read : Reader α) : Reader (Option α)
  | .null => some none
  | j => (read j).map some

def list {α : Type} (read : Reader α) : Reader (List α)
  | .array items => items.mapM read
  | _ => none

/-- One of several choices by its name: a text, or an object with that name as its only key and null for it. -/
def choice {α : Type} (name : α → String) (choices : List α) : Reader α := fun j => do
  let given ← match j with
    | .object [(key, .null)] => string (.string key)
    | j => string j
  choices.find? fun a => name a == given

/-- A map, whose keys are read from the characters between their quotes.  Of equal keys the last counts. -/
def map {κ υ : Type} [LE κ] [LT κ] [DecidableLT κ] [DecidableEq κ] [Std.IsLinearOrder κ]
    [Std.LawfulOrderLT κ] (key : List Char → Option κ) (read : Reader υ) :
    Reader (SortedMap κ υ)
  | .object members =>
    members.foldlM (fun m (raw, value) => return m.insert (← key raw) (← read value)) .empty
  | _ => none

/-- A text as a key. -/
def stringKey (raw : List Char) : Option String := (Quoted.decode? raw).map String.ofList

/-- A 16-bit number in plain digits as a key. -/
def u16Key (raw : List Char) : Option UInt16 :=
  match Number.scan? raw with
  | some (n, []) => u16 (.number n)
  | _ => none

end Read

/-- The fields of a record that a value gives, by name. -/
structure Record where
  fromArray : Bool
  fields : List (String × Json)

namespace Record

/-- The fields with the given names.  No field may be given twice, and an array may not be longer than the names. -/
def of? (names : List String) : Reader Record
  | .array items => if items.length ≤ names.length then some ⟨true, names.zip items⟩ else none
  | .object members => do
    let named ← members.mapM fun (raw, value) => (Read.stringKey raw).map fun key => (key, value)
    let known := named.filter fun field => names.contains field.1
    if (known.map (·.1)).Nodup then some ⟨false, known⟩ else none
  | _ => none

def required {α : Type} (r : Record) (name : String) (read : Reader α) : Option α :=
  (r.fields.lookup name).bind read

/-- A field with a value for when it is not given. -/
def withDefault {α : Type} (r : Record) (name : String) (fallback : α) (read : Reader α) : Option α :=
  match r.fields.lookup name with
  | some j => read j
  | none => some fallback

/-- A field that may be null or be left out. -/
def optional {α : Type} (r : Record) (name : String) (read : Reader α) : Option (Option α) :=
  r.withDefault name none (Read.nullable read)

/-- A field that may be null, and may be left out of an object but not of an array. -/
def nullable {α : Type} (r : Record) (name : String) (read : Reader α) : Option (Option α) :=
  if r.fromArray then r.required name (Read.nullable read) else r.optional name read

end Record

end Hallmark.Json
