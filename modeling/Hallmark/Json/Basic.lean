import Hallmark.Json.Number
import Hallmark.Json.Quoted

/-!
# JSON values

Values that keep the characters of their strings and the digits of their numbers, and how they are printed and parsed.
-/

namespace Hallmark

/-- A JSON value.  Strings and keys are the characters between the quotes; objects keep the order of their members
and members of equal name. -/
inductive Json where
  | null
  | bool (b : Bool)
  | number (n : Json.Number)
  | string (raw : List Char)
  | array (items : List Json)
  | object (members : List (List Char × Json))
  deriving Repr

namespace Json

def text (s : String) : Json := .string (Quoted.encode s.toList)

def nat (n : Nat) : Json := .number (.ofNat n)

def float (x : Binary64) : Json := .number (.ofBinary x)

def option {α : Type} (write : α → Json) : Option α → Json
  | some a => write a
  | none => .null

def list {α : Type} (write : α → Json) (items : List α) : Json := .array (items.map write)

def record (members : List (String × Json)) : Json :=
  .object (members.map fun (name, value) => (Quoted.encode name.toList, value))

/-- A member that is left out when there is no value. -/
def memberIf {α : Type} (name : String) (write : α → Json) (value : Option α) : List (String × Json) :=
  match value with
  | some a => [(name, write a)]
  | none => []

def quoted (raw : List Char) : List Char := '"' :: raw ++ ['"']

mutual

def compact : Json → List Char
  | .null => ['n', 'u', 'l', 'l']
  | .bool true => ['t', 'r', 'u', 'e']
  | .bool false => ['f', 'a', 'l', 's', 'e']
  | .number n => n.text
  | .string raw => quoted raw
  | .array items => '[' :: compactItems items ++ [']']
  | .object members => '\x7b' :: compactMembers members ++ ['\x7d']

/-- The items of an array, separated by commas. -/
def compactItems : List Json → List Char
  | [] => []
  | [item] => compact item
  | item :: rest => compact item ++ ',' :: compactItems rest

/-- The members of an object, separated by commas. -/
def compactMembers : List (List Char × Json) → List Char
  | [] => []
  | [(key, value)] => quoted key ++ ':' :: compact value
  | (key, value) :: rest => quoted key ++ ':' :: compact value ++ ',' :: compactMembers rest

end

/-- The start of a line at the given depth. -/
def newline (depth : Nat) : List Char := '\n' :: List.replicate (2 * depth) ' '

mutual

/-- A value with every item and member on a line of its own, two blanks deeper than what holds it. -/
def pretty (depth : Nat) : Json → List Char
  | .null => ['n', 'u', 'l', 'l']
  | .bool true => ['t', 'r', 'u', 'e']
  | .bool false => ['f', 'a', 'l', 's', 'e']
  | .number n => n.text
  | .string raw => quoted raw
  | .array [] => ['[', ']']
  | .array items => '[' :: prettyItems (depth + 1) items ++ newline depth ++ [']']
  | .object [] => ['\x7b', '\x7d']
  | .object members => '\x7b' :: prettyMembers (depth + 1) members ++ newline depth ++ ['\x7d']

/-- The items of an array on lines at the given depth. -/
def prettyItems (depth : Nat) : List Json → List Char
  | [] => []
  | [item] => newline depth ++ pretty depth item
  | item :: rest => newline depth ++ pretty depth item ++ ',' :: prettyItems depth rest

/-- The members of an object on lines at the given depth. -/
def prettyMembers (depth : Nat) : List (List Char × Json) → List Char
  | [] => []
  | [(key, value)] => newline depth ++ quoted key ++ ':' :: ' ' :: pretty depth value
  | (key, value) :: rest =>
    newline depth ++ quoted key ++ ':' :: ' ' :: pretty depth value ++ ',' :: prettyMembers depth rest

end

/-- The text of a value without blanks. -/
def toText (value : Json) : String := String.ofList value.compact

/-- The text of a value on several lines. -/
def toPrettyText (value : Json) : String := String.ofList (value.pretty 0)

/-- The text without the blanks at its start. -/
def skipBlanks : List Char → List Char := List.dropWhile fun c => c = ' ' ∨ c = '\t' ∨ c = '\n' ∨ c = '\r'

mutual

/-- The value at the start of a text and what follows it. -/
def value? : (fuel : Nat) → List Char → Option (Json × List Char)
  | 0, _ => none
  | fuel + 1, cs =>
    match skipBlanks cs with
    | 'n' :: 'u' :: 'l' :: 'l' :: rest => some (.null, rest)
    | 't' :: 'r' :: 'u' :: 'e' :: rest => some (.bool true, rest)
    | 'f' :: 'a' :: 'l' :: 's' :: 'e' :: rest => some (.bool false, rest)
    | '"' :: rest => (Quoted.scan? rest).map fun (raw, rest) => (.string raw, rest)
    | '[' :: rest =>
      match skipBlanks rest with
      | ']' :: rest => some (.array [], rest)
      | _ => (items? fuel rest).map fun (items, rest) => (.array items, rest)
    | '\x7b' :: rest =>
      match skipBlanks rest with
      | '\x7d' :: rest => some (.object [], rest)
      | _ => (members? fuel rest).map fun (members, rest) => (.object members, rest)
    | rest => (Number.scan? rest).map fun (n, rest) => (.number n, rest)

/-- The items up to the end of an array, one at least. -/
def items? : (fuel : Nat) → List Char → Option (List Json × List Char)
  | 0, _ => none
  | fuel + 1, cs => do
    let (item, rest) ← value? fuel cs
    match skipBlanks rest with
    | ',' :: rest => (items? fuel rest).map fun (items, rest) => (item :: items, rest)
    | ']' :: rest => some ([item], rest)
    | _ => none

/-- The members up to the end of an object, one at least. -/
def members? : (fuel : Nat) → List Char → Option (List (List Char × Json) × List Char)
  | 0, _ => none
  | fuel + 1, cs =>
    match skipBlanks cs with
    | '"' :: rest => do
      let (key, rest) ← Quoted.scan? rest
      match skipBlanks rest with
      | ':' :: rest =>
        let (value, rest) ← value? fuel rest
        match skipBlanks rest with
        | ',' :: rest => (members? fuel rest).map fun (members, rest) => ((key, value) :: members, rest)
        | '\x7d' :: rest => some ([(key, value)], rest)
        | _ => none
      | _ => none
    | _ => none

end

/-- Reads a text that holds one value and blanks.  Every step of the parser but the one into an array takes up a
character, so twice the length of the text bounds their number. -/
def parse? (s : String) : Option Json :=
  match value? (2 * s.toList.length + 2) s.toList with
  | some (value, rest) => if skipBlanks rest = [] then some value else none
  | none => none

end Json

end Hallmark
