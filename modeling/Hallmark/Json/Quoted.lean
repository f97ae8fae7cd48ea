/-!
# Strings in JSON

The characters between the quotes of a string, as they are written and as they are meant.
-/

namespace Hallmark.Json.Quoted

def hexValue? (c : Char) : Option Nat :=
  if '0' ≤ c ∧ c ≤ '9' then some (c.toNat - '0'.toNat)
  else if 'a' ≤ c ∧ c ≤ 'f' then some (c.toNat - 'a'.toNat + 10)
  else if 'A' ≤ c ∧ c ≤ 'F' then some (c.toNat - 'A'.toNat + 10)
  else none

def unit? (a b c d : Char) : Option Nat := do
  return (((← hexValue? a) * 16 + (← hexValue? b)) * 16 + (← hexValue? c)) * 16 + (← hexValue? d)

/-- The character that a backslash and a single character stand for. -/
def escaped? : Char → Option Char
  | '"' => some '"'
  | '\\' => some '\\'
  | '/' => some '/'
  | 'b' => some '\x08'
  | 'f' => some '\x0c'
  | 'n' => some '\n'
  | 'r' => some '\r'
  | 't' => some '\t'
  | _ => none

/-- The characters up to the closing quote, as they are written, and what follows it.  Every escape must be one that
the format knows, and control characters are not allowed. -/
def scan? : List Char → Option (List Char × List Char)
  | [] => none
  | '"' :: rest => some ([], rest)
  | '\\' :: 'u' :: a :: b :: c :: d :: rest =>
    if (unit? a b c d).isSome then (scan? rest).map fun (raw, rest) => ('\\' :: 'u' :: a :: b :: c :: d :: raw, rest)
    else none
  | '\\' :: c :: rest =>
    if (escaped? c).isSome then (scan? rest).map fun (raw, rest) => ('\\' :: c :: raw, rest) else none
  | c :: rest =>
    if c = '\\' ∨ c < ' ' then none else (scan? rest).map fun (raw, rest) => (c :: raw, rest)

/-- The text that the characters between the quotes mean.  Escaped surrogates must come in pairs. -/
def decode? : List Char → Option (List Char)
  | [] => some []
  | '\\' :: 'u' :: a :: b :: c :: d :: rest => do
    let first ← unit? a b c d
    if 0xdc00 ≤ first ∧ first < 0xe000 then none
    else if 0xd800 ≤ first ∧ first < 0xdc00 then
      match rest with
      | '\\' :: 'u' :: a :: b :: c :: d :: rest =>
        let second ← unit? a b c d
        if 0xdc00 ≤ second ∧ second < 0xe000 then
          let code := 0x10000 + (first - 0xd800) * 0x400 + (second - 0xdc00)
          (decode? rest).map (Char.ofNat code :: ·)
        else none
      | _ => none
    else (decode? rest).map (Char.ofNat first :: ·)
  | '\\' :: c :: rest => do
    let meant ← escaped? c
    (decode? rest).map (meant :: ·)
  | c :: rest => (decode? rest).map (c :: ·)

/-- A character as it is written between quotes: quotes, backslashes and control characters are escaped. -/
def encodeChar (c : Char) : List Char :=
  match c with
  | '"' => ['\\', '"']
  | '\\' => ['\\', '\\']
  | '\x08' => ['\\', 'b']
  | '\x0c' => ['\\', 'f']
  | '\n' => ['\\', 'n']
  | '\r' => ['\\', 'r']
  | '\t' => ['\\', 't']
  | c => if c < ' ' then ['\\', 'u', '0', '0', (c.toNat / 16).digitChar, (c.toNat % 16).digitChar] else [c]

/-- A text as it is written between quotes. -/
def encode (cs : List Char) : List Char := cs.flatMap encodeChar

end Hallmark.Json.Quoted
