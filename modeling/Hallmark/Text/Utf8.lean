import Hallmark.Bytes

/-!
# UTF-8

A decoder that reads one octet at a time.  Octets that cannot belong to a character are reported in runs: a run
is the longest beginning of a character that the octets spell, or a single octet when they spell none.
-/

namespace Hallmark.Utf8

/-- What is still to come of a character: the next octet lies in a range, and `more` others follow it. -/
structure Tail where
  low : UInt8
  high : UInt8
  more : Nat
  code : Nat
  deriving Repr, DecidableEq

/-- What an octet does to the character being read. -/
inductive Progress where
  | char (c : Char)
  | partway (tail : Tail)
  | malformed
  deriving Repr, DecidableEq

/-- The octet `b` as the first of a character.  The ranges of the second octet leave out the longer spellings of
short characters, the surrogates, and everything above the last code point. -/
def start (b : UInt8) : Progress :=
  if b < 0x80 then .char (Char.ofNat b.toNat)
  else if b < 0xc2 then .malformed
  else if b < 0xe0 then .partway ⟨0x80, 0xbf, 0, b.toNat - 0xc0⟩
  else if b = 0xe0 then .partway ⟨0xa0, 0xbf, 1, 0⟩
  else if b = 0xed then .partway ⟨0x80, 0x9f, 1, 0xd⟩
  else if b < 0xf0 then .partway ⟨0x80, 0xbf, 1, b.toNat - 0xe0⟩
  else if b = 0xf0 then .partway ⟨0x90, 0xbf, 2, 0⟩
  else if b < 0xf4 then .partway ⟨0x80, 0xbf, 2, b.toNat - 0xf0⟩
  else if b = 0xf4 then .partway ⟨0x80, 0x8f, 2, 4⟩
  else .malformed

/-- The octet `b` as the next one of a character. -/
def Tail.next (t : Tail) (b : UInt8) : Progress :=
  if t.low ≤ b ∧ b ≤ t.high then
    let code := t.code * 64 + b.toNat % 64
    match t.more with
    | 0 => .char (Char.ofNat code)
    | more + 1 => .partway ⟨0x80, 0xbf, more, code⟩
  else .malformed

/-- The characters read so far, `none` for each malformed run, and the character being read. -/
structure Decoder where
  output : Array (Option Char)
  pending : Option Tail
  deriving Repr, DecidableEq

namespace Decoder

/-- Nothing read yet. -/
def fresh : Decoder := ⟨#[], none⟩

/-- Takes up an octet that starts a character. -/
def begin (d : Decoder) (b : UInt8) : Decoder :=
  match start b with
  | .char c => ⟨d.output.push (some c), none⟩
  | .partway tail => ⟨d.output, some tail⟩
  | .malformed => ⟨d.output.push none, none⟩

/-- Takes up the next octet.  One that does not continue the character being read starts the next one. -/
def feed (d : Decoder) (b : UInt8) : Decoder :=
  match d.pending with
  | none => d.begin b
  | some tail =>
    match tail.next b with
    | .char c => ⟨d.output.push (some c), none⟩
    | .partway rest => ⟨d.output, some rest⟩
    | .malformed => begin ⟨d.output.push none, none⟩ b

/-- All characters once the octets have ended; a character left unfinished is malformed. -/
def close (d : Decoder) : Array (Option Char) :=
  if d.pending.isSome then d.output.push none else d.output

end Decoder

def scan (data : Bytes) : Decoder := data.foldl Decoder.feed .fresh

/-- The text of `data`, each malformed run replaced by U+FFFD. -/
def lossy (data : Bytes) : String :=
  String.ofList ((scan data).close.toList.map fun c => c.getD '\uFFFD')

/-- True when `data` holds no malformed run, though it may end inside a character. -/
def isPartial (data : Bytes) : Bool :=
  (scan data).output.all Option.isSome

end Hallmark.Utf8
