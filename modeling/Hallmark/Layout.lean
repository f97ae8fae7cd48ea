import Hallmark.Bytes

/-!
# Layouts

The same records are stored by images of both widths and of both byte orders.
-/

namespace Hallmark

/-- The width of the addresses of an image. -/
inductive WordSize where
  | bits32
  | bits64
  deriving Repr, DecidableEq

namespace WordSize

def octets : WordSize → Nat
  | bits32 => 4
  | bits64 => 8

theorem octets_pos (w : WordSize) : 0 < w.octets := by cases w <;> decide

/-- One of two values, by width. -/
def pick {α : Type} (w : WordSize) (narrow wide : α) : α :=
  match w with
  | bits32 => narrow
  | bits64 => wide

end WordSize

/-- How the numbers of an image are stored. -/
structure Layout where
  words : WordSize
  order : ByteOrder
  deriving Repr, DecidableEq

namespace Layout

/-- One of two values, by width. -/
def pick {α : Type} (l : Layout) (narrow wide : α) : α := l.words.pick narrow wide

/-- The number of `width` octets at `offset` of a record that is known to be there. -/
def number (l : Layout) (record : Bytes) (width offset : Nat) : Nat :=
  (Bytes.nat? record l.order width offset).getD 0

/-- The 32-bit number at `offset`. -/
def word (l : Layout) (record : Bytes) (offset : Nat) : Nat := l.number record 4 offset

/-- The address at one of two offsets, by width. -/
def address (l : Layout) (record : Bytes) (narrow wide : Nat) : Nat :=
  l.number record l.words.octets (l.pick narrow wide)

end Layout

end Hallmark
