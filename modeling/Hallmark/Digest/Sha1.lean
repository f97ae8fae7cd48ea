import Hallmark.Digest.Block

/-!
# SHA-1
-/

namespace Hallmark.Digest

namespace Sha1

/-- The chaining value. -/
structure State where
  a : UInt32
  b : UInt32
  c : UInt32
  d : UInt32
  e : UInt32

/-- The chaining value before the first block. -/
def initial : State := ⟨0x67452301, 0xefcdab89, 0x98badcfe, 0x10325476, 0xc3d2e1f0⟩

/-- The eighty words that a block is expanded to. -/
def schedule (words : Array UInt32) : Array UInt32 :=
  (List.range 64).foldl
    (fun w i => w.push (rotl (w.getD (i + 13) 0 ^^^ w.getD (i + 8) 0 ^^^ w.getD (i + 2) 0 ^^^ w.getD i 0) 1))
    words

/-- Step `i` of a block: the bitwise function and the constant of its round. -/
def step (words : Array UInt32) (s : State) (i : Nat) : State :=
  let (mix, constant) : UInt32 × UInt32 :=
    match i / 20 with
    | 0 => ((s.b &&& s.c) ||| (~~~s.b &&& s.d), 0x5a827999)
    | 1 => (s.b ^^^ s.c ^^^ s.d, 0x6ed9eba1)
    | 2 => ((s.b &&& s.c) ||| (s.b &&& s.d) ||| (s.c &&& s.d), 0x8f1bbcdc)
    | _ => (s.b ^^^ s.c ^^^ s.d, 0xca62c1d6)
  ⟨rotl s.a 5 + mix + s.e + constant + words.getD i 0, s.a, rotl s.b 30, s.c, s.d⟩

/-- Takes one block into the chaining value. -/
def compress (s : State) (words : Array UInt32) : State :=
  let t := (List.range 80).foldl (step (schedule words)) s
  ⟨s.a + t.a, s.b + t.b, s.c + t.c, s.d + t.d, s.e + t.e⟩

end Sha1

/-- The SHA-1 digest as 40 hexadecimal digits. -/
def sha1 (data : Bytes) : String :=
  let s := foldBlocks .big Sha1.compress Sha1.initial data
  hexWords .big [s.a, s.b, s.c, s.d, s.e]

end Hallmark.Digest
