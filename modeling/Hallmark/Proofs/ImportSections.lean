import Hallmark.Pe.ImportTable
import Hallmark.Proofs.PlacedBytes

/-!
# Import sections as they are written

A writer that starts with room for the descriptors, appends what is stored of each library, and
fills in thunks and descriptors as soon as it knows where things stand.
-/

namespace Hallmark.Proofs
open Pe

/-- What a library is asked for. -/
inductive Request where
  | name (text : String)
  | ordinal (number : UInt32)

structure LibraryRequests where
  name : String
  requests : List Request

/-- The octets of a text and a zero octet. -/
def terminated (s : String) : List UInt8 := (Bytes.ofString s).toList ++ [0]

/-! ## The writer -/

/-- Writes the thunk at `slot`, and the name behind a hint that stands at an even place. -/
def writeRequest (words : WordSize) (base slot : Nat) (buffer : List UInt8) :
    Request → List UInt8
  | .name text =>
    let padded := buffer ++ List.replicate (buffer.length % 2) 0
    overwrite (padded ++ ([0, 0] ++ terminated text)) slot
      (littleOctets words.octets (base + padded.length))
  | .ordinal number =>
    overwrite buffer slot (littleOctets words.octets (ordinalFlag words ||| number.toNat))

def writeRequests (words : WordSize) (base : Nat) :
    (slot : Nat) → (buffer : List UInt8) → List Request → List UInt8
  | _, buffer, [] => buffer
  | slot, buffer, r :: rs =>
    writeRequests words base (slot + words.octets) (writeRequest words base slot buffer r) rs

/-- Writes the thunks and names of a library, its own name, and its descriptor at `place`. -/
def writeLibrary (words : WordSize) (base place : Nat) (buffer : List UInt8)
    (l : LibraryRequests) : List UInt8 :=
  let table := buffer.length
  let room := List.replicate ((l.requests.length + 1) * words.octets) 0
  let filled := writeRequests words base table (buffer ++ room) l.requests
  let withLookup := overwrite (filled ++ terminated l.name) place (littleOctets 4 (base + table))
  let withName := overwrite withLookup (place + 12) (littleOctets 4 (base + filled.length))
  overwrite withName (place + 16) (littleOctets 4 (base + table))

def writeLibraries (words : WordSize) (base : Nat) :
    (place : Nat) → (buffer : List UInt8) → List LibraryRequests → List UInt8
  | _, buffer, [] => buffer
  | place, buffer, l :: ls =>
    writeLibraries words base (place + 20) (writeLibrary words base place buffer l) ls

/-- The section at `base` that asks each library for its requests. -/
def importSection (words : WordSize) (base : UInt32) (ls : List LibraryRequests) : Bytes :=
  (writeLibraries words base.toNat 0 (List.replicate ((ls.length + 1) * 20) 0) ls).toArray

def importDirectory (words : WordSize) (base : UInt32) (ls : List LibraryRequests) :
    ImportDirectory :=
  ⟨importSection words base ls, base, base, words⟩

example : importSection .bits32 0x1000 [⟨"a", [.name "b", .ordinal 7]⟩] = #[
    40, 16, 0, 0, 0, 0, 0, 0, 0, 0, 0, 0, 56, 16, 0, 0, 40, 16, 0, 0,
    0, 0, 0, 0, 0, 0, 0, 0, 0, 0, 0, 0, 0, 0, 0, 0, 0, 0, 0, 0,
    52, 16, 0, 0, 7, 0, 0, 128, 0, 0, 0, 0,
    0, 0, 98, 0, 97, 0] := by decide +kernel

/-! ## The layout -/

namespace Request

/-- What is stored of a request at `place`. -/
def hint (place : Nat) : Request → List UInt8
  | .name text => List.replicate (place % 2) 0 ++ ([0, 0] ++ terminated text)
  | .ordinal _ => []

/-- The thunk of a request that is stored at `place`. -/
def thunk (words : WordSize) (base place : Nat) : Request → Nat
  | .name _ => base + (place + place % 2)
  | .ordinal number => ordinalFlag words ||| number.toNat

end Request

def hints : (place : Nat) → List Request → List UInt8
  | _, [] => []
  | place, r :: rs => r.hint place ++ hints (place + (r.hint place).length) rs

def thunks (words : WordSize) (base : Nat) : (place : Nat) → List Request → List Nat
  | _, [] => []
  | place, r :: rs =>
    r.thunk words base place :: thunks words base (place + (r.hint place).length) rs

/-- The thunks of requests whose hints stand from `place` on, with a zero at their end. -/
def thunkTable (words : WordSize) (base place : Nat) (rs : List Request) : List UInt8 :=
  (thunks words base place rs ++ [0]).flatMap (littleOctets words.octets)

namespace LibraryRequests

/-- Where the hints of a library stand whose thunks stand at `place`. -/
def hintsAt (words : WordSize) (place : Nat) (l : LibraryRequests) : Nat :=
  place + (l.requests.length + 1) * words.octets

def nameAt (words : WordSize) (place : Nat) (l : LibraryRequests) : Nat :=
  l.hintsAt words place + (hints (l.hintsAt words place) l.requests).length

/-- Everything that is stored of a library at `place`, except for its descriptor. -/
def block (words : WordSize) (base place : Nat) (l : LibraryRequests) : List UInt8 :=
  thunkTable words base (l.hintsAt words place) l.requests ++
    (hints (l.hintsAt words place) l.requests ++ terminated l.name)

def stop (words : WordSize) (place : Nat) (l : LibraryRequests) : Nat :=
  l.nameAt words place + (terminated l.name).length

def descriptor (words : WordSize) (base place : Nat) (l : LibraryRequests) : List UInt8 :=
  littleOctets 4 (base + place) ++ (List.replicate 8 0 ++
    (littleOctets 4 (base + l.nameAt words place) ++ littleOctets 4 (base + place)))

end LibraryRequests

def libraryBlocks (words : WordSize) (base : Nat) : (place : Nat) → List LibraryRequests → List UInt8
  | _, [] => []
  | place, l :: ls => l.block words base place ++ libraryBlocks words base (l.stop words place) ls

def descriptors (words : WordSize) (base : Nat) : (place : Nat) → List LibraryRequests → List UInt8
  | _, [] => []
  | place, l :: ls =>
    l.descriptor words base place ++ descriptors words base (l.stop words place) ls

/-! ## What the writer writes -/

section Lengths
variable {words : WordSize} {base place : Nat}

lemma length_thunks (rs : List Request) : (thunks words base place rs).length = rs.length := by
  induction rs generalizing place with
  | nil => rfl
  | cons r rs ih => rw [thunks, List.length_cons, ih, List.length_cons]

lemma length_flatMap_littleOctets (width : Nat) (ns : List Nat) :
    (ns.flatMap (littleOctets width)).length = ns.length * width :=
  length_flatMap_of_width (length_littleOctets width) ns

lemma length_thunkTable (rs : List Request) :
    (thunkTable words base place rs).length = (rs.length + 1) * words.octets := by
  rw [thunkTable, length_flatMap_littleOctets, List.length_append, length_thunks]
  rfl

lemma length_block (l : LibraryRequests) :
    place + (l.block words base place).length = l.stop words place := by
  rw [LibraryRequests.block, List.length_append, length_thunkTable, List.length_append,
    ← Nat.add_assoc, ← Nat.add_assoc]
  rfl

lemma length_descriptor (l : LibraryRequests) : (l.descriptor words base place).length = 20 := by
  simp only [LibraryRequests.descriptor, List.length_append, List.length_replicate,
    length_littleOctets]

lemma length_descriptors (ls : List LibraryRequests) :
    (descriptors words base place ls).length = ls.length * 20 := by
  induction ls generalizing place with
  | nil => rfl
  | cons l ls ih =>
    rw [descriptors, List.length_append, length_descriptor, ih, List.length_cons, Nat.succ_mul,
      Nat.add_comm]

end Lengths

section Writer
variable (words : WordSize) (base : Nat)

lemma room_split (a b : List UInt8) (n width : Nat) :
    a ++ (List.replicate ((n + 1) * width) 0 ++ b) =
      a ++ (List.replicate width 0 ++ (List.replicate (n * width) 0 ++ b)) := by
  have hroom : List.replicate ((n + 1) * width) (0 : UInt8) =
      List.replicate width 0 ++ List.replicate (n * width) 0 := zeros_succ_mul n width
  rw [hroom, List.append_assoc]

/-- The thunk fills the first word of the room for thunks, and the hint follows the buffer. -/
lemma writeRequest_eq (r : Request) {a z b : List UInt8} (hz : z.length = words.octets) :
    writeRequest words base a.length (a ++ (z ++ b)) r =
      a ++ (littleOctets words.octets (r.thunk words base (a ++ (z ++ b)).length) ++
        (b ++ r.hint (a ++ (z ++ b)).length)) := by
  have hwidth (n : Nat) : z.length = (littleOctets words.octets n).length := by
    rw [hz, length_littleOctets]
  cases r with
  | name text =>
    generalize hplace : (a ++ (z ++ b)).length = place
    have hbuffer : a ++ (z ++ b) ++ List.replicate (place % 2) 0 ++ ([0, 0] ++ terminated text) =
        a ++ (z ++ (b ++ (List.replicate (place % 2) 0 ++ ([0, 0] ++ terminated text)))) := by
      simp only [List.append_assoc]
    rw [writeRequest]
    simp only [hplace, List.length_append, List.length_replicate]
    rw [hbuffer, overwrite_between (hwidth _)]
    rfl
  | ordinal number =>
    rw [writeRequest, overwrite_between (hwidth _), Request.thunk, Request.hint, List.append_nil]

/-- The thunks fill the room behind `a`, with a zero at their end, and the hints follow the buffer,
which ends at `place`. -/
lemma writeRequests_eq (rs : List Request) (a b : List UInt8) (place : Nat)
    (hplace : place = a.length + (rs.length + 1) * words.octets + b.length) :
    writeRequests words base a.length
        (a ++ (List.replicate ((rs.length + 1) * words.octets) 0 ++ b)) rs =
      a ++ (thunkTable words base place rs ++ (b ++ hints place rs)) := by
  induction rs generalizing a b place with
  | nil => simp [writeRequests, thunkTable, thunks, hints, littleOctets_zero]
  | cons r rs ih =>
    -- The hint of `r` goes to the end of the buffer, so the next request finds a buffer of the same
    -- shape with one word less of room.
    have hlength : (a ++ (List.replicate words.octets 0 ++
        (List.replicate ((rs.length + 1) * words.octets) (0 : UInt8) ++ b))).length = place := by
      rw [← room_split, hplace]
      simp only [List.length_append, List.length_replicate, List.length_cons, Nat.add_assoc]
    have hroom : a ++ (littleOctets words.octets (r.thunk words base place) ++
        (List.replicate ((rs.length + 1) * words.octets) 0 ++ b ++ r.hint place)) =
        (a ++ littleOctets words.octets (r.thunk words base place)) ++
          (List.replicate ((rs.length + 1) * words.octets) 0 ++ (b ++ r.hint place)) := by
      simp only [List.append_assoc]
    have hslot : a.length + words.octets =
        (a ++ littleOctets words.octets (r.thunk words base place)).length := by
      rw [List.length_append, length_littleOctets]
    rw [writeRequests, List.length_cons, room_split,
      writeRequest_eq words base r List.length_replicate, hlength, hroom, hslot,
      ih _ _ (place + (r.hint place).length)]
    · simp only [thunkTable, thunks, hints, List.cons_append, List.flatMap_cons, List.append_assoc]
    · rw [← hslot, List.length_append]
      simp only [List.length_cons, Nat.succ_mul] at hplace ⊢
      omega

/-- The three fields of a descriptor are filled in where there was an empty one. -/
lemma overwrite_descriptor {a b : List UInt8} (lookup name : List UInt8)
    (hlookup : lookup.length = 4) (hname : name.length = 4) :
    overwrite (overwrite (overwrite (a ++ (List.replicate 20 0 ++ b)) a.length lookup)
        (a.length + 12) name) (a.length + 16) lookup =
      a ++ (lookup ++ (List.replicate 8 0 ++ (name ++ lookup)) ++ b) := by
  have hempty : List.replicate 20 (0 : UInt8) = List.replicate 4 0 ++ (List.replicate 8 0 ++
      (List.replicate 4 0 ++ List.replicate 4 0)) := rfl
  have hlookup' : (List.replicate 4 (0 : UInt8)).length = lookup.length :=
    List.length_replicate.trans hlookup.symm
  have hname' : (List.replicate 4 (0 : UInt8)).length = name.length :=
    List.length_replicate.trans hname.symm
  have hfirst : overwrite (a ++ (List.replicate 20 0 ++ b)) a.length lookup =
      (a ++ (lookup ++ List.replicate 8 0)) ++
        (List.replicate 4 0 ++ (List.replicate 4 0 ++ b)) := by
    rw [hempty, List.append_assoc, overwrite_between hlookup']
    simp only [List.append_assoc]
  have hsecond : overwrite ((a ++ (lookup ++ List.replicate 8 0)) ++
        (List.replicate 4 0 ++ (List.replicate 4 0 ++ b))) (a.length + 12) name =
      (a ++ (lookup ++ (List.replicate 8 0 ++ name))) ++ (List.replicate 4 0 ++ b) := by
    have hat : a.length + 12 = (a ++ (lookup ++ List.replicate 8 0)).length := by
      simp only [List.length_append, List.length_replicate, hlookup]
    rw [hat, overwrite_between hname']
    simp only [List.append_assoc]
  have hat : a.length + 16 = (a ++ (lookup ++ (List.replicate 8 0 ++ name))).length := by
    simp only [List.length_append, List.length_replicate, hlookup, hname]
  rw [hfirst, hsecond, hat, overwrite_between hlookup']
  simp only [List.append_assoc]

lemma writeLibrary_eq (l : LibraryRequests) {a b : List UInt8} {place : Nat}
    (hplace : (a ++ (List.replicate 20 0 ++ b)).length = place) :
    writeLibrary words base a.length (a ++ (List.replicate 20 0 ++ b)) l =
      a ++ (l.descriptor words base place ++ (b ++ l.block words base place)) := by
  have hhints : l.hintsAt words place = (a ++ (List.replicate 20 0 ++ b)).length +
      (l.requests.length + 1) * words.octets + ([] : List UInt8).length := by
    rw [hplace]
    rfl
  have hfilled := writeRequests_eq words base l.requests _ [] _ hhints
  rw [hplace, List.append_nil, List.nil_append] at hfilled
  have hname : (a ++ (List.replicate 20 0 ++ b) ++
      (thunkTable words base (l.hintsAt words place) l.requests ++
        hints (l.hintsAt words place) l.requests)).length = l.nameAt words place := by
    rw [List.length_append, hplace, List.length_append, length_thunkTable, ← Nat.add_assoc]
    rfl
  rw [writeLibrary]
  simp only [hplace, hfilled, hname]
  simp only [List.append_assoc]
  rw [overwrite_descriptor _ _ (length_littleOctets 4 _) (length_littleOctets 4 _)]
  simp only [LibraryRequests.descriptor, LibraryRequests.block, List.append_assoc]

lemma writeLibraries_eq (ls : List LibraryRequests) (a b : List UInt8) (place : Nat)
    (hplace : place = a.length + (ls.length + 1) * 20 + b.length) :
    writeLibraries words base a.length (a ++ (List.replicate ((ls.length + 1) * 20) 0 ++ b)) ls =
      a ++ (descriptors words base place ls ++
        (List.replicate 20 0 ++ (b ++ libraryBlocks words base place ls))) := by
  induction ls generalizing a b place with
  | nil => simp [writeLibraries, descriptors, libraryBlocks]
  | cons l ls ih =>
    -- As for requests, with one empty descriptor less in front of what follows.
    have hlength : (a ++ (List.replicate 20 0 ++
        (List.replicate ((ls.length + 1) * 20) (0 : UInt8) ++ b))).length = place := by
      rw [← room_split, hplace]
      simp only [List.length_append, List.length_replicate, List.length_cons, Nat.add_assoc]
    have hroom : a ++ (l.descriptor words base place ++
        (List.replicate ((ls.length + 1) * 20) 0 ++ b ++ l.block words base place)) =
        (a ++ l.descriptor words base place) ++
          (List.replicate ((ls.length + 1) * 20) 0 ++ (b ++ l.block words base place)) := by
      simp only [List.append_assoc]
    have hnext : a.length + 20 = (a ++ l.descriptor words base place).length := by
      rw [List.length_append, length_descriptor]
    have hblock : place + (l.block words base place).length = l.stop words place := length_block l
    rw [writeLibraries, List.length_cons, room_split, writeLibrary_eq words base l hlength, hroom,
      hnext, ih _ _ (l.stop words place)]
    · simp only [descriptors, libraryBlocks, List.append_assoc]
    · rw [← hnext, List.length_append]
      simp only [List.length_cons] at hplace
      omega

end Writer

/-- The section is made of descriptors, an empty one, and the blocks of the libraries. -/
theorem toList_importSection (words : WordSize) (base : UInt32) (ls : List LibraryRequests) :
    (importSection words base ls).toList =
      descriptors words base.toNat ((ls.length + 1) * 20) ls ++
        (List.replicate 20 0 ++ libraryBlocks words base.toNat ((ls.length + 1) * 20) ls) := by
  have hplace : (ls.length + 1) * 20 =
      ([] : List UInt8).length + (ls.length + 1) * 20 + ([] : List UInt8).length := by
    simp only [List.length_nil, Nat.zero_add, Nat.add_zero]
  have hwritten := writeLibraries_eq words base.toNat ls [] [] _ hplace
  rw [List.nil_append, List.append_nil, List.nil_append, List.nil_append] at hwritten
  exact hwritten

end Hallmark.Proofs
