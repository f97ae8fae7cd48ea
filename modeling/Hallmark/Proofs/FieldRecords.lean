import Hallmark.Layout
import Hallmark.Proofs.PlacedBytes
import Hallmark.Proofs.StatefulRuns

/-!
# Records of numbers

Headers and table rows are written as the numbers in their fields, in either byte order. A number is
read back where its field starts, and a table of rows of equal width is read back as its rows.
-/

namespace Hallmark.Proofs

/-- A number and the count of octets that it is stored in. -/
structure Field where
  width : Nat
  value : Nat

/-- The octets of the fields, one field behind the other. -/
def fieldOctets (order : ByteOrder) (fields : List Field) : List UInt8 :=
  fields.flatMap fun f => order.octets f.width f.value

def fieldsWidth (fields : List Field) : Nat := (fields.map Field.width).sum

/-- The field that starts at `offset`. -/
def fieldAt? : List Field → Nat → Option Field
  | [], _ => none
  | f :: fields, offset =>
    if offset = 0 then some f
    else if f.width ≤ offset then fieldAt? fields (offset - f.width)
    else none

lemma octets_one (order : ByteOrder) (b : UInt8) : order.octets 1 b.toNat = [b] := by
  have hlow : littleOctets 1 b.toNat = [b] := by
    rw [littleOctets, UInt8.ofNat_toNat, littleOctets]
  cases order with
  | little => exact hlow
  | big => rw [ByteOrder.octets, hlow, List.reverse_singleton]

section Records
variable {order : ByteOrder} {data : Bytes} {place offset width n : Nat} {fields rest : List Field}
  {f : Field}

lemma length_fieldOctets (order : ByteOrder) (fields : List Field) :
    (fieldOctets order fields).length = fieldsWidth fields := by
  rw [fieldOctets, List.length_flatMap, fieldsWidth]
  simp only [length_orderOctets]

lemma fieldOctets_append :
    fieldOctets order (fields ++ rest) = fieldOctets order fields ++ fieldOctets order rest :=
  List.flatMap_append

lemma Placed.field (h : Placed data place (fieldOctets order fields))
    (hf : fieldAt? fields offset = some f) :
    Placed data (place + offset) (order.octets f.width f.value) := by
  induction fields generalizing place offset with
  | nil => cases hf
  | cons g fields ih =>
    rw [fieldOctets, List.flatMap_cons] at h
    rw [fieldAt?] at hf
    split_ifs at hf with hstart hbehind
    · obtain rfl := Option.some.inj hf
      rw [hstart, Nat.add_zero]
      exact h.left
    · have hnext := ih h.right hf
      rwa [length_orderOctets, Nat.add_assoc, Nat.add_sub_cancel' hbehind] at hnext

/-- A number of a record is read back where its field starts. -/
lemma number_record (l : Layout) (hf : fieldAt? fields offset = some ⟨width, n⟩)
    (hn : n < 256 ^ width) : l.number (fieldOctets l.order fields).toArray width offset = n := by
  have hfield := (Placed.self (fieldOctets l.order fields).toArray).field hf
  rw [Nat.zero_add] at hfield
  rw [Layout.number, hfield.stored hn, Option.getD_some]

lemma octet_record {b : UInt8} (order : ByteOrder) (hf : fieldAt? fields offset = some ⟨1, b.toNat⟩) :
    (fieldOctets order fields).toArray.getD offset 0 = b := by
  have hfield := (Placed.self (fieldOctets order fields).toArray).field hf
  rw [Nat.zero_add, octets_one] at hfield
  obtain ⟨hin, hoctet⟩ := hfield.getElem
  rw [Array.getD, dif_pos hin]
  exact hoctet

lemma Placed.record (h : Placed data offset (fieldOctets order fields)) :
    Bytes.slice? data offset (fieldsWidth fields) = some (fieldOctets order fields).toArray := by
  rw [← length_fieldOctets order]
  exact h.slice?

end Records

/-- A file starts with a pattern when its first octets are those of the pattern. -/
lemma hasAt_start {data : Bytes} {pattern : List UInt8} :
    Bytes.hasAt data 0 pattern.toArray = pattern.isPrefixOf data.toList := by
  rw [Bool.eq_iff_iff, Bytes.hasAt, beq_iff_eq, List.isPrefixOf_iff_prefix]
  constructor
  · intro h
    obtain ⟨before, after, hdata, hbefore⟩ := placed_of_slice? h
    rw [List.length_eq_zero_iff.mp hbefore, List.nil_append] at hdata
    exact ⟨after, hdata.symm⟩
  · rintro ⟨after, hdata⟩
    have hplaced : Placed data 0 pattern := ⟨[], after, hdata.symm, rfl⟩
    exact hplaced.slice?

section Tables
variable {α : Type} {data : Bytes} {offset width : Nat} {piece : List UInt8} {row : α → List UInt8}

lemma Placed.range? (h : Placed data offset piece) :
    Bytes.range? data offset piece.length = some piece.toArray := by
  rw [Bytes.range?]
  split_ifs with hempty
  · rw [List.length_eq_zero_iff.mp hempty]
  · exact h.slice?

/-- The rows of a table are what it was put together from. -/
lemma records_flatMap (hwidth : ∀ a, (row a).length = width) (rows : List α) :
    Bytes.records (rows.flatMap row).toArray width rows.length =
      rows.map fun a => (row a).toArray := by
  apply List.ext_getElem
  · simp [Bytes.records]
  · intro i hi hi'
    have hrow : i < rows.length := by simpa using hi'
    have hplaced := (Placed.self (rows.flatMap row).toArray).flatMap hwidth
      (List.getElem?_eq_getElem hrow)
    have hslice := hplaced.slice?
    rw [hwidth, Bytes.slice?, if_pos (hwidth _ ▸ hplaced.le_size), Option.some.injEq, Nat.zero_add,
      ← Nat.succ_mul, Nat.mul_comm i, Nat.mul_comm (i + 1)] at hslice
    simp only [Bytes.records, List.getElem_map, List.getElem_range]
    exact hslice

end Tables

end Hallmark.Proofs
