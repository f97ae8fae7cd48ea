import Hallmark.Proofs.CheckedReads
import Mathlib.Data.List.Basic

/-!
# Bytes in their place

What stands at a place of a byte array, and how it is read back from there.
-/

namespace Hallmark.Proofs
open Pe

/-- The octets of `piece` stand at `offset`. -/
def Placed (data : Bytes) (offset : Nat) (piece : List UInt8) : Prop :=
  ∃ before after, data.toList = before ++ (piece ++ after) ∧ before.length = offset

lemma length_flatMap_of_width {α : Type} {f : α → List UInt8} {width : Nat}
    (hwidth : ∀ a, (f a).length = width) (items : List α) :
    (items.flatMap f).length = items.length * width := by
  rw [List.length_flatMap]
  simp only [hwidth, List.map_const', List.sum_replicate_nat]

namespace Placed
variable {data : Bytes} {offset : Nat} {piece rest : List UInt8}

lemma self (data : Bytes) : Placed data 0 data.toList :=
  ⟨[], [], by simp, rfl⟩

lemma left (h : Placed data offset (piece ++ rest)) : Placed data offset piece := by
  obtain ⟨before, after, hdata, hlength⟩ := h
  exact ⟨before, rest ++ after, by rw [hdata, List.append_assoc], hlength⟩

lemma right (h : Placed data offset (piece ++ rest)) :
    Placed data (offset + piece.length) rest := by
  obtain ⟨before, after, hdata, hlength⟩ := h
  refine ⟨before ++ piece, after, ?_, ?_⟩
  · rw [hdata, List.append_assoc, List.append_assoc]
  · rw [List.length_append, hlength]

lemma tail {b : UInt8} (h : Placed data offset (b :: rest)) : Placed data (offset + 1) rest := by
  obtain ⟨before, after, hdata, hlength⟩ := h
  refine ⟨before ++ [b], after, ?_, ?_⟩
  · rw [hdata, List.append_assoc]
    rfl
  · rw [List.length_append, hlength, List.length_singleton]

lemma le_size (h : Placed data offset piece) : offset + piece.length ≤ data.size := by
  obtain ⟨before, after, hdata, rfl⟩ := h
  have hsize := congrArg List.length hdata
  simp only [List.length_append, Array.length_toList] at hsize
  omega

lemma slice? (h : Placed data offset piece) :
    Bytes.slice? data offset piece.length = some piece.toArray := by
  obtain ⟨before, after, hdata, hlength⟩ := id h
  have hpiece : (data.extract offset (offset + piece.length)).toList = piece := by
    rw [Array.toList_extract, List.extract_eq_take_drop, hdata, ← hlength, List.drop_left,
      Nat.add_sub_cancel_left, List.take_left]
  rw [Bytes.slice?, if_pos h.le_size, Option.some.injEq]
  exact Array.toList_inj.mp hpiece

lemma getElem {b : UInt8} (h : Placed data offset (b :: rest)) :
    ∃ hin : offset < data.size, data[offset] = b := by
  obtain ⟨before, after, hdata, hlength⟩ := id h
  have hin : offset < data.size := by
    have hroom := h.le_size
    rw [List.length_cons] at hroom
    omega
  refine ⟨hin, ?_⟩
  rw [← Array.getElem_toList]
  simp [hdata, hlength]

lemma flatMap {α : Type} {f : α → List UInt8} {width : Nat} (hwidth : ∀ a, (f a).length = width)
    {items : List α} (h : Placed data offset (items.flatMap f)) {i : Nat} {a : α}
    (ha : items[i]? = some a) : Placed data (offset + i * width) (f a) := by
  induction items generalizing offset i with
  | nil => simp at ha
  | cons d items ih =>
    rw [List.flatMap_cons] at h
    cases i with
    | zero =>
      obtain rfl : d = a := by simpa using ha
      rw [Nat.zero_mul, Nat.add_zero]
      exact h.left
    | succ i =>
      have hnext := h.right
      rw [hwidth] at hnext
      rw [Nat.succ_mul, Nat.add_comm (i * width), ← Nat.add_assoc]
      exact ih hnext ha

end Placed

section Slices
variable {data : Bytes} {offset : Nat}

lemma placed_extract {len : Nat} (hin : offset + len ≤ data.size) :
    Placed data offset (data.extract offset (offset + len)).toList := by
  refine ⟨data.toList.take offset, data.toList.drop (offset + len), ?_, ?_⟩
  · rw [Array.toList_extract, List.extract_eq_take_drop, Nat.add_sub_cancel_left,
      ← List.drop_drop, List.take_append_drop, List.take_append_drop]
  · rw [List.length_take, Array.length_toList]
    omega

lemma placed_of_slice? {len : Nat} {bytes : Bytes}
    (h : Bytes.slice? data offset len = some bytes) : Placed data offset bytes.toList := by
  rw [Bytes.slice?] at h
  split_ifs at h with hin
  obtain rfl := Option.some.inj h
  exact placed_extract hin

lemma range?_extract {len : Nat} (h : offset + len ≤ data.size) :
    Bytes.range? data offset len = some (data.extract offset (offset + len)) := by
  rw [Bytes.range?]
  split_ifs with hempty
  · simp [hempty]
  · rw [Bytes.slice?, if_pos h]

end Slices

/-- The array ends with the octets of `rest`, which stand at `offset`. -/
def Ends (data : Bytes) (offset : Nat) (rest : List UInt8) : Prop :=
  ∃ before, data.toList = before ++ rest ∧ before.length = offset

namespace Ends
variable {data : Bytes} {offset : Nat} {piece rest : List UInt8}

lemma left (h : Ends data offset (piece ++ rest)) : Placed data offset piece := by
  obtain ⟨before, hdata, hlength⟩ := h
  exact ⟨before, rest, hdata, hlength⟩

lemma right (h : Ends data offset (piece ++ rest)) : Ends data (offset + piece.length) rest := by
  obtain ⟨before, hdata, hlength⟩ := h
  refine ⟨before ++ piece, ?_, ?_⟩
  · rw [hdata, List.append_assoc]
  · rw [List.length_append, hlength]

lemma size_eq (h : Ends data offset rest) : data.size = offset + rest.length := by
  obtain ⟨before, hdata, rfl⟩ := h
  rw [← Array.length_toList, hdata, List.length_append]

lemma extract (h : Ends data offset rest) (len : Nat) :
    (data.extract offset (offset + len)).toList = rest.take len := by
  obtain ⟨before, hdata, rfl⟩ := h
  rw [Array.toList_extract, List.extract_eq_take_drop, hdata, List.drop_left,
    Nat.add_sub_cancel_left]

end Ends

/-! ## Numbers -/

lemma length_littleOctets (width n : Nat) : (littleOctets width n).length = width := by
  induction width generalizing n with
  | zero => rfl
  | succ width ih => rw [littleOctets, List.length_cons, ih]

lemma littleValue_littleOctets (width n : Nat) :
    littleValue (littleOctets width n) = n % 256 ^ width := by
  induction width generalizing n with
  | zero => simp [littleOctets, littleValue, Nat.mod_one]
  | succ width ih =>
    have hlow : (UInt8.ofNat n).toNat = n % 256 := UInt8.toNat_ofNat'
    rw [littleOctets, littleValue, ih, hlow, Nat.pow_succ', Nat.mod_mul]

lemma littleValue_lt (bs : List UInt8) : littleValue bs < 256 ^ bs.length := by
  induction bs with
  | nil => simp [littleValue]
  | cons b bs ih =>
    have hb : b.toNat < 256 := b.toNat_lt
    rw [littleValue, List.length_cons, Nat.pow_succ]
    omega

/-- Higher octets of a number than those that are written do not matter. -/
lemma littleOctets_mod (width n : Nat) :
    littleOctets width (n % 256 ^ width) = littleOctets width n := by
  induction width generalizing n with
  | zero => rfl
  | succ width ih =>
    have hlow : UInt8.ofNat (n % 256 ^ (width + 1)) = UInt8.ofNat n := by
      rw [← UInt8.toNat_inj, UInt8.toNat_ofNat', UInt8.toNat_ofNat', Nat.pow_succ']
      exact Nat.mod_mul_right_mod n 256 (256 ^ width)
    have hhigh : n % 256 ^ (width + 1) / 256 = n / 256 % 256 ^ width := by
      rw [Nat.pow_succ', Nat.mod_mul_right_div_self]
    rw [littleOctets, littleOctets, hlow, hhigh, ih]

lemma littleOctets_zero (width : Nat) : littleOctets width 0 = List.replicate width 0 := by
  induction width with
  | zero => rfl
  | succ width ih =>
    rw [littleOctets, Nat.zero_div, ih, List.replicate_succ]
    rfl

section Reads
variable {order : ByteOrder} {data : Bytes} {offset width n : Nat} {s : List UInt8}

lemma length_orderOctets (order : ByteOrder) (width n : Nat) :
    (order.octets width n).length = width := by
  cases order with
  | little => exact length_littleOctets width n
  | big => rw [ByteOrder.octets, List.length_reverse, length_littleOctets]

lemma value_octets (order : ByteOrder) (hn : n < 256 ^ width) :
    order.value (order.octets width n) = n := by
  have hvalue : littleValue (littleOctets width n) = n := by
    rw [littleValue_littleOctets, Nat.mod_eq_of_lt hn]
  cases order with
  | little => exact hvalue
  | big => rw [ByteOrder.octets, ByteOrder.value, List.reverse_reverse, hvalue]

lemma Placed.stored (h : Placed data offset (order.octets width n)) (hn : n < 256 ^ width) :
    Bytes.nat? data order width offset = some n := by
  have hslice := h.slice?
  rw [length_orderOctets] at hslice
  rw [Bytes.nat?, hslice, Option.map_some, List.toList_toArray, value_octets order hn]

lemma Placed.nat? (h : Placed data offset (littleOctets width n)) (hn : n < 256 ^ width) :
    Bytes.nat? data .little width offset = some n := by
  have hlittle : Placed data offset (ByteOrder.little.octets width n) := h
  exact hlittle.stored hn

lemma nat?_lt (h : Bytes.nat? data .little width offset = some n) : n < 256 ^ width := by
  rw [Bytes.nat?, Option.map_eq_some_iff] at h
  obtain ⟨bs, hbs, rfl⟩ := h
  rw [Bytes.slice?] at hbs
  split_ifs at hbs with hin
  obtain rfl := Option.some.inj hbs
  have hlt := littleValue_lt (data.extract offset (offset + width)).toList
  rwa [Array.length_toList, Array.size_extract, Nat.min_eq_left hin, Nat.add_sub_cancel_left]
    at hlt

lemma Placed.u16? (h : Placed data offset (littleOctets 2 n)) (hn : n < 2 ^ 16) :
    Bytes.u16? data offset = some (UInt16.ofNat n) := by
  rw [Bytes.u16?, h.nat? hn, Option.map_some]

lemma Placed.u32? (h : Placed data offset (littleOctets 4 n)) (hn : n < 2 ^ 32) :
    Bytes.u32? data offset = some (UInt32.ofNat n) := by
  rw [Bytes.u32?, h.nat? (by omega), Option.map_some]

lemma Placed.u32 (h : Placed data offset (littleOctets 4 n)) (hn : n < 2 ^ 32) :
    u32 data offset = .ok (UInt32.ofNat n) := u32_ok.mpr (h.u32? hn)

/-! ## Texts that end with a zero octet -/

lemma Placed.nul? {stop : Nat} (h : Placed data offset (s ++ [0])) (hs : 0 ∉ s)
    (hstop : offset + s.length < stop) :
    Bytes.nul? data offset stop = some (offset + s.length) := by
  induction s generalizing offset with
  | nil =>
    obtain ⟨hin, hzero⟩ := h.getElem
    rw [List.length_nil, Nat.add_zero] at hstop ⊢
    rw [Bytes.nul?, if_pos hstop, dif_pos hin, if_pos hzero]
  | cons b s ih =>
    obtain ⟨hin, hb⟩ := h.getElem
    have hne : ¬data[offset] = 0 := fun hzero => hs (hzero ▸ hb ▸ List.mem_cons_self)
    rw [List.length_cons] at hstop
    rw [Bytes.nul?, if_pos (by omega), dif_pos hin, if_neg hne,
      ih h.tail (List.not_mem_of_not_mem_cons hs) (by omega), List.length_cons, Nat.add_assoc,
      Nat.add_comm 1]

lemma Placed.cstring (h : Placed data offset (s ++ [0])) (hs : 0 ∉ s) :
    cstring data offset = .ok s.toArray := by
  have hroom := h.le_size
  rw [List.length_append, List.length_singleton] at hroom
  have htext := h.left.slice?
  rw [Bytes.slice?, if_pos h.left.le_size, Option.some.injEq] at htext
  rw [Pe.cstring, if_neg (by omega), Bytes.cstring?, h.nul? hs (by omega), Option.map_some, htext]

end Reads

/-! ## Buffers -/

def zeros (n : Nat) : List UInt8 := List.replicate n 0

lemma length_zeros (n : Nat) : (zeros n).length = n := List.length_replicate

lemma zeros_add (m n : Nat) : zeros (m + n) = zeros m ++ zeros n :=
  List.replicate_add m n 0

lemma zeros_succ_mul (n width : Nat) : zeros ((n + 1) * width) = zeros width ++ zeros (n * width) := by
  rw [Nat.succ_mul, Nat.add_comm, zeros_add]

lemma le_align4 (n : Nat) : n ≤ align4 n := by
  unfold align4
  omega

/-- The number of zeros between `n` and the next multiple of four. -/
def gap (n : Nat) : Nat := align4 n - n

/-- The buffer with `piece` in place of what stands at `offset`. -/
def overwrite (buffer : List UInt8) (offset : Nat) (piece : List UInt8) : List UInt8 :=
  buffer.take offset ++ (piece ++ buffer.drop (offset + piece.length))

lemma overwrite_between {a z b piece : List UInt8} (h : z.length = piece.length) :
    overwrite (a ++ (z ++ b)) a.length piece = a ++ (piece ++ b) := by
  have hdrop : (a ++ (z ++ b)).drop (a.length + piece.length) = b := by
    rw [← h, ← List.length_append, ← List.append_assoc, List.drop_left]
  rw [overwrite, List.take_left, hdrop]

end Hallmark.Proofs
