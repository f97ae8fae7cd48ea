import Hallmark.Pe.Read
import Mathlib.Algebra.Order.Ring.Nat
import Mathlib.Tactic.Lemma
import Mathlib.Tactic.SplitIfs

/-!
# Checked reads

What it takes for a checked read to succeed, and what the failure of one says.
-/

namespace Hallmark.Proofs
open Pe
variable {data : Bytes} {offset len : Nat}

lemma checked_ok {α : Type} {r : Option α} {a : α} :
    checked data offset len r = .ok a ↔ r = some a := by
  cases r <;> simp [checked]

lemma u16_ok {w : UInt16} : u16 data offset = .ok w ↔ Bytes.u16? data offset = some w :=
  checked_ok

lemma u32_ok {w : UInt32} : u32 data offset = .ok w ↔ Bytes.u32? data offset = some w :=
  checked_ok

lemma slice_ok {bytes : Bytes} :
    slice data offset len = .ok bytes ↔
      offset + len ≤ data.size ∧ data.extract offset (offset + len) = bytes := by
  rw [slice, checked_ok, Bytes.slice?]
  split_ifs with hin <;> simp [hin]

lemma checked_error {α : Type} {r : Option α} {e : Error} :
    checked data offset len r = .error e ↔
      r = none ∧ e = .truncated offset len (data.size - offset) := by
  cases r <;> simp [checked, eq_comm]

lemma slice?_none : Bytes.slice? data offset len = none ↔ data.size < offset + len := by
  rw [Bytes.slice?]
  split_ifs with hin
  · simp [hin]
  · simp [Nat.lt_of_not_le hin]

lemma nat?_none {order : ByteOrder} {width : Nat} :
    Bytes.nat? data order width offset = none ↔ data.size < offset + width := by
  rw [Bytes.nat?, Option.map_eq_none_iff, slice?_none]

lemma u16_error {e : Error} :
    u16 data offset = .error e ↔
      data.size < offset + 2 ∧ e = .truncated offset 2 (data.size - offset) := by
  rw [u16, checked_error, Bytes.u16?, Option.map_eq_none_iff, nat?_none]

lemma u32_error {e : Error} :
    u32 data offset = .error e ↔
      data.size < offset + 4 ∧ e = .truncated offset 4 (data.size - offset) := by
  rw [u32, checked_error, Bytes.u32?, Option.map_eq_none_iff, nat?_none]

lemma slice_error {e : Error} :
    slice data offset len = .error e ↔
      data.size < offset + len ∧ e = .truncated offset len (data.size - offset) := by
  rw [slice, checked_error, slice?_none]

lemma rvaOffset_ok {rva base : UInt32} {place : Nat} :
    rvaOffset rva base = .ok place ↔ base ≤ rva ∧ place = rva.toNat - base.toNat := by
  rw [rvaOffset]
  split_ifs with hin <;> simp [hin, eq_comm]

lemma rvaOffset_error {rva base : UInt32} {e : Error} :
    rvaOffset rva base = .error e ↔ rva < base ∧ e = .invalidRva rva := by
  rw [rvaOffset]
  split_ifs with hin
  · simp [UInt32.not_lt.mpr hin]
  · simp [UInt32.not_le.mp hin, eq_comm]

end Hallmark.Proofs
