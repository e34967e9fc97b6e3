import Mathlib.Data.Nat.Basic
import Mathlib.Tactic.Ring

/-!
# Big-endian byte strings

Fixed-width unsigned integers in network byte order, as the packing helpers of
most wire formats write them, and the two readers that invert them.
-/

namespace AioMoqt.Lib.BigEndian

/-- A byte string. -/
abbrev Bytes := List UInt8

instance : LawfulBEq Bytes := inferInstance

/-- The `width` low bytes of `n`, most significant first. -/
def toBE : Nat → Nat → Bytes
  | 0, _ => []
  | width + 1, n => UInt8.ofNat (n / 256 ^ width) :: toBE width n

/-- The unsigned integer a byte string denotes in network byte order. -/
def ofBE (bs : Bytes) : Nat :=
  bs.foldl (fun acc b => acc * 256 + b.toNat) 0

@[simp] theorem length_toBE (width n : Nat) : (toBE width n).length = width := by
  induction width with
  | zero => rfl
  | succ width ih => simp [toBE, ih]

@[simp] theorem ofBE_nil : ofBE [] = 0 := rfl

theorem foldl_byte_eq (bs : Bytes) (acc : Nat) :
    bs.foldl (fun acc b => acc * 256 + b.toNat) acc =
      acc * 256 ^ bs.length + ofBE bs := by
  induction bs generalizing acc with
  | nil => simp
  | cons b bs ih =>
      have hcons : ofBE (b :: bs) = b.toNat * 256 ^ bs.length + ofBE bs := by
        simpa [ofBE] using ih b.toNat
      rw [List.foldl_cons, ih, hcons, List.length_cons, pow_succ]
      ring

theorem ofBE_cons (b : UInt8) (bs : Bytes) :
    ofBE (b :: bs) = b.toNat * 256 ^ bs.length + ofBE bs := by
  have h := foldl_byte_eq bs b.toNat
  simpa [ofBE] using h

theorem ofBE_concat (bs : Bytes) (b : UInt8) : ofBE (bs ++ [b]) = ofBE bs * 256 + b.toNat := by
  rw [ofBE, List.foldl_append]
  rfl

theorem ofBE_lt (bs : Bytes) : ofBE bs < 256 ^ bs.length := by
  induction bs with
  | nil => simp
  | cons b bs ih =>
      have hb : b.toNat + 1 ≤ 256 := b.toNat_lt
      rw [ofBE_cons, List.length_cons, pow_succ]
      calc b.toNat * 256 ^ bs.length + ofBE bs
          < b.toNat * 256 ^ bs.length + 256 ^ bs.length := by omega
        _ = (b.toNat + 1) * 256 ^ bs.length := by ring
        _ ≤ 256 * 256 ^ bs.length := Nat.mul_le_mul_right _ hb
        _ = 256 ^ bs.length * 256 := by ring

/-- Reading back what was written keeps the low `width` bytes of the value. -/
theorem ofBE_toBE_mod (width n : Nat) : ofBE (toBE width n) = n % 256 ^ width := by
  induction width with
  | zero => simp [toBE, Nat.mod_one]
  | succ width ih =>
      have hbyte : (UInt8.ofNat (n / 256 ^ width)).toNat = n / 256 ^ width % 256 := by
        simp
      rw [toBE, ofBE_cons, length_toBE, ih, hbyte, pow_succ, Nat.mod_mul]
      ring

end AioMoqt.Lib.BigEndian
