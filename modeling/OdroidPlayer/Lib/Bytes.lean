import Mathlib.Algebra.Group.Nat.Defs
import Mathlib.Data.Nat.Basic

/-!
Natural numbers as bytes: little-endian words of a fixed width and base-128 varints.
-/

namespace Bytes

/-- The `width` low bytes of a number, lowest byte first. -/
def littleEndian : Nat → Nat → List UInt8
  | 0, _ => []
  | width + 1, n => UInt8.ofNat n :: littleEndian width (n / 256)

def ofLittleEndian : List UInt8 → Nat
  | [] => 0
  | b :: bytes => b.toNat + 256 * ofLittleEndian bytes

@[simp] theorem length_littleEndian (width n : Nat) : (littleEndian width n).length = width := by
  induction width generalizing n with
  | zero => rfl
  | succ width ih => rw [littleEndian, List.length_cons, ih]

theorem ofLittleEndian_littleEndian {width n : Nat} (small : n < 256 ^ width) :
    ofLittleEndian (littleEndian width n) = n := by
  induction width generalizing n with
  | zero =>
      rw [Nat.pow_zero] at small
      simp only [littleEndian, ofLittleEndian]
      omega
  | succ width ih =>
      have high : n / 256 < 256 ^ width := by
        rw [Nat.pow_succ] at small
        exact Nat.div_lt_of_lt_mul (by omega)
      simp only [littleEndian, ofLittleEndian, ih high, UInt8.toNat_ofNat']
      omega

/-- Base-128 digits, lowest first, with the top bit set on every byte but the last;
`more` bounds the number of bytes before the last. -/
def varintUpTo : Nat → Nat → List UInt8
  | 0, n => [UInt8.ofNat n]
  | more + 1, n =>
      if n < 128 then [UInt8.ofNat n] else UInt8.ofNat (n % 128 + 128) :: varintUpTo more (n / 128)

/-- A number has fewer base-128 digits than its value. -/
def varint (n : Nat) : List UInt8 := varintUpTo n n

/-- A varint and the bytes behind it. -/
def readVarint : List UInt8 → Option (Nat × List UInt8)
  | [] => none
  | b :: bytes =>
      if b.toNat < 128 then some (b.toNat, bytes)
      else (readVarint bytes).map fun out => (b.toNat - 128 + 128 * out.1, out.2)

theorem readVarint_varintUpTo {more n : Nat} (small : n < 128 ^ (more + 1)) (rest : List UInt8) :
    readVarint (varintUpTo more n ++ rest) = some (n, rest) := by
  induction more generalizing n with
  | zero =>
      have digit : n < 128 := by simpa using small
      have byte : (UInt8.ofNat n).toNat = n := by
        rw [UInt8.toNat_ofNat']
        omega
      simp only [varintUpTo, List.singleton_append, readVarint, byte, if_pos digit]
  | succ more ih =>
      by_cases digit : n < 128
      · have byte : (UInt8.ofNat n).toNat = n := by
          rw [UInt8.toNat_ofNat']
          omega
        simp only [varintUpTo, if_pos digit, List.singleton_append, readVarint, byte]
      · have high : n / 128 < 128 ^ (more + 1) := by
          rw [Nat.pow_succ] at small
          exact Nat.div_lt_of_lt_mul (by omega)
        have byte : (UInt8.ofNat (n % 128 + 128)).toNat = n % 128 + 128 := by
          rw [UInt8.toNat_ofNat']
          omega
        have top : ¬ n % 128 + 128 < 128 := by omega
        simp only [varintUpTo, if_neg digit, List.cons_append, readVarint, byte, if_neg top,
          ih high, Option.map_some, Option.some.injEq, Prod.mk.injEq, and_true]
        omega

theorem readVarint_varint (n : Nat) (rest : List UInt8) :
    readVarint (varint n ++ rest) = some (n, rest) :=
  readVarint_varintUpTo (lt_trans (Nat.lt_succ_self n) (Nat.lt_pow_self (by omega))) rest

end Bytes
