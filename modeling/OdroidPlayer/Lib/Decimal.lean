import Mathlib.Data.Nat.Basic
import Mathlib.Data.List.Basic

/-!
Numbers as `printf` writes them in decimal, and as they are read back.
-/

namespace Decimal

/-- The digits of a number, behind as many zeros as the width asks for. -/
def padded (width n : Nat) : List Char :=
  List.replicate (width - (Nat.toDigits 10 n).length) '0' ++ Nat.toDigits 10 n

/-- `%0<width>ld`, and `%ld` for the width 0. The sign counts. -/
def formatLong (width : Nat) : Int → List Char
  | .ofNat n => padded width n
  | .negSucc n => '-' :: padded (width - 1) (n + 1)

/-- The number that a text begins with, and what is behind its digits. -/
def read (text : List Char) : Option (Nat × List Char) :=
  match text.takeWhile Char.isDigit with
  | [] => none
  | digits => some (Nat.ofDigitChars 10 digits 0, text.dropWhile Char.isDigit)

/-- The same with a separator behind the number. -/
def readField (separator : Char) (text : List Char) : Option (Nat × List Char) :=
  match read text with
  | some (n, c :: rest) => if c = separator then some (n, rest) else none
  | some (_, []) | none => none

variable {width n : Nat}

theorem formatLong_natCast (width n : Nat) : formatLong width (n : Int) = padded width n := rfl

theorem padded_zero (n : Nat) : padded 0 n = Nat.toDigits 10 n := by
  rw [padded, Nat.zero_sub]
  rfl

/-- Two digits for a number below 100. -/
theorem padded_two (small : n < 100) : padded 2 n = [(n / 10).digitChar, (n % 10).digitChar] := by
  rw [padded, Nat.toDigits_eq_if (by omega)]
  split
  next one =>
      rw [Nat.div_eq_of_lt one, Nat.mod_eq_of_lt one]
      rfl
  next two =>
      rw [Nat.toDigits_of_lt_base (by omega)]
      rfl

theorem isDigit_of_mem_padded {c : Char} (mem : c ∈ padded width n) : c.isDigit = true := by
  rcases List.mem_append.mp mem with zero | digit
  · rw [List.eq_of_mem_replicate zero]
    rfl
  · exact Nat.isDigit_of_mem_toDigits (by omega) (by omega) digit

theorem padded_ne_nil : padded width n ≠ [] := fun none_ =>
  Nat.toDigits_ne_nil (List.append_eq_nil_iff.mp none_).2

theorem ofDigitChars_padded : Nat.ofDigitChars 10 (padded width n) 0 = n := by
  rw [padded, Nat.ofDigitChars_append, Nat.ofDigitChars_replicate_zero, Nat.mul_zero,
    Nat.ofDigitChars_ten_toDigits]

/-- What has been written is read back, up to something that is no digit. -/
theorem read_padded {rest : List Char} (stop : ∀ c ∈ rest.head?, c.isDigit = false) :
    read (padded width n ++ rest) = some (n, rest) := by
  have digits : ∀ c ∈ padded width n, c.isDigit = true := fun c mem => isDigit_of_mem_padded mem
  have front : rest.takeWhile Char.isDigit = [] := by
    cases rest with
    | nil => rfl
    | cons c rest => rw [List.takeWhile_cons, stop c rfl]; rfl
  have back : rest.dropWhile Char.isDigit = rest := by
    cases rest with
    | nil => rfl
    | cons c rest => rw [List.dropWhile_cons, stop c rfl]; rfl
  rw [read, List.takeWhile_append_of_pos digits, List.dropWhile_append_of_pos digits, front, back,
    List.append_nil]
  split
  next none_ => exact absurd none_ padded_ne_nil
  · rw [ofDigitChars_padded]

theorem readField_padded {separator : Char} (noDigit : separator.isDigit = false)
    (rest : List Char) :
    readField separator (padded width n ++ separator :: rest) = some (n, rest) := by
  have stop : ∀ c ∈ (separator :: rest).head?, c.isDigit = false := by
    rintro c ⟨⟩
    exact noDigit
  rw [readField, read_padded stop]
  exact if_pos rfl

end Decimal
