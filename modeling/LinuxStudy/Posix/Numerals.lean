import LinuxStudy.Posix.Bytes
import Mathlib.Algebra.GroupWithZero.Nat
import Mathlib.Data.Nat.Digits.Lemmas

/-! Decimal numerals: what `printf` writes for `%d`, and what `strtol` and `atoi` make of a
text.
-/

namespace LinuxStudy.Posix

/-- The bytes of a text in UTF-8. -/
def utf8 (text : String) : Bytes := text.toUTF8.data.toList

/-- `isspace` -/
def isSpace (byte : UInt8) : Bool := byte = 32 || 9 ≤ byte.toNat && byte.toNat ≤ 13

/-- `isdigit` -/
def isDigit (byte : UInt8) : Bool := 48 ≤ byte.toNat && byte.toNat ≤ 57

def digitOf (n : Nat) : UInt8 := UInt8.ofNat (48 + n)

def digitValue (byte : UInt8) : Nat := byte.toNat - 48

/-- One or more digits. -/
def IsNumeral (text : Bytes) : Prop := text ≠ [] ∧ ∀ byte ∈ text, isDigit byte = true

instance (text : Bytes) : Decidable (IsNumeral text) :=
  inferInstanceAs (Decidable (_ ∧ _))

/-- The number that digits stand for. -/
def numeralValue (digits : Bytes) : Nat := Nat.ofDigits 10 (digits.reverse.map digitValue)

/-- What `%d` writes for a number that is not negative. -/
def decimal (n : Nat) : Bytes :=
  if n = 0 then [48] else ((Nat.digits 10 n).map digitOf).reverse

-----------------------------------------------------------------------------------------
-- Conversions
-----------------------------------------------------------------------------------------

/-- `strtol(text, NULL, 10)` with a `long` of 64 bits: white space, a sign, digits; a number
that does not fit becomes the nearest one that does.
-/
def strtol (text : Bytes) : Int :=
  let unspaced := text.dropWhile isSpace
  let sign := unspaced.head?
  let digits := if sign = some 43 ∨ sign = some 45 then unspaced.drop 1 else unspaced
  let value := numeralValue (digits.takeWhile isDigit)
  if sign = some 45 then max (-value) (-2 ^ 63) else min value (2 ^ 63 - 1)

/-- `atoi`: the lower 32 bits of what `strtol` returns. -/
def atoi (text : Bytes) : Int := (strtol text).bmod (2 ^ 32)

-----------------------------------------------------------------------------------------
-- Digits
-----------------------------------------------------------------------------------------

theorem isDigit_digitOf {n : Nat} (small : n < 10) : isDigit (digitOf n) = true := by
  have all : ∀ k : Fin 10, isDigit (digitOf k) = true := by decide
  exact all ⟨n, small⟩

theorem digitValue_digitOf {n : Nat} (small : n < 10) : digitValue (digitOf n) = n := by
  have all : ∀ k : Fin 10, digitValue (digitOf k) = k := by decide
  exact all ⟨n, small⟩

theorem isDigit_iff (byte : UInt8) : isDigit byte = true ↔ 48 ≤ byte.toNat ∧ byte.toNat ≤ 57 := by
  simp [isDigit]

/-- A digit is neither a blank nor a sign. -/
theorem isDigit.plain {byte : UInt8} (digit : isDigit byte = true)
    : isSpace byte = false ∧ byte ≠ 43 ∧ byte ≠ 45 := by
  rw [isDigit_iff] at digit
  refine ⟨?_, ?_, ?_⟩
  · simp only [isSpace, Bool.or_eq_false_iff, Bool.and_eq_false_imp, decide_eq_true_eq,
      decide_eq_false_iff_not, ← UInt8.toNat_inj]
    simp
    omega
  · rintro rfl
    simp at digit
  · rintro rfl
    simp at digit

/-- What is written for a number is a numeral. -/
theorem isNumeral_decimal (n : Nat) : IsNumeral (decimal n) := by
  unfold decimal
  split
  next =>
    refine ⟨List.cons_ne_nil _ _, fun byte member => ?_⟩
    rw [List.mem_singleton.mp member]
    rfl
  next positive =>
    refine ⟨by simpa [Nat.digits_eq_nil_iff_eq_zero] using positive, ?_⟩
    intro byte member
    simp only [List.mem_reverse, List.mem_map] at member
    obtain ⟨digit, among, rfl⟩ := member
    exact isDigit_digitOf (Nat.digits_lt_base (by decide) among)

/-- It stands for the number. -/
@[simp] theorem numeralValue_decimal (n : Nat) : numeralValue (decimal n) = n := by
  unfold decimal
  split
  next zero =>
    rw [zero]
    rfl
  next =>
    have same : (Nat.digits 10 n).map (digitValue ∘ digitOf) = Nat.digits 10 n := by
      conv_rhs => rw [← List.map_id (Nat.digits 10 n)]
      refine List.map_congr_left fun digit among => ?_
      exact digitValue_digitOf (Nat.digits_lt_base (by decide) among)
    rw [numeralValue, List.reverse_reverse, List.map_map, same, Nat.ofDigits_digits]

/-- A number below a power of ten has no more digits than that. -/
theorem length_decimal_le {n k : Nat} (positive : 0 < k) (small : n < 10 ^ k)
    : (decimal n).length ≤ k := by
  unfold decimal
  split
  next => exact positive
  next =>
    rw [List.length_reverse, List.length_map]
    exact (Nat.digits_length_le_iff (by decide) n).mpr small

-----------------------------------------------------------------------------------------
-- Reading numerals
-----------------------------------------------------------------------------------------

/-- The digits at the start of a text, as long as no digit follows them. -/
theorem takeWhile_isDigit {digits rest : Bytes} (numeral : ∀ byte ∈ digits, isDigit byte = true)
    (stops : ∀ byte ∈ rest.head?, isDigit byte = false)
    : (digits ++ rest).takeWhile isDigit = digits
      ∧ (digits ++ rest).dropWhile isDigit = rest := by
  rw [List.takeWhile_append_of_pos numeral, List.dropWhile_append_of_pos numeral]
  cases rest with
  | nil => simp
  | cons byte rest =>
      have stop := stops byte rfl
      simp [stop]

/-- The conversion reads a numeral as the number it stands for, as far as a `long` goes. -/
theorem strtol_numeral {text : Bytes} (numeral : IsNumeral text)
    : strtol text = min (numeralValue text : Int) (2 ^ 63 - 1) := by
  obtain ⟨nonempty, digits⟩ := numeral
  have all := (@takeWhile_isDigit text [] digits (by simp)).1
  rw [List.append_nil] at all
  obtain ⟨first, rest, rfl⟩ := List.exists_cons_of_ne_nil nonempty
  obtain ⟨space, plus, minus⟩ := isDigit.plain (digits first (List.mem_cons_self))
  simp only [strtol, List.dropWhile_cons, space, List.head?_cons, Option.some.injEq, plus, minus,
    or_self, if_false, all, Bool.false_eq_true]

/-- `atoi` reads a numeral as the number it stands for, if that is an `int`. -/
theorem atoi_numeral {text : Bytes} (numeral : IsNumeral text)
    (small : numeralValue text < 2 ^ 31)
    : atoi text = numeralValue text := by
  rw [atoi, strtol_numeral numeral, min_eq_left (by omega)]
  exact Int.bmod_eq_of_le (by omega) (by omega)

end LinuxStudy.Posix
