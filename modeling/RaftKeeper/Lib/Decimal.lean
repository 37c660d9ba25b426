import Mathlib.Data.List.TakeWhile
import Mathlib.Tactic.IntervalCases
import Mathlib.Tactic.Ring

/-!
# Decimal numbers in byte strings

Numbers are printed without leading zeros and read as the longest run of digits at the
front of a string, the way `fmt` and `std::from_chars` do it. Fields that are joined by a
separator which none of them contains are found again by splitting at it.
-/

namespace Decimal

def digit (number : ℕ) : UInt8 := UInt8.ofNat (48 + number)

def isDigit (byte : UInt8) : Bool := 48 ≤ byte ∧ byte ≤ 57

/-- Put the digits of the number before those that are there, with fuel for the divisions. -/
def decimalAux : ℕ → ℕ → List UInt8 → List UInt8
  | 0, number, after => digit (number % 10) :: after
  | fuel + 1, number, after =>
    if number < 10 then digit number :: after
    else decimalAux fuel (number / 10) (digit (number % 10) :: after)

def decimal (number : ℕ) : List UInt8 := decimalAux number number []

def appendDigit (number : ℕ) (byte : UInt8) : ℕ := number * 10 + (byte.toNat - 48)

def ofDecimal (bytes : List UInt8) : Option ℕ :=
  let digits := bytes.takeWhile isDigit
  if digits = [] then none else some (digits.foldl appendDigit 0)

theorem toNat_digit {number : ℕ} (small : number < 10) : (digit number).toNat = 48 + number := by
  rw [digit, UInt8.toNat_ofNat']
  omega

theorem isDigit_digit {number : ℕ} (small : number < 10) : isDigit (digit number) = true := by
  have value := toNat_digit small
  simp only [isDigit, decide_eq_true_eq, UInt8.le_iff_toNat_le]
  constructor
  · rw [value]
    exact Nat.le_add_right 48 number
  · rw [value]
    change 48 + number ≤ 57
    omega

theorem appendDigit_digit (number : ℕ) {last : ℕ} (small : last < 10) :
    appendDigit number (digit last) = number * 10 + last := by
  rw [appendDigit, toNat_digit small, Nat.add_sub_cancel_left]

theorem isDigit_of_mem_decimalAux {fuel number : ℕ} {after : List UInt8}
    (digits : ∀ byte ∈ after, isDigit byte = true) :
    ∀ byte ∈ decimalAux fuel number after, isDigit byte = true := by
  induction fuel generalizing number after with
  | zero =>
    simp only [decimalAux, List.mem_cons, forall_eq_or_imp]
    exact ⟨isDigit_digit (Nat.mod_lt _ (by decide)), digits⟩
  | succ fuel ih =>
    rw [decimalAux]
    split
    · rename_i small
      simp only [List.mem_cons, forall_eq_or_imp]
      exact ⟨isDigit_digit small, digits⟩
    · apply ih
      simp only [List.mem_cons, forall_eq_or_imp]
      exact ⟨isDigit_digit (Nat.mod_lt _ (by decide)), digits⟩

theorem decimalAux_ne_nil (fuel number : ℕ) (after : List UInt8) :
    decimalAux fuel number after ≠ [] := by
  induction fuel generalizing number after with
  | zero => simp [decimalAux]
  | succ fuel ih =>
    rw [decimalAux]
    split
    · simp
    · exact ih _ _

theorem foldl_decimalAux {fuel number : ℕ} (enough : number ≤ fuel) (after : List UInt8) :
    (decimalAux fuel number after).foldl appendDigit 0 = after.foldl appendDigit number := by
  induction fuel generalizing number after with
  | zero =>
    have zero : number = 0 := Nat.le_zero.mp enough
    rw [zero, decimalAux, List.foldl_cons, appendDigit_digit 0 (by decide)]
  | succ fuel ih =>
    rw [decimalAux]
    split
    · rename_i small
      rw [List.foldl_cons, appendDigit_digit 0 small, Nat.zero_mul, Nat.zero_add]
    · have divided : number / 10 * 10 + number % 10 = number := Nat.div_add_mod' number 10
      rw [ih (by omega), List.foldl_cons, appendDigit_digit _ (Nat.mod_lt _ (by decide)), divided]

theorem isDigit_of_mem_decimal {number : ℕ} : ∀ byte ∈ decimal number, isDigit byte = true :=
  isDigit_of_mem_decimalAux (by simp)

theorem decimal_ne_nil (number : ℕ) : decimal number ≠ [] := decimalAux_ne_nil _ _ _

@[simp]
theorem ofDecimal_decimal (number : ℕ) : ofDecimal (decimal number) = some number := by
  have whole : (decimal number).takeWhile isDigit = decimal number := by
    rw [List.takeWhile_eq_self_iff]
    exact isDigit_of_mem_decimal
  rw [ofDecimal, whole, if_neg (decimal_ne_nil number), decimal, foldl_decimalAux le_rfl]
  rfl

/-- The pieces between the separators; an empty last piece is left out. -/
def splitInto (separator : UInt8) (bytes : List UInt8) : List (List UInt8) :=
  let pieces := bytes.splitOn separator
  if pieces.getLast? = some [] then pieces.dropLast else pieces

def joinWith (separator : UInt8) (pieces : List (List UInt8)) : List UInt8 :=
  [separator].intercalate pieces

theorem splitInto_joinWith {separator : UInt8} {pieces : List (List UInt8)}
    (free : ∀ piece ∈ pieces, separator ∉ piece) (nonempty : pieces ≠ [])
    (last : pieces.getLast? ≠ some []) :
    splitInto separator (joinWith separator pieces) = pieces := by
  have split : (joinWith separator pieces).splitOn separator = pieces :=
    List.splitOn_intercalate separator free nonempty
  rw [splitInto, split, if_neg last]

end Decimal
