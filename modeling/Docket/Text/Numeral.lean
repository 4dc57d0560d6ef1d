/-! Numbers are written with the ten digits 0 to 9 of ASCII, most significant first.
The value of a run of digits does not depend on leading zeros, so a number has one
value and as many spellings as there are widths to write it in. -/
namespace Docket.Text

/-- The number that one digit stands for. -/
def digitValue (c : Char) : Nat := c.toNat - '0'.toNat

/-- The digit that stands for a number below ten. -/
def digit (n : Nat) : Char := Char.ofNat ('0'.toNat + n % 10)

/-- The value of a run of digits; the empty run counts as zero. -/
def ofDigits (digits : List Char) : Nat :=
  digits.foldl (fun value c => 10 * value + digitValue c) 0

/-- Exactly `width` digits of a number, the higher ones cut off. -/
def fixedDigits : (width : Nat) → (n : Nat) → List Char
  | 0, _ => []
  | width + 1, n => fixedDigits width (n / 10) ++ [digit n]

/-- The digits of a number without leading zeros; zero is one digit. -/
def decimalDigits (n : Nat) : List Char :=
  if n < 10 then [digit n] else decimalDigits (n / 10) ++ [digit n]
termination_by n
decreasing_by omega

/-- At least `width` digits: leading zeros where the number is too short. -/
def paddedDigits (width n : Nat) : List Char :=
  if n < Nat.pow 10 width then fixedDigits width n else decimalDigits n

/-- The decimal spelling of a number. -/
def decimal (n : Nat) : String := String.ofList (decimalDigits n)

@[simp] theorem length_fixedDigits (width n : Nat) : (fixedDigits width n).length = width := by
  induction width generalizing n with
  | zero => rfl
  | succ width ih => simp [fixedDigits, ih]

theorem digit_cases {property : Char → Prop} (each : ∀ d, d < 10 → property (digit d)) (n : Nat) :
    property (digit n) := by
  have same : digit n = digit (n % 10) := by simp [digit]
  rw [same]
  exact each _ (Nat.mod_lt _ (by decide))

theorem isDigit_digit (n : Nat) : (digit n).isDigit = true :=
  @digit_cases (fun c => c.isDigit = true) (by decide) n

@[simp] theorem digitValue_digit (n : Nat) : digitValue (digit n) = n % 10 := by
  have same : digit n = digit (n % 10) := by simp [digit]
  have small : ∀ d, d < 10 → digitValue (digit d) = d := by decide
  rw [same, small _ (Nat.mod_lt _ (by decide))]

@[simp] theorem ofDigits_nil : ofDigits [] = 0 := rfl

@[simp] theorem ofDigits_concat (digits : List Char) (c : Char) :
    ofDigits (digits ++ [c]) = 10 * ofDigits digits + digitValue c := by
  simp [ofDigits, List.foldl_append]

/-- Cutting a number to `width` digits keeps its remainder. -/
theorem ofDigits_fixedDigits (width n : Nat) :
    ofDigits (fixedDigits width n) = n % Nat.pow 10 width := by
  induction width generalizing n with
  | zero => simp [fixedDigits, Nat.mod_one]
  | succ width ih =>
    have widened : Nat.pow 10 (width + 1) = 10 * Nat.pow 10 width := Nat.mul_comm ..
    rw [fixedDigits, ofDigits_concat, ih, digitValue_digit, widened, Nat.mod_mul]
    omega

/-- The shortest spelling reads back. -/
theorem ofDigits_decimalDigits (n : Nat) : ofDigits (decimalDigits n) = n := by
  fun_induction decimalDigits n with
  | case1 n small => simpa [ofDigits] using Nat.mod_eq_of_lt small
  | case2 n large ih => rw [ofDigits_concat, ih, digitValue_digit]; omega

/-- A padded spelling reads back. -/
theorem ofDigits_paddedDigits (width n : Nat) : ofDigits (paddedDigits width n) = n := by
  unfold paddedDigits
  split
  · rename_i fits; rw [ofDigits_fixedDigits, Nat.mod_eq_of_lt fits]
  · exact ofDigits_decimalDigits n

end Docket.Text
