import Docket.Task.Id
import Mathlib

/-! The spelling of a task identifier is read as the same identifier: its 32 digits determine the
128 bits, and the hyphens between the groups can be told from them. -/
namespace Docket.TaskIdSpelling
open Docket.Json TaskId

/-- A digit is read as the last four bits that it was written from. -/
theorem hexValue?_hexDigit (n : Nat) : hexValue? (hexDigit n) = some (n % 16) := by
  have known : ∀ d, d < 16 → hexValue? (hexDigit d) = some d := by decide
  have last : hexDigit n = hexDigit (n % 16) := by simp only [hexDigit, Nat.mod_mod]
  rw [last]
  exact known _ (Nat.mod_lt n (by decide))

theorem length_hexDigits (width n : Nat) : (hexDigits width n).length = width := by
  induction width generalizing n with
  | zero => rfl
  | succ width ih => rw [hexDigits, List.length_append, ih, List.length_singleton]

theorem ofHex?_snoc (digits : List Char) (c : Char) :
    ofHex? (digits ++ [c]) =
      (ofHex? digits).bind fun value => (hexValue? c).map (16 * value + ·) := by
  rw [ofHex?, ofHex?, List.foldlM_append]
  congr 1
  funext value
  cases read : hexValue? c <;> simp [read]

/-- As many digits as there are keep the number below that power of sixteen. -/
theorem ofHex?_hexDigits (width n : Nat) : ofHex? (hexDigits width n) = some (n % 16 ^ width) := by
  induction width generalizing n with
  | zero =>
    rw [pow_zero, Nat.mod_one]
    rfl
  | succ width ih =>
    have value : 16 * (n / 16 % 16 ^ width) + n % 16 = n % 16 ^ (width + 1) := by
      rw [pow_succ', Nat.mod_mul, add_comm]
    rw [hexDigits, ofHex?_snoc, ih, hexValue?_hexDigit, Option.bind_some, Option.map_some, value]

theorem hexDigit_ne_hyphen (n : Nat) : hexDigit n ≠ '-' := by
  intro hyphen
  have read := hexValue?_hexDigit n
  rw [hyphen] at read
  cases read

theorem ne_hyphen_of_mem_hexDigits {width n : Nat} {c : Char} (member : c ∈ hexDigits width n) :
    c ≠ '-' := by
  induction width generalizing n with
  | zero => cases member
  | succ width ih =>
    rcases List.mem_append.mp member with higher | last
    · exact ih higher
    · rw [List.mem_singleton.mp last]
      exact hexDigit_ne_hyphen n

theorem join_groups (digits : List Char) :
    digits.take 8 ++ ((digits.drop 8).take 4 ++ ((digits.drop 12).take 4 ++
      ((digits.drop 16).take 4 ++ digits.drop 20))) = digits := by
  have next (start : Nat) :
      (digits.drop start).take 4 ++ digits.drop (start + 4) = digits.drop start := by
    rw [← List.drop_drop, List.take_append_drop]
  rw [next 16, next 12, next 8, List.take_append_drop]

/-- Without the hyphens only the digits are left, in their order. -/
theorem filter_grouped {digits : List Char} (noHyphen : ∀ c ∈ digits, c ≠ '-') :
    (grouped digits).filter (· != '-') = digits := by
  have hyphen : ('-' != '-') = false := rfl
  have kept : digits.filter (· != '-') = digits := by
    apply List.filter_eq_self.mpr
    intro c member
    exact bne_iff_ne.mpr (noHyphen c member)
  -- Every hyphen goes, and the groups that remain join to the digits.
  calc (grouped digits).filter (· != '-')
      = (digits.take 8 ++ ((digits.drop 8).take 4 ++ ((digits.drop 12).take 4 ++
          ((digits.drop 16).take 4 ++ digits.drop 20)))).filter (· != '-') := by
        simp only [grouped, List.filter_append, List.filter_cons, List.append_assoc,
          List.cons_append, hyphen, Bool.false_eq_true, ↓reduceIte]
    _ = digits.filter (· != '-') := by rw [join_groups]
    _ = digits := kept

theorem length_grouped {digits : List Char} (whole : digits.length = 32) :
    (grouped digits).length = 36 := by
  simp [grouped, whole]

/-- Reading gives back every task identifier from its spelling. -/
theorem ofText?_text (id : TaskId) : TaskId.ofText? id.text = some id := by
  have width : id.digits.length = 32 := length_hexDigits 32 _
  have plain : (grouped id.digits).filter (· != '-') = id.digits :=
    filter_grouped fun _ member => ne_hyphen_of_mem_hexDigits member
  have bound : id.bits.toNat % 16 ^ 32 = id.bits.toNat :=
    Nat.mod_eq_of_lt (id.bits.isLt.trans_eq (by norm_num))
  have read : ofDigits? id.digits = some id := by
    rw [ofDigits?, if_pos width, TaskId.digits, ofHex?_hexDigits, bound, Option.map_some,
      BitVec.ofNat_toNat, BitVec.setWidth_eq]
  simp only [ofText?, TaskId.text, String.toList_ofList, length_grouped width, ofGrouped?, plain,
    ↓reduceIte, read]

end Docket.TaskIdSpelling
