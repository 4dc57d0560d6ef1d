import Docket.Text.Scan
import Mathlib.Data.List.Induction
import Mathlib.Data.List.TakeWhile

/-! Scanners are put together from small ones, and so is what they take: each piece of a text is
taken by the scanner for it, and the rest is left to the next. What a writer of digits has
written is taken whole as long as its width or the text behind it tells where it ends. -/
namespace Docket.Scanning
open Docket.Text

/-- A scanner takes the front of a text for a value and leaves the rest. -/
def Takes {α : Type} (scanner : Scan α) (text : List Char) (value : α) (rest : List Char) : Prop :=
  scanner text = some (value, rest)

/-- No character of a kind stands at the front of a text. -/
def NoneAhead (test : Char → Bool) (text : List Char) : Prop :=
  ∀ c ∈ text.head?, test c = false

section
variable {α β : Type} {first second : Scan α} {next : α → Scan β} {a : α} {b : β}
variable {text middle rest : List Char}

theorem takes_pure (a : α) (text : List Char) : Takes (pure a : Scan α) text a text := rfl

/-- What comes after a scanner goes on with what it has taken. -/
theorem bind_of_takes (taken : Takes first text a middle) :
    (first >>= next) text = next a middle := by
  have run : (first >>= next) text = (first text).bind fun result => next result.1 result.2 := rfl
  unfold Takes at taken
  rw [run, taken]
  rfl

theorem takes_bind (taken : Takes first text a middle) (goesOn : Takes (next a) middle b rest) :
    Takes (first >>= next) text b rest := (bind_of_takes taken).trans goesOn

theorem refuses_bind (refused : first text = none) : (first >>= next) text = none := by
  have run : (first >>= next) text = (first text).bind fun result => next result.1 result.2 := rfl
  rw [run, refused]
  rfl

theorem takes_orElse_first (taken : Takes first text a rest) :
    Takes (Scan.orElse first second) text a rest := by
  unfold Takes at *
  simp only [Scan.orElse, taken]

theorem takes_orElse_second (refused : first text = none) (taken : Takes second text a rest) :
    Takes (Scan.orElse first second) text a rest := by
  unfold Takes at *
  simp only [Scan.orElse, refused, taken]

theorem whole?_of_takes (taken : Takes first text a []) : Scan.whole? first text = some a := by
  unfold Takes at taken
  simp only [Scan.whole?, StateT.run, taken]

theorem whole?_of_refuses (refused : first text = none) : Scan.whole? first text = none := by
  simp only [Scan.whole?, StateT.run, refused]

/-- A text that is accepted whole is taken to its end. -/
theorem takes_of_whole? (accepted : Scan.whole? first text = some a) : Takes first text a [] := by
  unfold Scan.whole? at accepted
  split at accepted
  · rename_i value ran
    cases accepted
    exact ran
  · cases accepted

/-- A text is not accepted whole where something is left. -/
theorem whole?_of_leftover {c : Char} (taken : Takes first text a (c :: rest)) :
    Scan.whole? first text = none := by
  unfold Takes at taken
  simp only [Scan.whole?, StateT.run, taken]

end

variable {c : Char} {run rest text : List Char} {test : Char → Bool}

theorem takes_one (passes : test c = true) : Takes (Scan.one test) (c :: rest) c rest := by
  simp only [Takes, Scan.one, passes, ↓reduceIte]

theorem one_refuses (absent : NoneAhead test text) : Scan.one test text = none := by
  cases text with
  | nil => rfl
  | cons c rest => simp only [Scan.one, absent c rfl, Bool.false_eq_true, ↓reduceIte]

theorem takes_mark (c : Char) (rest : List Char) : Takes (Scan.mark c) (c :: rest) () rest :=
  takes_bind (takes_one (beq_self_eq_true c)) (takes_pure () rest)

theorem mark_refuses (absent : NoneAhead (· == c) text) : Scan.mark c text = none :=
  refuses_bind (one_refuses absent)

theorem takes_require {condition : Bool} (holds : condition = true) (text : List Char) :
    Takes (Scan.require condition) text () text := by
  rw [Scan.require, if_pos holds]
  exact takes_pure () text

theorem takes_blanks (ink : NoneAhead isBlank text) : Takes Scan.blanks text () text := by
  cases text with
  | nil => rfl
  | cons c rest => simp only [Takes, Scan.blanks, dropBlanks_cons_ink (ink c rfl)]

theorem takeWhile_append_noneAhead (inside : ∀ c ∈ run, test c = true)
    (ends : NoneAhead test rest) : (run ++ rest).takeWhile test = run := by
  have stop : rest.takeWhile test = [] := by
    cases rest with
    | nil => rfl
    | cons c tail => rw [List.takeWhile_cons, ends c rfl, if_neg Bool.false_ne_true]
  rw [List.takeWhile_append_of_pos inside, stop, List.append_nil]

theorem dropWhile_append_noneAhead (inside : ∀ c ∈ run, test c = true)
    (ends : NoneAhead test rest) : (run ++ rest).dropWhile test = rest := by
  have stop : rest.dropWhile test = rest := by
    cases rest with
    | nil => rfl
    | cons c tail => rw [List.dropWhile_cons, ends c rfl, if_neg Bool.false_ne_true]
  rw [List.dropWhile_append_of_pos inside, stop]

/-- Some digits in a row, at least one. -/
structure DigitRun (run : List Char) : Prop where
  nonempty : run ≠ []
  digits : ∀ c ∈ run, c.isDigit = true

theorem takes_digits (isRun : DigitRun run) (ends : NoneAhead Char.isDigit rest) :
    Takes Scan.digits (run ++ rest) run rest := by
  have taken : run.isEmpty = false := by simpa using isRun.nonempty
  simp only [Takes, Scan.digits, takeWhile_append_noneAhead isRun.digits ends,
    dropWhile_append_noneAhead isRun.digits ends, taken, Bool.false_eq_true, ↓reduceIte]

/-- A run as long as the limit needs nothing behind it to end it. -/
theorem takes_digitsUpTo (isRun : DigitRun run) :
    Takes (Scan.digitsUpTo run.length) (run ++ rest) run rest := by
  have taken : run.isEmpty = false := by simpa using isRun.nonempty
  have kept : run.takeWhile Char.isDigit = run := List.takeWhile_eq_self_iff.mpr isRun.digits
  simp only [Takes, Scan.digitsUpTo, List.take_left, kept, List.drop_left, taken,
    Bool.false_eq_true, ↓reduceIte]

theorem digitRun_concat (digits : ∀ c ∈ run, c.isDigit = true) (n : Nat) :
    DigitRun (run ++ [digit n]) := by
  refine ⟨List.concat_ne_nil _ _, fun c member => ?_⟩
  rcases List.mem_append.mp member with earlier | last
  · exact digits c earlier
  · rw [List.mem_singleton.mp last]
    exact isDigit_digit n

theorem digitRun_fixedDigits (width n : Nat) : DigitRun (fixedDigits (width + 1) n) := by
  induction width generalizing n with
  | zero => exact digitRun_concat (List.forall_mem_nil _) n
  | succ width ih => exact digitRun_concat (ih (n / 10)).digits n

theorem digitRun_decimalDigits (n : Nat) : DigitRun (decimalDigits n) := by
  fun_induction decimalDigits n with
  | case1 n small => exact @digitRun_concat [] (List.forall_mem_nil _) n
  | case2 n large ih => exact digitRun_concat ih.digits n

theorem noneAhead_cons (fails : test c = false) (rest : List Char) :
    NoneAhead test (c :: rest) := by
  rintro first ⟨⟩
  exact fails

theorem noneAhead_nil (test : Char → Bool) : NoneAhead test [] := fun _ front => nomatch front

theorem beq_of_isDigit {mark : Char} (noDigit : mark.isDigit = false) (digit : c.isDigit = true) :
    (c == mark) = false := by
  refine beq_false_of_ne ?_
  rintro rfl
  rw [noDigit] at digit
  cases digit

/-- Where digits stand in front, nothing does that is no digit. -/
theorem noneAhead_of_digits (isRun : DigitRun run)
    (other : ∀ c, c.isDigit = true → test c = false) (rest : List Char) :
    NoneAhead test (run ++ rest) := by
  obtain ⟨nonempty, digits⟩ := isRun
  cases run with
  | nil => exact absurd rfl nonempty
  | cons c tail => exact noneAhead_cons (other c (digits c (List.mem_cons_self ..))) (tail ++ rest)

/-- What holds of the ten digits holds of every character that is a digit. -/
theorem of_isDigit {property : Char → Prop} (each : ∀ d, d < 10 → property (digit d))
    (isDigit : c.isDigit = true) : property c := by
  simp only [Char.isDigit, Bool.and_eq_true, decide_eq_true_eq, UInt32.le_iff_toNat_le] at isDigit
  obtain ⟨low, high⟩ := isDigit
  change 48 ≤ c.toNat at low
  change c.toNat ≤ 57 at high
  have code : '0'.toNat + (c.toNat - 48) % 10 = c.toNat := by
    change 48 + (c.toNat - 48) % 10 = c.toNat
    omega
  have spelled : digit (c.toNat - 48) = c := by rw [digit, code, Char.ofNat_toNat]
  rw [← spelled]
  exact each _ (by omega)

theorem isBlank_of_isDigit (isDigit : c.isDigit = true) : isBlank c = false :=
  @of_isDigit c (fun c => isBlank c = false) (by decide) isDigit

theorem isAlpha_of_isDigit (isDigit : c.isDigit = true) : c.isAlpha = false :=
  @of_isDigit c (fun c => c.isAlpha = false) (by decide) isDigit

/-- White space is passed over, and a visible character is none. -/
theorem takes_no_blanks (visible : isBlank c = false) (text : List Char) :
    Takes Scan.blanks (c :: text) () (c :: text) := takes_blanks (noneAhead_cons visible text)

/-- A number written with all the digits that it may have is read to its end. -/
theorem takes_number (width n : Nat) (rest : List Char) :
    Takes (Scan.number (width + 1)) (fixedDigits (width + 1) n ++ rest)
      (n % Nat.pow 10 (width + 1)) rest := by
  have isRun := digitRun_fixedDigits width n
  have ink := noneAhead_of_digits isRun (fun c digit => isBlank_of_isDigit digit) rest
  have taken : Takes (Scan.digitsUpTo (width + 1)) (fixedDigits (width + 1) n ++ rest)
      (fixedDigits (width + 1) n) rest := by
    simpa only [length_fixedDigits] using @takes_digitsUpTo _ rest isRun
  rw [← ofDigits_fixedDigits]
  exact takes_bind (takes_blanks ink) (takes_bind taken (takes_pure _ rest))

/-- Digits of exactly the width that is asked for are read. -/
theorem takes_exactDigits {width n : Nat} (small : n < Nat.pow 10 (width + 1)) (rest : List Char) :
    Takes (Scan.exactDigits (width + 1)) (fixedDigits (width + 1) n ++ rest) n rest := by
  have digits := (digitRun_fixedDigits width n).digits
  have front : (fixedDigits (width + 1) n ++ rest).take (width + 1) = fixedDigits (width + 1) n :=
    List.take_left' (length_fixedDigits (width + 1) n)
  have behind : (fixedDigits (width + 1) n ++ rest).drop (width + 1) = rest :=
    List.drop_left' (length_fixedDigits (width + 1) n)
  have accepted : (decide ((fixedDigits (width + 1) n).length = width + 1) &&
      (fixedDigits (width + 1) n).all Char.isDigit) = true := by
    rw [Bool.and_eq_true, decide_eq_true_eq, List.all_eq_true]
    exact ⟨length_fixedDigits (width + 1) n, digits⟩
  simp only [Takes, Scan.exactDigits, front, behind, accepted, ↓reduceIte, ofDigits_fixedDigits,
    Nat.mod_eq_of_lt small]

theorem exactDigits_refuses {width : Nat} (noDigit : NoneAhead Char.isDigit text) :
    Scan.exactDigits (width + 1) text = none := by
  cases text with
  | nil => rfl
  | cons c text =>
    have first : c.isDigit = false := noDigit c rfl
    simp only [Scan.exactDigits, List.take_succ_cons, List.all_cons, first, Bool.false_and,
      Bool.and_false, Bool.false_eq_true, ↓reduceIte]

/-- Digits have a value that their number bounds. -/
theorem ofDigits_lt (digits : ∀ c ∈ run, c.isDigit = true) :
    ofDigits run < Nat.pow 10 run.length := by
  induction run using List.reverseRecOn with
  | nil => exact Nat.one_pos
  | append_singleton run c ih =>
    have earlier := ih fun c member => digits c (List.mem_append_left _ member)
    have last : digitValue c < 10 :=
      @of_isDigit c (fun c => digitValue c < 10) (by decide)
        (digits c (List.mem_append_right _ (List.mem_singleton_self c)))
    have widened : Nat.pow 10 (run ++ [c]).length = 10 * Nat.pow 10 run.length := by
      rw [List.length_append, List.length_singleton]
      exact Nat.mul_comm ..
    rw [ofDigits_concat, widened]
    omega

theorem noneAhead_append (nonempty : text ≠ []) (absent : NoneAhead test text)
    (rest : List Char) : NoneAhead test (text ++ rest) := by
  cases text with
  | nil => exact absurd rfl nonempty
  | cons c text => exact noneAhead_cons (absent c rfl) (text ++ rest)

/-- A text with no blank at either end; inside there may be some. -/
structure Inked (text : List Char) : Prop where
  nonempty : text ≠ []
  front : NoneAhead isBlank text
  back : NoneAhead isBlank text.reverse

theorem inked_singleton (ink : isBlank c = false) : Inked [c] :=
  ⟨List.cons_ne_nil c [], noneAhead_cons ink [], noneAhead_cons ink []⟩

theorem inked_of_digits (isRun : DigitRun run) : Inked run := by
  have ink {run : List Char} (isRun : DigitRun run) : NoneAhead isBlank run := by
    rw [← List.append_nil run]
    exact noneAhead_of_digits isRun (fun c digit => isBlank_of_isDigit digit) []
  have reversed : DigitRun run.reverse :=
    ⟨by simpa using isRun.nonempty, fun c member => isRun.digits c (List.mem_reverse.mp member)⟩
  exact ⟨isRun.nonempty, ink isRun, ink reversed⟩

/-- What stands between two inked texts does not show at the ends. -/
theorem Inked.around {first last : List Char} (starts : Inked first) (ends : Inked last)
    (middle : List Char) : Inked (first ++ (middle ++ last)) := by
  refine ⟨?_, noneAhead_append starts.nonempty starts.front _, ?_⟩
  · exact List.append_ne_nil_of_left_ne_nil starts.nonempty _
  · rw [List.reverse_append, List.reverse_append, List.append_assoc]
    exact noneAhead_append (by simpa using ends.nonempty) ends.back _

theorem trimBlanks_inked (inked : Inked text) : trimBlanks text = text := by
  have drops {run : List Char} (front : NoneAhead isBlank run) : dropBlanks run = run :=
    @dropWhile_append_noneAhead [] run isBlank (List.forall_mem_nil _) front
  rw [trimBlanks, drops inked.front, drops inked.back, List.reverse_reverse]

variable {before after : List Char}

/-- Trimming does not see how many blanks stand around a text, be it inked or not. -/
theorem trimBlanks_around (blankBefore : ∀ c ∈ before, isBlank c = true)
    (blankAfter : ∀ c ∈ after, isBlank c = true) (text : List Char) :
    trimBlanks (before ++ text ++ after) = trimBlanks text := by
  have ends : ∀ c ∈ after.reverse, isBlank c = true :=
    fun c member => blankAfter c (List.mem_reverse.mp member)
  unfold trimBlanks dropBlanks
  rw [List.append_assoc, List.dropWhile_append_of_pos blankBefore, List.dropWhile_append]
  split
  · rename_i none
    rw [List.isEmpty_iff.mp none, List.dropWhile_eq_nil_iff.mpr blankAfter]
  · rw [List.reverse_append, List.dropWhile_append_of_pos ends]

/-- What trimming takes away is blank. -/
theorem exists_blanks_around (text : List Char) :
    ∃ before after, (∀ c ∈ before, isBlank c = true) ∧ (∀ c ∈ after, isBlank c = true) ∧
      before ++ trimBlanks text ++ after = text := by
  refine ⟨text.takeWhile isBlank, ((dropBlanks text).reverse.takeWhile isBlank).reverse,
    fun c member => List.mem_takeWhile_imp member, fun c member => ?_, ?_⟩
  · exact List.mem_takeWhile_imp (List.mem_reverse.mp member)
  · unfold trimBlanks
    rw [List.append_assoc, ← List.reverse_append]
    unfold dropBlanks
    rw [List.takeWhile_append_dropWhile, List.reverse_reverse, List.takeWhile_append_dropWhile]

/-- Nothing is left to trim: a text differs from its trimmed form by blanks around it. -/
theorem trimBlanks_trimBlanks (text : List Char) :
    trimBlanks (trimBlanks text) = trimBlanks text := by
  obtain ⟨before, after, blankBefore, blankAfter, split⟩ := exists_blanks_around text
  have around := trimBlanks_around blankBefore blankAfter (trimBlanks text)
  rw [split] at around
  exact around.symm

theorem trim_trim (text : String) : trim (trim text) = trim text := by
  rw [trim, trim, String.toList_ofList, trimBlanks_trimBlanks]

/-- Blanks around a text are trimmed, those inside stay. -/
theorem trimBlanks_padded (inked : Inked text) (blankBefore : ∀ c ∈ before, isBlank c = true)
    (blankAfter : ∀ c ∈ after, isBlank c = true) :
    trimBlanks (before ++ text ++ after) = text :=
  (trimBlanks_around blankBefore blankAfter text).trans (trimBlanks_inked inked)

end Docket.Scanning
