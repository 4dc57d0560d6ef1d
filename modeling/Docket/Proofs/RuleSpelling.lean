import Docket.Proofs.DueDateObstacle
import Docket.Proofs.Scanning

/-! What a rule spells is told by a few of its characters: the letters, digits and signs of ASCII.
Whatever else stands between them is decoration, and may be put in anywhere but inside the token of
the hearing date without changing what the rule says. The number is the decimal value of the first
digits in a row, however many there are and whether or not zeros stand in front. -/
namespace Docket.RuleSpelling
open Docket.Calendar Docket.DueDateObstacle Docket.Scanning Docket.Text

/-- The characters that can carry meaning in a rule: letters, digits and signs, all of ASCII. -/
def Carries (c : Char) : Prop :=
  'a' ≤ c ∧ c ≤ 'z' ∨ 'A' ≤ c ∧ c ≤ 'Z' ∨ '0' ≤ c ∧ c ≤ '9' ∨ c = '+' ∨ c = '-'

instance (c : Char) : Decidable (Carries c) := by
  unfold Carries
  infer_instance

/-- A text without the characters that carry no meaning. -/
def stripped (text : List Char) : List Char := text.filter fun c => Carries c

/-- The number that a run of digits spells, the last digit counting ones. -/
def spelled (digits : List Char) : Nat :=
  Nat.ofDigits 10 (digits.reverse.map fun c => c.toNat - '0'.toNat)

/-- The base that a rule names. -/
inductive NamesBase (text : String) : Base → Prop
  | hearing (spoken : SpeaksOfHearing text) : NamesBase text .hearingDate
  | today (silent : ¬ SpeaksOfHearing text) : NamesBase text .today

/-- What a text comes to when it is read as a rule. The base is told by the text as it stands, the
offset by the stripped text. -/
inductive Reads (text : String) : Except ReckoningError Rule → Prop
  | unsigned {base : Base} (based : NamesBase text base) (noPlus : '+' ∉ stripped text.toList)
      (noMinus : '-' ∉ stripped text.toList) : Reads text (.ok ⟨text, base, .none⟩)
  | plus {base : Base} {digits : List Char} {days : UInt32} (based : NamesBase text base)
      (sign : '+' ∈ stripped text.toList) (run : FirstRun (stripped text.toList) digits)
      (value : days.toNat = spelled digits) : Reads text (.ok ⟨text, base, .plus days⟩)
  | minus {base : Base} {digits : List Char} {days : UInt32} (based : NamesBase text base)
      (noPlus : '+' ∉ stripped text.toList) (sign : '-' ∈ stripped text.toList)
      (run : FirstRun (stripped text.toList) digits) (value : days.toNat = spelled digits) :
      Reads text (.ok ⟨text, base, .minus days⟩)
  | tooLarge {digits : List Char}
      (sign : '+' ∈ stripped text.toList ∨ '-' ∈ stripped text.toList)
      (run : FirstRun (stripped text.toList) digits) (large : 4294967295 < spelled digits) :
      Reads text (.error (.offsetTooLarge (String.ofList digits)))

/-- A plain text with characters put in that carry no meaning. -/
inductive Decorates : (plain text : List Char) → Prop
  | nil : Decorates [] []
  | keep {plain text : List Char} (c : Char) (rest : Decorates plain text) :
      Decorates (c :: plain) (c :: text)
  | insert {plain text : List Char} {c : Char} (removable : ¬ Carries c)
      (rest : Decorates plain text) : Decorates plain (c :: text)

/-- The sign that a count in a direction has. -/
def signOf : Direction → Char
  | .forward => '+'
  | .backward => '-'

/-- A sign, a number of days, with zeros in front of it or without, and letters for a unit. -/
inductive SpellsOffset (direction : Direction) (days : UInt32) : List Char → Prop
  | intro {digits unit : List Char} (nonempty : digits ≠ [])
      (isRun : ∀ c ∈ digits, c.isDigit = true) (value : spelled digits = days.toNat)
      (letters : ∀ c ∈ unit, c.isAlpha = true) :
      SpellsOffset direction days (signOf direction :: (digits ++ unit))

/-- A spelling of a rule: a word for the base and an offset, decorated anywhere but inside the token
of the hearing date. For today any word will do that does not speak of the hearing date. -/
inductive Spells : Base → Direction → UInt32 → List Char → Prop
  | today {direction : Direction} {days : UInt32} {word offset text : List Char}
      (letters : ∀ c ∈ word, c.isAlpha = true) (counts : SpellsOffset direction days offset)
      (silent : ¬ "hearingDate".toList <:+: word ++ offset)
      (decorated : Decorates (word ++ offset) text) : Spells .today direction days text
  | hearing {direction : Direction} {days : UInt32} {offset front back : List Char}
      (counts : SpellsOffset direction days offset) (opening : Decorates [] front)
      (decorated : Decorates offset back) :
      Spells .hearingDate direction days (front ++ "hearingDate".toList ++ back)

/-- The undecorated offset of so many days, as it is usually written. -/
def usualOffset (direction : Direction) (days : UInt32) : List Char :=
  signOf direction :: (decimalDigits days.toNat ++ ['d'])

/-- The usual spelling of a rule. -/
def usualRule (direction : Direction) (days : UInt32) : Base → List Char
  | .today => "$\x7bnow()".toList ++ (usualOffset direction days ++ ['\x7d'])
  | .hearingDate =>
    ['$', '\x7b'] ++ "hearingDate".toList ++ (usualOffset direction days ++ ['\x7d'])

variable {text : String} {base : Base} {direction : Direction} {days : UInt32}
variable {plain chars digits offset : List Char} {c : Char}

theorem isMeaningful_iff : isMeaningful c = true ↔ Carries c := by
  simp only [isMeaningful, Char.isAlphanum, Char.isAlpha, Char.isUpper, Char.isLower, Char.isDigit,
    Bool.or_eq_true, Bool.and_eq_true, decide_eq_true_eq, beq_iff_eq, Carries]
  change ((('A' ≤ c ∧ c ≤ 'Z' ∨ 'a' ≤ c ∧ c ≤ 'z') ∨ '0' ≤ c ∧ c ≤ '9') ∨ c = '+') ∨ c = '-' ↔ _
  tauto

theorem stripped_eq (chars : List Char) : stripped chars = chars.filter isMeaningful := by
  refine List.filter_congr fun c _ => ?_
  rw [Bool.eq_iff_iff, decide_eq_true_eq, isMeaningful_iff]

/-- Reading digits from the left gives the decimal value. -/
theorem ofDigits_eq_spelled (digits : List Char) : ofDigits digits = spelled digits := by
  induction digits using List.reverseRecOn with
  | nil => rfl
  | append_singleton digits c ih =>
    have last : spelled (digits ++ [c]) = digitValue c + 10 * spelled digits := by
      simp only [spelled, List.reverse_append, List.reverse_singleton, List.singleton_append,
        List.map_cons, Nat.ofDigits_cons]
      rfl
    rw [ofDigits_concat, ih, last, Nat.add_comm]

theorem base_iff : Base.ofText text = base ↔ NamesBase text base := by
  by_cases spoken : SpeaksOfHearing text
  · rw [base_of_spoken spoken]
    constructor
    · rintro rfl
      exact .hearing spoken
    · rintro (_ | silent)
      · rfl
      · exact absurd spoken silent
  · rw [base_of_silent spoken]
    constructor
    · rintro rfl
      exact .today spoken
    · rintro (again | _)
      · exact absurd again spoken
      · rfl

theorem mem_of_stripped (member : c ∈ stripped chars) : c ∈ chars := (List.mem_filter.mp member).1

theorem mem_stripped (member : c ∈ chars) (carries : Carries c) : c ∈ stripped chars :=
  List.mem_filter.mpr ⟨member, decide_eq_true carries⟩

theorem spellsCount_of_run (run : FirstRun (stripped text.toList) digits) :
    SpellsCount text digits := by
  rw [stripped_eq] at run
  exact run

/-- The count of a text that has a sign is read from its first run of digits. -/
theorem offset_of_value (signed : CountsIn text direction)
    (run : FirstRun (stripped text.toList) digits) (value : days.toNat = spelled digits) :
    Offset.ofText text = .ok (signedOffset direction days) := by
  have fits : ofDigits digits < 2 ^ 32 := by
    rw [ofDigits_eq_spelled, ← value]
    exact days.toNat_lt
  obtain ⟨read, accepted, same⟩ := daysOfDigits_fits fits
  rw [ofDigits_eq_spelled, ← value] at same
  rw [offset_signed signed (spellsCount_of_run run), accepted, UInt32.toNat_inj.mp same]
  rfl

theorem ofText_of_reads {result : Except ReckoningError Rule} (reads : Reads text result) :
    Rule.ofText text = result := by
  unfold Rule.ofText
  cases reads with
  | unsigned based noPlus noMinus =>
    have unsigned (direction : Direction) : ¬ CountsIn text direction := by
      rintro (plus | ⟨minus, _⟩)
      · exact noPlus (mem_stripped plus (by decide))
      · exact noMinus (mem_stripped minus (by decide))
    rw [offset_unsigned unsigned, base_iff.mpr based]
    rfl
  | plus based sign run value =>
    rw [offset_of_value (.forward (mem_of_stripped sign)) run value, base_iff.mpr based]
    rfl
  | minus based noPlus sign run value =>
    have without : '+' ∉ text.toList := fun member => noPlus (mem_stripped member (by decide))
    rw [offset_of_value (.backward (mem_of_stripped sign) without) run value, base_iff.mpr based]
    rfl
  | tooLarge sign run large =>
    have signed : ∃ direction, CountsIn text direction := by
      by_cases plus : '+' ∈ text.toList
      · exact ⟨_, .forward plus⟩
      · rcases sign with also | minus
        · exact absurd (mem_of_stripped also) plus
        · exact ⟨_, .backward (mem_of_stripped minus) plus⟩
    obtain ⟨direction, signed⟩ := signed
    rw [← ofDigits_eq_spelled] at large
    rw [offset_signed signed (spellsCount_of_run run), daysOfDigits_large large]
    rfl

/-- Every text comes to something. -/
theorem exists_reads (text : String) : ∃ result, Reads text result := by
  have based : NamesBase text (Base.ofText text) := base_iff.mp rfl
  have run : FirstRun (stripped text.toList) (firstDigits (stripped text.toList)) :=
    firstRun_iff.mpr rfl
  by_cases plus : '+' ∈ stripped text.toList
  · by_cases large : 4294967295 < spelled (firstDigits (stripped text.toList))
    · exact ⟨_, .tooLarge (.inl plus) run large⟩
    · exact ⟨_, .plus based plus run (UInt32.toNat_ofNat_of_lt (Nat.lt_succ_of_le (Nat.le_of_not_lt large)))⟩
  · by_cases minus : '-' ∈ stripped text.toList
    · by_cases large : 4294967295 < spelled (firstDigits (stripped text.toList))
      · exact ⟨_, .tooLarge (.inr minus) run large⟩
      · exact ⟨_, .minus based plus minus run
          (UInt32.toNat_ofNat_of_lt (Nat.lt_succ_of_le (Nat.le_of_not_lt large)))⟩
    · exact ⟨_, .unsigned based plus minus⟩

theorem ofText_iff_reads {result : Except ReckoningError Rule} :
    Rule.ofText text = result ↔ Reads text result := by
  refine ⟨?_, ofText_of_reads⟩
  rintro rfl
  obtain ⟨result, reads⟩ := exists_reads text
  rw [ofText_of_reads reads]
  exact reads

/-- Decoration is what stripping takes away. -/
theorem stripped_of_decorates (decorated : Decorates plain chars) :
    stripped chars = stripped plain := by
  induction decorated with
  | nil => rfl
  | keep c rest ih =>
    unfold stripped at *
    rw [List.filter_cons, List.filter_cons, ih]
  | insert removable rest ih =>
    unfold stripped at *
    rw [List.filter_cons_of_neg (by simpa using removable), ih]

theorem carries_of_isAlpha (letter : c.isAlpha = true) : Carries c := by
  rw [← isMeaningful_iff]
  simp only [isMeaningful, Char.isAlphanum, letter, Bool.true_or]

theorem carries_of_isDigit (digit : c.isDigit = true) : Carries c := by
  rw [← isMeaningful_iff]
  simp only [isMeaningful, Char.isAlphanum, digit, Bool.true_or, Bool.or_true]

theorem isDigit_of_isAlpha (letter : c.isAlpha = true) : c.isDigit = false := by
  by_contra digit
  rw [Bool.not_eq_false] at digit
  rw [isAlpha_of_isDigit digit] at letter
  cases letter

theorem carries_signOf (direction : Direction) : Carries (signOf direction) := by
  cases direction <;> decide

theorem stripped_of_carries (all : ∀ c ∈ chars, Carries c) : stripped chars = chars :=
  List.filter_eq_self.mpr fun c member => decide_eq_true (all c member)

theorem carries_of_offset (counts : SpellsOffset direction days offset) :
    ∀ c ∈ offset, Carries c := by
  obtain ⟨_, isRun, _, letters⟩ := counts
  intro c member
  rcases List.mem_cons.mp member with rfl | later
  · exact carries_signOf direction
  · rcases List.mem_append.mp later with digit | letter
    · exact carries_of_isDigit (isRun c digit)
    · exact carries_of_isAlpha (letters c letter)

/-- No letter or digit is a sign. -/
theorem ne_of_sign {sign : Char} (noLetter : sign.isAlpha = false) (noDigit : sign.isDigit = false)
    (inside : c.isAlpha = true ∨ c.isDigit = true) : sign ≠ c := by
  rintro rfl
  rw [noLetter, noDigit] at inside
  rcases inside with letter | digit
  · cases letter
  · cases digit

/-- A text that is a word and an offset, once it is stripped, is read as it is spelled. -/
theorem reads_of_stripped {word : List Char} (based : NamesBase text base)
    (letters : ∀ c ∈ word, c.isAlpha = true) (counts : SpellsOffset direction days offset)
    (left : stripped text.toList = word ++ offset) :
    Reads text (.ok ⟨text, base, signedOffset direction days⟩) := by
  cases counts with
  | @intro digits unit nonempty isRun value unitLetters =>
    have run : FirstRun (stripped text.toList) digits := by
      refine ⟨word ++ [signOf direction], unit, ?_, ?_, isRun, ?_, fun none => absurd none nonempty⟩
      · rw [left]
        simp only [List.append_assoc, List.cons_append, List.nil_append]
      · intro c member
        rcases List.mem_append.mp member with letter | sign
        · exact isDigit_of_isAlpha (letters c letter)
        · rw [List.mem_singleton.mp sign]
          cases direction <;> rfl
      · intro c front
        exact isDigit_of_isAlpha (unitLetters c (List.mem_of_mem_head? front))
    have sign : signOf direction ∈ stripped text.toList := by
      rw [left]
      exact List.mem_append_right _ (List.mem_cons_self ..)
    cases direction with
    | forward => exact .plus based sign run value.symm
    | backward =>
      refine .minus based ?_ sign run value.symm
      rw [left]
      intro member
      rcases List.mem_append.mp member with letter | later
      · exact ne_of_sign rfl rfl (.inl (letters _ letter)) rfl
      · rcases List.mem_cons.mp later with minus | later
        · exact absurd minus (by decide)
        · rcases List.mem_append.mp later with digit | letter
          · exact ne_of_sign rfl rfl (.inr (isRun _ digit)) rfl
          · exact ne_of_sign rfl rfl (.inl (unitLetters _ letter)) rfl

/-- A spelling of a rule is read as the rule. -/
theorem reads_of_spells (spells : Spells base direction days text.toList) :
    Reads text (.ok ⟨text, base, signedOffset direction days⟩) := by
  generalize chars : text.toList = spelling at spells
  cases spells with
  | @today _ _ word offset _ letters counts silent decorated =>
    have left : stripped text.toList = word ++ offset := by
      rw [chars, stripped_of_decorates decorated]
      refine stripped_of_carries fun c member => ?_
      rcases List.mem_append.mp member with letter | later
      · exact carries_of_isAlpha (letters c letter)
      · exact carries_of_offset counts c later
    refine reads_of_stripped (.today fun spoken => silent ?_) letters counts left
    -- The token has no decoration in it, so it would still stand in the stripped text.
    have kept : stripped "hearingDate".toList <:+: stripped text.toList := spoken.filter _
    rw [left] at kept
    exact kept
  | @hearing _ _ offset front back counts opening decorated =>
    have left : stripped text.toList = "hearingDate".toList ++ offset := by
      have split : stripped text.toList =
          stripped front ++ stripped "hearingDate".toList ++ stripped back := by
        rw [chars, stripped, List.filter_append, List.filter_append]
        rfl
      rw [split, stripped_of_decorates opening, stripped_of_decorates decorated,
        stripped_of_carries (carries_of_offset counts)]
      rfl
    refine reads_of_stripped (.hearing ?_) (List.all_eq_true.mp (by decide)) counts left
    rw [SpeaksOfHearing, chars]
    exact List.infix_append front _ back

theorem Decorates.refl (plain : List Char) : Decorates plain plain := by
  induction plain with
  | nil => exact .nil
  | cons c plain ih => exact .keep c ih

theorem Decorates.append {others more : List Char} (first : Decorates plain chars)
    (second : Decorates others more) : Decorates (plain ++ others) (chars ++ more) := by
  induction first with
  | nil => exact second
  | keep c rest ih => exact .keep c ih
  | insert removable rest ih => exact .insert removable ih

theorem spells_usualOffset (direction : Direction) (days : UInt32) :
    SpellsOffset direction days (usualOffset direction days) := by
  have isRun := digitRun_decimalDigits days.toNat
  refine .intro isRun.nonempty isRun.digits ?_ (List.all_eq_true.mp (by decide))
  rw [← ofDigits_eq_spelled, ofDigits_decimalDigits]

/-- Every base, direction and number of days has its usual spelling. -/
theorem spells_usualRule (base : Base) (direction : Direction) (days : UInt32) :
    Spells base direction days (usualRule direction days base) := by
  have counts := spells_usualOffset direction days
  have decorated : Decorates (usualOffset direction days)
      (usualOffset direction days ++ ['\x7d']) := by
    have closed := (Decorates.refl (usualOffset direction days)).append
      (.insert (c := '\x7d') (by decide) .nil)
    rwa [List.append_nil] at closed
  cases base with
  | today =>
    have word : Decorates "now".toList "$\x7bnow()".toList :=
      .insert (by decide) (.insert (by decide) (.keep 'n' (.keep 'o' (.keep 'w'
        (.insert (by decide) (.insert (by decide) .nil))))))
    refine .today (List.all_eq_true.mp (by decide)) counts ?_ (word.append decorated)
    -- No word or number here has the first letter of the token.
    intro token
    have letter : 'h' ∈ "now".toList ++ usualOffset direction days :=
      token.subset (List.contains_iff_mem.mp (by decide))
    rcases List.mem_append.mp letter with inWord | inOffset
    · exact absurd (List.contains_iff_mem.mpr inWord) (by decide)
    · rcases List.mem_cons.mp inOffset with sign | later
      · cases direction <;> exact absurd sign (by decide)
      · rcases List.mem_append.mp later with digit | unit
        · exact absurd ((digitRun_decimalDigits days.toNat).digits _ digit) (by decide)
        · exact absurd (List.mem_singleton.mp unit) (by decide)
  | hearingDate =>
    exact .hearing counts (.insert (by decide) (.insert (by decide) .nil)) decorated

/-- What a text is read as is told by its stripped form and by the token of the hearing date. The
base can be told whether or not the offset can be read, decoration makes no difference to the
offset, and every spelling of a rule, the usual one among them, is read as that rule. -/
theorem rules_are_read_as_spelled :
    (∀ text result, Rule.ofText text = result ↔ Reads text result) ∧
      (∀ text base, Base.ofText text = base ↔ NamesBase text base) ∧
      (∀ plain text : String, Decorates plain.toList text.toList →
        Offset.ofText text = Offset.ofText plain) ∧
      (∀ base direction days (text : String), Spells base direction days text.toList →
        Rule.ofText text = .ok ⟨text, base, signedOffset direction days⟩) ∧
      ∀ base direction days, Spells base direction days (usualRule direction days base) := by
  refine ⟨fun text result => ofText_iff_reads, fun text base => base_iff, ?_, ?_, spells_usualRule⟩
  · intro plain text decorated
    have same := stripped_of_decorates decorated
    rw [stripped_eq, stripped_eq] at same
    rw [Offset.ofText, Offset.ofText, same]
  · intro base direction days text spells
    exact ofText_of_reads (reads_of_spells spells)

/-- An offset of seven days back, with two zeros in front of the number. -/
def sevenBack : List Char := "-007d".toList

/-- The offset in a decoration that parts its digits. -/
def sevenBackDecorated : List Char := " - 0 07d\x7d".toList

/-- A rule decorated inside its number is read as it is spelled, and so is its offset alone. -/
theorem decorated_rule_is_read :
    Spells .hearingDate .backward 7 "$\x7bhearingDate - 0 07d\x7d".toList ∧
      Rule.ofText "$\x7bhearingDate - 0 07d\x7d" =
        .ok ⟨"$\x7bhearingDate - 0 07d\x7d", .hearingDate, .minus 7⟩ ∧
      Decorates "-007d".toList " - 0 07d\x7d".toList ∧
      Offset.ofText " - 0 07d\x7d" = Offset.ofText "-007d" := by
  have decorated : Decorates sevenBack sevenBackDecorated :=
    .insert (by decide) (.keep '-' (.insert (by decide) (.keep '0' (.insert (by decide)
      (.keep '0' (.keep '7' (.keep 'd' (.insert (by decide) .nil))))))))
  have counts : SpellsOffset .backward 7 sevenBack :=
    @SpellsOffset.intro .backward 7 ['0', '0', '7'] ['d'] (List.cons_ne_nil _ _)
      (List.all_eq_true.mp (by decide)) rfl (List.all_eq_true.mp (by decide))
  have opening : Decorates [] ['$', '\x7b'] := .insert (by decide) (.insert (by decide) .nil)
  have spells := Spells.hearing counts opening decorated
  obtain ⟨_, _, offsets, spellings, _⟩ := rules_are_read_as_spelled
  exact ⟨spells, spellings .hearingDate .backward 7 _ spells, decorated, offsets _ _ decorated⟩

end Docket.RuleSpelling
