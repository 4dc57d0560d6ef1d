import Docket.Json.Printer
import Docket.Json.Reader
import Docket.Proofs.Scanning
import Mathlib

/-! The written form of a document is read back to the same document, whatever texts and numbers
it holds. Reading goes token by token, so the proof does too: each printed part is taken as the
tokens it was printed from, and moves the reader on to the stage where the part is done. -/
namespace Docket.JsonText
open Docket.Json Docket.Scanning Docket.Text

/-- A piece stands for one character, as it is written and as it is read. -/
structure Spells (piece : Piece) (c : Char) : Prop where
  scanned : ∀ done rest, scanPieces done (escape c ++ rest) = scanPieces (piece :: done) rest
  read : ∀ pieces, charsOfPieces? (piece :: pieces) = (charsOfPieces? pieces).map (c :: ·)

theorem scanPieces_visible {c : Char} {done : List Piece} {rest : List Char} (quote : c ≠ '"')
    (backslash : c ≠ '\\') (visible : ¬ c.toNat < 0x20) :
    scanPieces done (c :: rest) = scanPieces (.char c :: done) rest := by
  rw [scanPieces.eq_def]
  split <;> simp_all

theorem charsOfPieces?_unit {value : Nat} (small : value < 0x20) (pieces : List Piece) :
    charsOfPieces? (.unit value :: pieces) =
      (charsOfPieces? pieces).map (Char.ofNat value :: ·) := by
  have noHigh : isHighHalf value = false := by
    simp only [isHighHalf, Bool.and_eq_false_iff, decide_eq_false_iff_not]
    omega
  have noLow : isLowHalf value = false := by
    simp only [isLowHalf, Bool.and_eq_false_iff, decide_eq_false_iff_not]
    omega
  rw [charsOfPieces?.eq_def]
  split <;> simp_all

/-- Every character is written as a piece that stands for it. -/
theorem exists_spells (c : Char) : ∃ piece, Spells piece c := by
  have control : ∀ n, n < 0x20 →
      ofHex? ['0', '0', hexDigit (n / 16), hexDigit n] = some n := by decide
  -- Seven characters have escapes of their own, the other control characters are escaped by their
  -- code, and all else stands for itself.
  by_cases short : c ∈ ['"', '\\', '\x08', '\x0c', '\n', '\r', '\t']
  · refine ⟨.char c, fun done rest => ?_, fun pieces => by simp [charsOfPieces?]⟩
    simp only [List.mem_cons, List.not_mem_nil, or_false] at short
    rcases short with rfl | rfl | rfl | rfl | rfl | rfl | rfl <;>
      simp [escape, scanPieces, escaped?]
  · simp only [List.mem_cons, List.not_mem_nil, or_false, not_or] at short
    have written : escape c = if c.toNat < 0x20 then
        ['\\', 'u', '0', '0', hexDigit (c.toNat / 16), hexDigit c.toNat] else [c] := by
      unfold escape
      split <;> simp_all
    by_cases hidden : c.toNat < 0x20
    · refine ⟨.unit c.toNat, fun done rest => ?_, fun pieces => ?_⟩
      · rw [written, if_pos hidden]
        simp [scanPieces, control _ hidden]
      · rw [charsOfPieces?_unit hidden, Char.ofNat_toNat]
    · refine ⟨.char c, fun done rest => ?_, fun pieces => by simp [charsOfPieces?]⟩
      rw [written, if_neg hidden]
      exact scanPieces_visible short.1 short.2.1 hidden

theorem exists_pieces (text : List Char) : ∃ pieces, charsOfPieces? pieces = some text ∧
    ∀ done rest, scanPieces done (text.flatMap escape ++ '"' :: rest) =
      some (done.reverse ++ pieces, rest) := by
  induction text with
  | nil => exact ⟨[], rfl, fun done rest => by simp [scanPieces]⟩
  | cons c text ih =>
    obtain ⟨piece, spells⟩ := exists_spells c
    obtain ⟨pieces, read, scanned⟩ := ih
    refine ⟨piece :: pieces, by rw [spells.read, read]; rfl, fun done rest => ?_⟩
    rw [List.flatMap_cons, List.append_assoc, spells.scanned, scanned]
    simp

/-- A token stands at the very front of a text. -/
structure Front (text : List Char) (token : Token) (rest : List Char) : Prop where
  tight : NoneAhead isSpace text
  next : Token.next? text = some (token, rest)

variable {rest : List Char}

theorem front_mark {c : Char} {token : Token} (mark : Token.ofMark? c = some token)
    (rest : List Char) : Front (c :: rest) token rest := by
  have visible : isSpace c = false := by
    unfold Token.ofMark? at mark
    split at mark
    all_goals first | rfl | cases mark
  exact ⟨noneAhead_cons visible rest, by simp only [Token.next?, mark]⟩

/-- A quoted text is the token of the text. -/
theorem front_text (text : String) (rest : List Char) :
    Front (quotedChars text ++ rest) (.text (some text)) rest := by
  obtain ⟨pieces, read, scanned⟩ := exists_pieces text.toList
  have mark : Token.ofMark? '"' = none := rfl
  have body := scanned [] rest
  refine ⟨noneAhead_cons rfl _, ?_⟩
  simp only [quotedChars, Token.next?, List.cons_append, List.append_assoc, List.nil_append, mark,
    ↓reduceIte, body, List.reverse_nil, read, Option.map_some, String.ofList_toList]

theorem front_unreadable (rest : List Char) :
    Front (Json.unreadable.chars ++ rest) (.text none) rest :=
  ⟨noneAhead_cons rfl _, rfl⟩

theorem unmarked_of_isWordChar {c : Char} (inside : isWordChar c = true) :
    Token.ofMark? c = none ∧ c ≠ '"' ∧ isSpace c = false := by
  refine ⟨?_, ?_, ?_⟩
  · unfold Token.ofMark?
    split
    all_goals first | rfl | cases inside
  · rintro rfl
    cases inside
  · cases space : isSpace c with
    | false => rfl
    | true =>
      simp only [isSpace, Bool.or_eq_true, beq_iff_eq] at space
      rcases space with ((rfl | rfl) | rfl) | rfl <;> cases inside

/-- A word is the token of its value, as long as no character follows that would belong to it. -/
theorem front_word {word : List Char} {value : Json}
    (inside : ∀ c ∈ word, isWordChar c = true) (ends : NoneAhead isWordChar rest)
    (plain : plainOfWord? word = some value) : Front (word ++ rest) (.plain value) rest := by
  have taken := takeWhile_append_noneAhead inside ends
  have left := dropWhile_append_noneAhead inside ends
  cases word with
  | nil => cases plain
  | cons c tail =>
    have belongs := inside c (List.mem_cons_self ..)
    obtain ⟨unmarked, unquoted, visible⟩ := unmarked_of_isWordChar belongs
    refine ⟨noneAhead_cons visible _, ?_⟩
    rw [List.cons_append] at taken left ⊢
    simp only [Token.next?, unmarked, if_neg unquoted, taken, left, plain]

theorem takes_decimalDigits (n : Nat) :
    Takes Scan.digits (decimalDigits n) (decimalDigits n) [] := by
  have taken := takes_digits (digitRun_decimalDigits n) (noneAhead_nil Char.isDigit)
  rwa [List.append_nil] at taken

/-- The shortest spelling of a number starts with a zero only where it is nothing else. -/
theorem head?_decimalDigits {n : Nat} (positive : 0 < n) : (decimalDigits n).head? ≠ some '0' := by
  fun_induction decimalDigits n with
  | case1 n small =>
    have nonzero : ∀ d, d < 10 → 0 < d → [digit d].head? ≠ some '0' := by decide
    exact nonzero n small positive
  | case2 n large ih =>
    have first := ih (by omega)
    cases higher : decimalDigits (n / 10) with
    | nil => exact absurd higher (digitRun_decimalDigits _).nonempty
    | cons c tail =>
      rw [higher] at first
      exact first

theorem no_leading_zero (n : Nat) :
    ((decimalDigits n).length == 1 || (decimalDigits n).head? != some '0') = true := by
  by_cases positive : 0 < n
  · simp [head?_decimalDigits positive]
  · have zero : n = 0 := by omega
    subst zero
    rw [decimalDigits, if_pos (by decide)]
    rfl

theorem noneAhead_decimalDigits {sign : Char} (noDigit : sign.isDigit = false) (n : Nat)
    (rest : List Char) : NoneAhead (· == sign) (decimalDigits n ++ rest) :=
  noneAhead_of_digits (digitRun_decimalDigits n)
    (fun _ digit => beq_of_isDigit noDigit digit) rest

theorem takes_natural (n : Nat) : Takes scanNumber (decimalDigits n) (.natural n) [] := by
  have unsigned : NoneAhead (· == '-') (decimalDigits n) := by
    simpa using noneAhead_decimalDigits (show '-'.isDigit = false from rfl) n []
  refine takes_bind (takes_orElse_second (refuses_bind (mark_refuses unsigned))
    (takes_pure false _)) ?_
  refine takes_bind (takes_decimalDigits n) ?_
  refine takes_bind (takes_require (no_leading_zero n) _) ?_
  refine takes_bind (takes_orElse_second (refuses_bind (mark_refuses (noneAhead_nil _)))
    (takes_pure none _)) ?_
  refine takes_bind (takes_orElse_second
    (refuses_bind (refuses_bind (one_refuses (noneAhead_nil _)))) (takes_pure none _)) ?_
  simp only
  rw [ofDigits_decimalDigits]
  exact takes_pure _ _

theorem takes_exponent (power : Int) : Takes scanNumber.scanExponent
    ('e' :: ((if power < 0 then ['-'] else []) ++ decimalDigits power.natAbs)) power [] := by
  have all := takes_decimalDigits power.natAbs
  refine takes_bind (takes_one (by decide)) ?_
  by_cases negative : power < 0
  · rw [if_pos negative]
    refine takes_bind (takes_orElse_first (takes_one (by decide))) (takes_bind all ?_)
    rw [ofDigits_decimalDigits]
    have value : -(power.natAbs : Int) = power := by omega
    simp only [beq_self_eq_true, ↓reduceIte, value]
    exact takes_pure power []
  · rw [if_neg negative, List.nil_append]
    have unsigned : NoneAhead (fun c => c == '+' || c == '-') (decimalDigits power.natAbs) := by
      intro c front
      have plus := noneAhead_decimalDigits (show '+'.isDigit = false from rfl) power.natAbs []
      have minus := noneAhead_decimalDigits (show '-'.isDigit = false from rfl) power.natAbs []
      rw [List.append_nil] at plus minus
      simp only [plus c front, minus c front, Bool.or_self]
    refine takes_bind (takes_orElse_second (one_refuses unsigned) (takes_pure '+' _)) ?_
    refine takes_bind all ?_
    rw [ofDigits_decimalDigits]
    have value : (power.natAbs : Int) = power := by omega
    simp only [value]
    exact takes_pure power []

/-- What follows the sign of a number that is written with its exponent. -/
theorem takes_decimal (value : Decimal) :
    Takes scanNumber (decimalChars value) (.decimal value) [] := by
  obtain ⟨negative, significand, power⟩ := value
  let tail := 'e' :: ((if power < 0 then ['-'] else []) ++ decimalDigits power.natAbs)
  have sign : Takes (Scan.orElse (do Scan.mark '-'; return true) (pure false))
      ((if negative then ['-'] else []) ++ (decimalDigits significand ++ tail)) negative
      (decimalDigits significand ++ tail) := by
    cases negative with
    | true => exact takes_orElse_first (takes_bind (takes_mark '-' _) (takes_pure true _))
    | false =>
      have unsigned := noneAhead_decimalDigits (show '-'.isDigit = false from rfl) significand tail
      exact takes_orElse_second (refuses_bind (mark_refuses unsigned)) (takes_pure false _)
  have whole : Takes Scan.digits (decimalDigits significand ++ tail) (decimalDigits significand)
      tail := takes_digits (digitRun_decimalDigits _) (noneAhead_cons rfl _)
  have spelled : decimalChars ⟨negative, significand, power⟩ =
      (if negative then ['-'] else []) ++ (decimalDigits significand ++ tail) := by
    simp only [decimalChars, tail, List.append_assoc, List.cons_append]
  rw [spelled]
  refine takes_bind sign (takes_bind whole (takes_bind (takes_require (no_leading_zero _) _) ?_))
  refine takes_bind (takes_orElse_second
    (refuses_bind (mark_refuses (noneAhead_cons rfl _))) (takes_pure none _)) ?_
  refine takes_bind (takes_orElse_first (takes_bind (takes_exponent power)
    (takes_pure (some power) _))) ?_
  have read : Json.decimal ⟨negative, ofDigits (decimalDigits significand ++ []),
      power - (([] : List Char).length : Int)⟩ = .decimal ⟨negative, significand, power⟩ := by
    rw [List.append_nil, ofDigits_decimalDigits]
    simp
  rw [← read]
  cases negative with
  | true => exact takes_pure _ _
  | false => exact takes_pure _ _

/-- A word that starts with no letter is read as a number. -/
theorem plainOfWord?_number {word : List Char} {value : Json}
    (noLetter : NoneAhead Char.isAlpha word) (taken : Takes scanNumber word value []) : plainOfWord? word = some value := by
  unfold plainOfWord?
  split
  · exact absurd (noLetter 't' rfl) (by decide)
  · exact absurd (noLetter 'f' rfl) (by decide)
  · exact absurd (noLetter 'n' rfl) (by decide)
  · exact whole?_of_takes taken

theorem isWordChar_of_isDigit {c : Char} (isDigit : c.isDigit = true) : isWordChar c = true :=
  @of_isDigit c (fun c => isWordChar c = true) (by decide) isDigit

theorem isWordChar_of_mem_decimalChars {value : Decimal} {c : Char}
    (member : c ∈ decimalChars value) : isWordChar c = true := by
  have sign {condition : Prop} [Decidable condition]
      (held : c ∈ if condition then ['-'] else []) : isWordChar c = true := by
    split at held
    · rw [List.mem_singleton.mp held]
      rfl
    · cases held
  simp only [decimalChars, List.mem_append, List.mem_cons] at member
  rcases member with ((minus | digits) | rfl | minus) | digits
  · exact sign minus
  · exact isWordChar_of_isDigit ((digitRun_decimalDigits _).digits c digits)
  · rfl
  · exact sign minus
  · exact isWordChar_of_isDigit ((digitRun_decimalDigits _).digits c digits)

theorem front_natural (n : Nat) (ends : NoneAhead isWordChar rest) :
    Front (decimalDigits n ++ rest) (.plain (.natural n)) rest := by
  have isRun := digitRun_decimalDigits n
  have noLetter : NoneAhead Char.isAlpha (decimalDigits n) := by
    simpa using noneAhead_of_digits isRun (fun c digit => isAlpha_of_isDigit digit) []
  refine front_word ?_ ends (plainOfWord?_number noLetter (takes_natural n))
  intro c member
  exact isWordChar_of_isDigit (isRun.digits c member)

theorem front_decimal (value : Decimal) (ends : NoneAhead isWordChar rest) :
    Front (decimalChars value ++ rest) (.plain (.decimal value)) rest := by
  have noLetter : NoneAhead Char.isAlpha (decimalChars value) := by
    unfold decimalChars
    split
    · exact noneAhead_cons rfl _
    · rw [List.nil_append, List.append_assoc]
      exact noneAhead_of_digits (digitRun_decimalDigits _)
        (fun c digit => isAlpha_of_isDigit digit) _
  refine front_word ?_ ends (plainOfWord?_number noLetter (takes_decimal value))
  intro c member
  exact isWordChar_of_mem_decimalChars member

/-- The reader goes on with what it makes of the token in front. -/
theorem finish?_of_front {reading next : Reading} {text : List Char} {token : Token}
    (front : Front text token rest) (accepted : reading.accept token = some next) :
    reading.finish? text = next.finish? rest := by
  obtain ⟨tight, taken⟩ := front
  cases text with
  | nil => cases taken
  | cons c tail =>
    rw [Reading.finish?, if_neg (by rw [tight c rfl]; exact Bool.false_ne_true)]
    split
    · rename_i missing
      rw [missing] at taken
      cases taken
    · rename_i other after found
      rw [found] at taken
      cases taken
      rw [accepted]

/-- A reader that will begin a value inside the given documents with the next token, unless that
closes an array. -/
def Awaits (reading : Reading) (frames : List Frame) : Prop :=
  ∀ token, token ≠ .closeArray → reading.accept token = begin frames token

/-- A reader that takes the next text for a key after the given members, the last first. -/
def AwaitsKey (reading : Reading) (frames : List Frame) (members : List (String × Json)) : Prop :=
  ∀ key, reading.accept (.text (some key)) =
    some ⟨frames, .colon (members.map (Prod.map some id)) (some key)⟩

theorem awaits_value (frames : List Frame) : Awaits ⟨frames, .value⟩ frames := by
  intro token _
  rfl

theorem awaits_item (frames : List Frame) : Awaits ⟨frames, .item⟩ (.array [] :: frames) := by
  intro token other
  cases token with
  | closeArray => exact absurd rfl other
  | _ => rfl

theorem mapM_written {α β : Type} {write : α → β} {read : β → Option α}
    (back : ∀ a, read (write a) = some a) (items : List α) :
    (items.map write).mapM read = some items := by
  induction items with
  | nil => rfl
  | cons item items ih => simp [back, ih]

theorem ofMembers_readable (members : List (String × Json)) :
    ofMembers (members.map (Prod.map some id)) = .object members := by
  rw [ofMembers, mapM_written]
  intro member
  rfl

/-- A printed key brings the reader to its value. -/
theorem finish?_key {reading : Reading} {frames : List Frame} {done : List (String × Json)}
    (awaits : AwaitsKey reading frames done) (key : String) (rest : List Char) :
    reading.finish? (quotedChars key ++ ':' :: rest) =
      Reading.finish? ⟨.object (done.map (Prod.map some id)) (some key) :: frames, .value⟩
        rest := by
  have colon : Front (':' :: rest) .colon rest := front_mark rfl rest
  rw [finish?_of_front (front_text key _) (awaits key)]
  exact finish?_of_front colon rfl

/-- A plain document is one token. -/
theorem finish?_plain {document : Json} {token : Token} {reading : Reading} {frames : List Frame}
    (awaits : Awaits reading frames) (front : Front (document.chars ++ rest) token rest)
    (begun : begin frames token = some ⟨frames, .done document⟩) :
    reading.finish? (document.chars ++ rest) = Reading.finish? ⟨frames, .done document⟩ rest := by
  have inside : token ≠ .closeArray := by
    rintro rfl
    cases begun
  exact finish?_of_front front ((awaits token inside).trans begun)

theorem chars_array (items : List Json) :
    (Json.array items).chars = '[' :: itemChars items ++ [']'] := rfl

theorem chars_object (members : List (String × Json)) :
    (Json.object members).chars = '\x7b' :: memberChars members ++ ['\x7d'] := rfl

theorem itemChars_singleton (item : Json) : itemChars [item] = item.chars := rfl

theorem itemChars_cons (item next : Json) (items : List Json) :
    itemChars (item :: next :: items) = item.chars ++ ',' :: itemChars (next :: items) := rfl

theorem memberChars_singleton (key : String) (value : Json) :
    memberChars [(key, value)] = quotedChars key ++ ':' :: value.chars := rfl

theorem memberChars_cons (key : String) (value : Json) (next : String × Json)
    (members : List (String × Json)) :
    memberChars ((key, value) :: next :: members) =
      quotedChars key ++ ':' :: value.chars ++ ',' :: memberChars (next :: members) := rfl

-- The recursion is on the document. Each statement leaves open what is read around the part and
-- what text follows it, so that it can be used at any depth.
mutual

/-- A printed document brings the reader to the stage where the document is done. -/
theorem finish?_document (document : Json) {reading : Reading} {frames : List Frame}
    (awaits : Awaits reading frames) {rest : List Char} (ends : NoneAhead isWordChar rest) :
    reading.finish? (document.chars ++ rest) = Reading.finish? ⟨frames, .done document⟩ rest := by
  match document with
  | .null =>
    have front : Front (['n', 'u', 'l', 'l'] ++ rest) (.plain .null) rest :=
      front_word (List.all_eq_true.mp rfl) ends rfl
    exact finish?_plain awaits front rfl
  | .bool true =>
    have front : Front (['t', 'r', 'u', 'e'] ++ rest) (.plain (.bool true)) rest :=
      front_word (List.all_eq_true.mp rfl) ends rfl
    exact finish?_plain awaits front rfl
  | .bool false =>
    have front : Front (['f', 'a', 'l', 's', 'e'] ++ rest) (.plain (.bool false)) rest :=
      front_word (List.all_eq_true.mp rfl) ends rfl
    exact finish?_plain awaits front rfl
  | .natural value => exact finish?_plain awaits (front_natural value ends) rfl
  | .decimal value => exact finish?_plain awaits (front_decimal value ends) rfl
  | .text value => exact finish?_plain awaits (front_text value rest) rfl
  | .unreadable => exact finish?_plain awaits (front_unreadable rest) rfl
  | .array [] =>
    have opened : Front ('[' :: ']' :: rest) .openArray (']' :: rest) := front_mark rfl _
    have closed : Front (']' :: rest) .closeArray rest := front_mark rfl rest
    exact (finish?_of_front opened (awaits _ (by simp))).trans (finish?_of_front closed rfl)
  | .array (item :: items) =>
    have opened : Front ('[' :: (itemChars (item :: items) ++ ']' :: rest)) .openArray
        (itemChars (item :: items) ++ ']' :: rest) := front_mark rfl _
    have written : (Json.array (item :: items)).chars ++ rest =
        '[' :: (itemChars (item :: items) ++ ']' :: rest) := by
      simp only [chars_array, List.cons_append, List.append_assoc, List.nil_append]
    rw [written, finish?_of_front opened (awaits _ (by simp))]
    exact finish?_items item items [] (awaits_item frames) rest
  | .object [] =>
    have opened : Front ('\x7b' :: '\x7d' :: rest) .openObject ('\x7d' :: rest) := front_mark rfl _
    have closed : Front ('\x7d' :: rest) .closeObject rest := front_mark rfl rest
    exact (finish?_of_front opened (awaits _ (by simp))).trans (finish?_of_front closed rfl)
  | .object ((key, value) :: members) =>
    have opened : Front ('\x7b' :: (memberChars ((key, value) :: members) ++ '\x7d' :: rest))
        .openObject (memberChars ((key, value) :: members) ++ '\x7d' :: rest) := front_mark rfl _
    have written : (Json.object ((key, value) :: members)).chars ++ rest =
        '\x7b' :: (memberChars ((key, value) :: members) ++ '\x7d' :: rest) := by
      simp only [chars_object, List.cons_append, List.append_assoc, List.nil_append]
    rw [written, finish?_of_front opened (awaits _ (by simp))]
    exact finish?_members key value members [] (fun _ => rfl) rest
termination_by (sizeOf document, 0)

/-- Printed items bring the reader to the end of the array that they stand in. -/
theorem finish?_items (item : Json) (items : List Json) (done : List Json) {reading : Reading}
    {frames : List Frame} (awaits : Awaits reading (.array done :: frames)) (rest : List Char) :
    reading.finish? (itemChars (item :: items) ++ ']' :: rest) =
      Reading.finish? ⟨frames, .done (.array (done.reverse ++ item :: items))⟩ rest := by
  match items with
  | [] =>
    have closed : Front (']' :: rest) .closeArray rest := front_mark rfl rest
    have ends : NoneAhead isWordChar (']' :: rest) := noneAhead_cons rfl rest
    have last := finish?_of_front closed
      (show (Reading.mk (.array done :: frames) (.done item)).accept .closeArray = _ from rfl)
    rw [itemChars_singleton, finish?_document item awaits ends, last, List.reverse_cons]
  | next :: items =>
    have separated : Front (',' :: (itemChars (next :: items) ++ ']' :: rest)) .comma
        (itemChars (next :: items) ++ ']' :: rest) := front_mark rfl _
    have ends : NoneAhead isWordChar (',' :: (itemChars (next :: items) ++ ']' :: rest)) :=
      noneAhead_cons rfl _
    have goesOn := finish?_of_front separated
      (show (Reading.mk (.array done :: frames) (.done item)).accept .comma = _ from rfl)
    rw [itemChars_cons, List.append_assoc, List.cons_append, finish?_document item awaits ends,
      goesOn, finish?_items next items (item :: done) (awaits_value _) rest]
    simp
termination_by (sizeOf (item :: items), 1)

/-- Printed members bring the reader to the end of the object that they stand in. -/
theorem finish?_members (key : String) (value : Json) (members done : List (String × Json))
    {reading : Reading} {frames : List Frame} (awaits : AwaitsKey reading frames done)
    (rest : List Char) :
    reading.finish? (memberChars ((key, value) :: members) ++ '\x7d' :: rest) =
      Reading.finish? ⟨frames, .done (.object (done.reverse ++ (key, value) :: members))⟩ rest := by
  match members with
  | [] =>
    have closed : Front ('\x7d' :: rest) .closeObject rest := front_mark rfl rest
    have ends : NoneAhead isWordChar ('\x7d' :: rest) := noneAhead_cons rfl rest
    have complete := ofMembers_readable ((key, value) :: done).reverse
    rw [List.map_reverse, List.reverse_cons] at complete
    rw [memberChars_singleton, List.append_assoc, List.cons_append, finish?_key awaits,
      finish?_document value (awaits_value _) ends, finish?_of_front closed rfl, ← complete]
    rfl
  | (nextKey, nextValue) :: members =>
    have separated : Front
        (',' :: (memberChars ((nextKey, nextValue) :: members) ++ '\x7d' :: rest)) .comma
        (memberChars ((nextKey, nextValue) :: members) ++ '\x7d' :: rest) := front_mark rfl _
    have ends : NoneAhead isWordChar
        (',' :: (memberChars ((nextKey, nextValue) :: members) ++ '\x7d' :: rest)) :=
      noneAhead_cons rfl _
    have goesOn : AwaitsKey ⟨frames, .key (((key, value) :: done).map (Prod.map some id))⟩ frames
        ((key, value) :: done) := fun _ => rfl
    have next := finish?_members nextKey nextValue members ((key, value) :: done) goesOn rest
    rw [List.reverse_cons, List.append_assoc, List.singleton_append] at next
    rw [memberChars_cons, List.append_assoc, List.append_assoc, List.cons_append, List.cons_append,
      finish?_key awaits, finish?_document value (awaits_value _) ends,
      finish?_of_front separated rfl, ← next]
    rfl
termination_by (sizeOf ((key, value) :: members), 1)

end

/-- Reading gives back every document from its written form. -/
theorem parse?_print (document : Json) : Json.parse? document.print = some document := by
  have read := finish?_document document (awaits_value []) (noneAhead_nil isWordChar)
  rw [List.append_nil] at read
  rw [parse?, print, String.toList_ofList, read, Reading.finish?]
  rfl

end Docket.JsonText
