import Docket.Json.Basic
import Docket.Text.Scan

/-! The tokens of a JSON text: the six marks, quoted texts, and words, which are the three
literals and the numbers. White space between tokens is that of JSON alone. -/
namespace Docket.Json
open Docket.Text

/-- A token. A quoted text has no value where it escapes half of a surrogate pair. -/
inductive Token where
  | openArray
  | closeArray
  | openObject
  | closeObject
  | comma
  | colon
  | text (value : Option String)
  | plain (value : Json)

/-- White space between tokens. -/
def isSpace (c : Char) : Bool := c == ' ' || c == '\t' || c == '\n' || c == '\r'

/-- The tokens that are one character long. -/
def Token.ofMark? : Char → Option Token
  | '[' => some .openArray
  | ']' => some .closeArray
  | '{' => some .openObject
  | '}' => some .closeObject
  | ',' => some .comma
  | ':' => some .colon
  | _ => none

/-- A part of a quoted text: a character, or an escaped unit of UTF-16. -/
inductive Piece where
  | char (c : Char)
  | unit (value : Nat)

/-- The value of a hexadecimal digit, in either case. -/
def hexValue? (c : Char) : Option Nat :=
  if c.isDigit then some (digitValue c)
  else if 'a' ≤ c && c ≤ 'f' then some (c.toNat - 'a'.toNat + 10)
  else if 'A' ≤ c && c ≤ 'F' then some (c.toNat - 'A'.toNat + 10)
  else none

/-- The value of a run of hexadecimal digits, if all are. -/
def ofHex? (digits : List Char) : Option Nat :=
  digits.foldlM (fun value c => return 16 * value + (← hexValue? c)) 0

/-- The character that a backslash and one letter stand for. -/
def escaped? : Char → Option Char
  | '"' => some '"'
  | '\\' => some '\\'
  | '/' => some '/'
  | 'b' => some '\x08'
  | 'f' => some '\x0c'
  | 'n' => some '\n'
  | 'r' => some '\r'
  | 't' => some '\t'
  | _ => none

/-- Reads the pieces of a quoted text up to its closing quote; `done` holds those read, the last
first. Control characters have to be escaped. -/
def scanPieces (done : List Piece) : List Char → Option (List Piece × List Char)
  | [] => none
  | '"' :: rest => some (done.reverse, rest)
  | '\\' :: 'u' :: a :: b :: c :: d :: rest =>
    match ofHex? [a, b, c, d] with
    | some value => scanPieces (.unit value :: done) rest
    | none => none
  | '\\' :: letter :: rest =>
    match escaped? letter with
    | some c => scanPieces (.char c :: done) rest
    | none => none
  | c :: rest => if c.toNat < 0x20 then none else scanPieces (.char c :: done) rest

/-- Whether a unit is the first half of a surrogate pair. -/
def isHighHalf (unit : Nat) : Bool := 0xd800 ≤ unit && unit < 0xdc00

/-- Whether a unit is the second half of a surrogate pair. -/
def isLowHalf (unit : Nat) : Bool := 0xdc00 ≤ unit && unit < 0xe000

/-- The characters that pieces spell: a pair of halves is one character, and a half that stands
alone is none. -/
def charsOfPieces? : List Piece → Option (List Char)
  | [] => some []
  | .char c :: rest => (charsOfPieces? rest).map (c :: ·)
  | .unit high :: .unit low :: rest =>
    if isHighHalf high && isLowHalf low then
      (charsOfPieces? rest).map
        (Char.ofNat (0x10000 + (high - 0xd800) * 0x400 + (low - 0xdc00)) :: ·)
    else if isHighHalf high || isLowHalf high then none
    else (charsOfPieces? (.unit low :: rest)).map (Char.ofNat high :: ·)
  | .unit value :: rest =>
    if isHighHalf value || isLowHalf value then none
    else (charsOfPieces? rest).map (Char.ofNat value :: ·)

/-- The characters that words are made of. -/
def isWordChar (c : Char) : Bool := c.isAlphanum || c == '+' || c == '-' || c == '.'

/-- Reads a number: no leading zeros, and digits on both sides of a point. -/
def scanNumber : Scan Json := do
  let negative ← Scan.orElse (do Scan.mark '-'; return true) (pure false)
  let whole ← Scan.digits
  Scan.require (whole.length == 1 || whole.head? != some '0')
  let fraction ← Scan.orElse (do Scan.mark '.'; return some (← Scan.digits)) (pure none)
  let exponent ← Scan.orElse (return some (← scanExponent)) (pure none)
  match negative, fraction, exponent with
  | false, none, none => return .natural (ofDigits whole)
  | _, _, _ =>
    let places := fraction.getD []
    return .decimal ⟨negative, ofDigits (whole ++ places), exponent.getD 0 - places.length⟩
where
  /-- Reads the power of ten of a number. -/
  scanExponent : Scan Int := do
    let _ ← Scan.one fun c => c == 'e' || c == 'E'
    let sign ← Scan.orElse (Scan.one fun c => c == '+' || c == '-') (pure '+')
    let power : Int := ofDigits (← Scan.digits)
    return if sign == '-' then -power else power

/-- The plain value that a word stands for. -/
def plainOfWord? (word : List Char) : Option Json :=
  match word with
  | ['t', 'r', 'u', 'e'] => some (.bool true)
  | ['f', 'a', 'l', 's', 'e'] => some (.bool false)
  | ['n', 'u', 'l', 'l'] => some .null
  | _ => Scan.whole? scanNumber word

/-- Takes the token at the front of a text. -/
def Token.next? : List Char → Option (Token × List Char)
  | [] => none
  | c :: rest =>
    match Token.ofMark? c with
    | some mark => some (mark, rest)
    | none =>
      if c = '"' then
        match scanPieces [] rest with
        | some (pieces, after) => some (.text ((charsOfPieces? pieces).map String.ofList), after)
        | none => none
      else
        match plainOfWord? ((c :: rest).takeWhile isWordChar) with
        | some value => some (.plain value, (c :: rest).dropWhile isWordChar)
        | none => none

theorem scanPieces_shortens {done pieces : List Piece} {text rest : List Char}
    (read : scanPieces done text = some (pieces, rest)) : rest.length < text.length := by
  fun_induction scanPieces done text with
  | case1 => cases read
  | case2 => cases read; simp
  | case3 done a b c d rest value hex ih => have := ih read; simp; omega
  | case4 => cases read
  | case5 done letter rest other c found ih => have := ih read; simp; omega
  | case6 => cases read
  | case7 => cases read
  | case8 done c rest _ _ _ visible ih => have := ih read; simp; omega

private theorem length_dropWhile_le (test : Char → Bool) (text : List Char) :
    (text.dropWhile test).length ≤ text.length := by
  have whole := congrArg List.length (@List.takeWhile_append_dropWhile _ test text)
  simp only [List.length_append] at whole
  omega

/-- The empty word stands for nothing. -/
theorem plainOfWord?_nil : plainOfWord? [] = none := rfl

/-- A token is at least one character long. -/
theorem Token.next?_shortens {token : Token} {text rest : List Char}
    (read : Token.next? text = some (token, rest)) : rest.length < text.length := by
  unfold Token.next? at read
  split at read
  · cases read
  · rename_i c tail
    split at read
    · cases read; simp
    · split at read
      · split at read
        · rename_i pieces after scanned
          cases read
          have := scanPieces_shortens scanned
          simp; omega
        · cases read
      · split at read
        · rename_i value found
          cases read
          by_cases first : isWordChar c = true
          · have := length_dropWhile_le isWordChar tail
            simp [first]; omega
          · simp [first, plainOfWord?_nil] at found
        · cases read

end Docket.Json
