/-! Blanks are the characters that Unicode counts as white space. They may stand
around a value wherever this library reads one written by hand, and they never
belong to the value itself. -/
namespace Docket.Text

/-- The characters with the property White_Space, zero-width ones excluded. -/
def isBlank (c : Char) : Bool :=
  let code := c.toNat
  (0x09 ≤ code && code ≤ 0x0d) || code == 0x20 || code == 0x85 || code == 0xa0 ||
    code == 0x1680 || (0x2000 ≤ code && code ≤ 0x200a) || code == 0x2028 || code == 0x2029 ||
    code == 0x202f || code == 0x205f || code == 0x3000

/-- The text from its first character that is no blank. -/
def dropBlanks (text : List Char) : List Char := text.dropWhile isBlank

/-- The text without the blanks at its two ends; blanks inside stay. -/
def trimBlanks (text : List Char) : List Char :=
  (dropBlanks (dropBlanks text).reverse).reverse

/-- The trimmed form of a string. -/
def trim (text : String) : String := String.ofList (trimBlanks text.toList)

@[simp] theorem dropBlanks_nil : dropBlanks [] = [] := rfl

theorem dropBlanks_cons_ink {c : Char} (ink : isBlank c = false) (rest : List Char) :
    dropBlanks (c :: rest) = c :: rest := by
  simp [dropBlanks, ink]

end Docket.Text
