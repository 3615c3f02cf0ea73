/-! White space at the ends of a text: the 25 characters with the Unicode property `White_Space`, and
trimming by them. Zero-width characters such as U+200B and U+FEFF are not blank. -/

namespace ViewSchema.Text

/-- A character with the Unicode property `White_Space`. -/
def isBlank (c : Char) : Bool :=
  let code := c.toNat
  (9 ≤ code && code ≤ 13) || code == 0x20 || code == 0x85 || code == 0xA0 || code == 0x1680 ||
    (0x2000 ≤ code && code ≤ 0x200A) || code == 0x2028 || code == 0x2029 || code == 0x202F ||
    code == 0x205F || code == 0x3000

/-- The characters of a text without the blank ones at either end. -/
def trimChars (cs : List Char) : List Char :=
  ((cs.dropWhile isBlank).reverse.dropWhile isBlank).reverse

/-- The text without the blank characters at either end. -/
def trim (s : String) : String := .ofList (trimChars s.toList)

example : trim "\u00a0 a b\t\u3000" = "a b" ∧ trim " \n" = "" ∧ trim "\u200b" = "\u200b" := by decide

end ViewSchema.Text
