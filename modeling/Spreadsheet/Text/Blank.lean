-- SUMMARY: White space: which characters count as blank, and text without its outer blanks.

/-! # White space

Formula text, reference text and numeric text are read without the blanks around
them. A blank is any character with the White_Space property, not only the blanks
of ASCII.
-/

namespace Spreadsheet.Text

/-- The blanks beyond ASCII. -/
def wideBlanks : List Nat :=
  [0x85, 0xA0, 0x1680, 0x2000, 0x2001, 0x2002, 0x2003, 0x2004, 0x2005, 0x2006, 0x2007, 0x2008,
    0x2009, 0x200A, 0x2028, 0x2029, 0x202F, 0x205F, 0x3000]

/-- Space, the controls from tab to carriage return, and the wide blanks. -/
def isBlank (c : Char) : Bool :=
  c == ' ' || (9 ≤ c.toNat && c.toNat ≤ 13) || wideBlanks.contains c.toNat

def trimLeft (cs : List Char) : List Char := cs.dropWhile isBlank

def trimRight (cs : List Char) : List Char := (cs.reverse.dropWhile isBlank).reverse

/-- The text without the blanks at its two ends. -/
def trimChars (cs : List Char) : List Char := trimRight (trimLeft cs)

end Spreadsheet.Text
