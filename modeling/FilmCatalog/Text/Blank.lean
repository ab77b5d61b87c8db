/-
  FilmCatalog.Text.Blank
  ──────────────────────
  **WHITE SPACE.**

  The characters that count as white space in texts that people write, and
  the text without them at its ends.
-/

namespace FilmCatalog.Text

/-- Whether a character is white space. -/
def isSpace (c : Char) : Bool :=
  let code := c.toNat
  (0x9 ≤ code && code ≤ 0xd) || code = 0x20 || code = 0x85 || code = 0xa0 || code = 0x1680
    || (0x2000 ≤ code && code ≤ 0x200a) || code = 0x2028 || code = 0x2029 || code = 0x202f
    || code = 0x205f || code = 0x3000

/-- The characters without white space at the start. -/
def trimStart (text : List Char) : List Char := text.dropWhile isSpace

/-- The characters without white space at the end. -/
def trimEnd (text : List Char) : List Char := (trimStart text.reverse).reverse

/-- The text without white space at its ends. -/
def trim (text : String) : String := String.ofList (trimEnd (trimStart text.toList))

end FilmCatalog.Text
