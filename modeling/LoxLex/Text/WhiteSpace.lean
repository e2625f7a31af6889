import LoxLex.Text.CharSet

set_option relaxedAutoImplicit false
set_option autoImplicit false

/-!
# White space

The characters with the Unicode property `White_Space`, which are dropped at both ends of a line
before it is compared with a command.

## Main definitions

* `LoxLex.CharSet.whiteSpace` — the property as ranges of code points.
* `LoxLex.trimWhiteSpace` — a text without white space at its ends.
-/

namespace LoxLex

/-- The characters with the property `White_Space`. -/
def CharSet.whiteSpace : CharSet where
  ranges :=
    [ (0x9, 0xd), (0x20, 0x20), (0x85, 0x85), (0xa0, 0xa0), (0x1680, 0x1680), (0x2000, 0x200a),
      (0x2028, 0x2029), (0x202f, 0x202f), (0x205f, 0x205f), (0x3000, 0x3000) ]

/-- The text without the white space at its start and at its end. -/
def trimWhiteSpace (text : List Char) : List Char :=
  let fromStart := text.dropWhile CharSet.whiteSpace.contains
  (fromStart.reverse.dropWhile CharSet.whiteSpace.contains).reverse

end LoxLex
