import LoxLex.IoError

set_option relaxedAutoImplicit false
set_option autoImplicit false

/-!
# Bytes and lines

Files and streams hold bytes. A file is decoded as a whole, a stream line by line, so that the
lines before a wrong byte can still be read.

## Main definitions

* `LoxLex.decodeText` — the text that some bytes encode.
* `LoxLex.splitLines`, `LoxLex.readLines` — the lines of a stream, each with its newline.
-/

namespace LoxLex

/-- The text that bytes encode in UTF-8. -/
def decodeText (bytes : List UInt8) : Except IoError String :=
  match String.fromUTF8? ⟨bytes.toArray⟩ with
  | some text => .ok text
  | none => .error .invalidEncoding

/-- The bytes cut behind each newline. No piece is empty, and the last one may lack its newline. -/
def splitLines : List UInt8 → List (List UInt8)
  | [] => []
  | b :: bytes =>
    if b = 10 then [b] :: splitLines bytes
    else
      match splitLines bytes with
      | [] => [[b]]
      | line :: lines => (b :: line) :: lines

/-- The lines of a stream; those that are not the encoding of a text cannot be read. -/
def readLines (bytes : List UInt8) : List (Except IoError String) :=
  (splitLines bytes).map decodeText

end LoxLex
