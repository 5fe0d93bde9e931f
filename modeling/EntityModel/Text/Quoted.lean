/-
Text between double quotes, for messages.

A quote and a backslash are escaped by a backslash, the usual control characters
have their letter, and every other character that cannot be shown by itself is
written as `\u{…}` with its code point in lower case hexadecimal digits.  In text that
is given by its bytes, single quotes are escaped too, and a byte that belongs to no
character is written as `\x…` with two capital hexadecimal digits.
-/
import EntityModel.Text.Printable

namespace EntityModel.Text

/-- The code point of `c`, as an escape. -/
def codeEscape (c : Char) : List Char :=
  ['\\', 'u', '\x7b'] ++ Nat.toDigits 16 c.toNat ++ ['\x7d']

/-- One character as it stands between the quotes. -/
def quotedChar (c : Char) : List Char :=
  match c with
  | '"' => ['\\', '"']
  | '\\' => ['\\', '\\']
  | '\t' => ['\\', 't']
  | '\r' => ['\\', 'r']
  | '\n' => ['\\', 'n']
  | '\x00' => ['\\', '0']
  | c => if isPrintable c then [c] else codeEscape c

/-- A text between double quotes. -/
def quoted (text : String) : String :=
  String.ofList ('"' :: text.toList.flatMap quotedChar ++ ['"'])

/-- A byte that belongs to no character, as an escape. -/
def byteEscape (b : UInt8) : List Char :=
  let digits := (Nat.toDigits 16 b.toNat).map Char.toUpper
  ['\\', 'x'] ++ List.replicate (2 - digits.length) '0' ++ digits

/-- The bytes from `i` on as they stand between the quotes. -/
def quotedFrom (bytes : ByteArray) (i : Nat) : List Char :=
  if inside : i < bytes.size then
    match bytes.utf8DecodeChar? i with
    | some c =>
      (if c = '\'' then ['\\', '\''] else quotedChar c) ++ quotedFrom bytes (i + c.utf8Size)
    | none => byteEscape bytes[i] ++ quotedFrom bytes (i + 1)
  else []
termination_by bytes.size - i
decreasing_by
  · have := c.utf8Size_pos
    omega
  · omega

/-- A text between double quotes, given by its bytes. -/
def quotedBytes (bytes : ByteArray) : String :=
  String.ofList ('"' :: quotedFrom bytes 0 ++ ['"'])

end EntityModel.Text
