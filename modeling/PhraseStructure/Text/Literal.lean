import PhraseStructure.Text.Blank
import PhraseStructure.Text.Extending
import PhraseStructure.Text.Unassigned

/-!
# Text literals in generated code

A literal is a text between double quotation marks.  The backslash and the double
quotation mark are written after a backslash, four control characters have a
letter or a digit of their own, and characters that leave no mark on the page are
written by their code points in hexadecimal digits.  Everything else, the single
quotation mark included, is written as it is.

A character leaves no mark of its own when it is a control character, a blank
other than the space, a format character, of private use, unassigned, or when it
joins the character before it.  This holds anywhere in the text, not only at its
beginning.

The digit that stands for NUL could be taken together with an octal digit after
it.  Before such a digit NUL is written with two hexadecimal digits instead.
-/

namespace PhraseStructure
namespace Text

/-- The control characters. -/
def controlRanges : Ranges :=
  [(0x00, 0x1F), (0x7F, 0x9F)]

/-- The format characters: they steer the layout of the text around them. -/
def formatRanges : Ranges :=
  [(0xAD, 0xAD), (0x600, 0x605), (0x61C, 0x61C), (0x6DD, 0x6DD), (0x70F, 0x70F),
    (0x890, 0x891), (0x8E2, 0x8E2), (0x180E, 0x180E), (0x200B, 0x200F), (0x202A, 0x202E),
    (0x2060, 0x2064), (0x2066, 0x206F), (0xFEFF, 0xFEFF), (0xFFF9, 0xFFFB),
    (0x110BD, 0x110BD), (0x110CD, 0x110CD), (0x13430, 0x1343F), (0x1BCA0, 0x1BCA3),
    (0x1D173, 0x1D17A), (0xE0001, 0xE0001), (0xE0020, 0xE007F)]

/-- The characters of private use. -/
def privateRanges : Ranges :=
  [(0xE000, 0xF8FF), (0xF0000, 0xFFFFD), (0x100000, 0x10FFFD)]

/-- The character leaves no mark of its own. -/
def isUnseen (c : Char) : Bool :=
  controlRanges.covers c || formatRanges.covers c || privateRanges.covers c ||
    (isBlank c && c != ' ') || isExtending c || isUnassigned c

/-- The text begins with an octal digit. -/
def startsOctal (text : Text) : Bool :=
  text.head?.any fun c => '0' ≤ c && c ≤ '7'

/-- A character as it stands in a literal in front of the rest of the text. -/
def literalChar (c : Char) (rest : Text) : Text :=
  if c = '\x00' then
    if startsOctal rest then ['\\', 'x', '0', '0'] else ['\\', '0']
  else if c = '\t' then
    ['\\', 't']
  else if c = '\n' then
    ['\\', 'n']
  else if c = '\r' then
    ['\\', 'r']
  else if c = '\\' || c = '\x22' then
    ['\\', c]
  else if isUnseen c then
    ['\\', 'u', '\x7b'] ++ Nat.toDigits 16 c.toNat ++ ['\x7d']
  else
    [c]

/-- The characters of a text as they stand in a literal. -/
def literalBody : Text → Text
  | [] => []
  | c :: rest => literalChar c rest ++ literalBody rest

/-- A text between double quotation marks. -/
def literal (text : Text) : Text :=
  ['\x22'] ++ literalBody text ++ ['\x22']

end Text
end PhraseStructure
