/-!
# Blanks and words

A text is a list of characters.  A blank is a character with the Unicode
property White_Space.  The words of a text are its maximal blank-free runs, in
order; leading, trailing and repeated blanks leave no trace in them.

The words do not determine the text: which blanks stood between two words, and
how many, is lost.
-/

namespace PhraseStructure

/-- A text, one entry per code point. -/
abbrev Text := List Char

namespace Text

/-- The character has the Unicode property White_Space. -/
def isBlank (c : Char) : Bool :=
  let n := c.toNat
  (0x0009 ≤ n && n ≤ 0x000D) || n == 0x0020 || n == 0x0085 || n == 0x00A0 ||
    n == 0x1680 || (0x2000 ≤ n && n ≤ 0x200A) || n == 0x2028 || n == 0x2029 ||
    n == 0x202F || n == 0x205F || n == 0x3000

/-- The text begins with a character that is not a blank. -/
def startsWord : Text → Bool
  | [] => false
  | c :: _ => !isBlank c

/-- The maximal blank-free runs of a text, in order. -/
def words : Text → List Text
  | [] => []
  | c :: rest =>
      if isBlank c then
        words rest
      else if startsWord rest then
        match words rest with
        | [] => [[c]]
        | word :: more => (c :: word) :: more
      else
        [c] :: words rest

/-- The text without its leading blanks. -/
def dropBlanks (text : Text) : Text :=
  text.dropWhile isBlank

/-- The text without its trailing blanks. -/
def dropTrailingBlanks (text : Text) : Text :=
  (dropBlanks text.reverse).reverse

/-- The text up to its first line feed. -/
def firstLine (text : Text) : Text :=
  text.takeWhile fun c => c != '\n'

/-- Texts written one after another with `separator` between neighbours. -/
def joined (separator : Text) : List Text → Text
  | [] => []
  | [text] => text
  | text :: more => text ++ separator ++ joined separator more

theorem exists_joined_cons (separator first : Text) (more : List Text) :
    ∃ rest, joined separator (first :: more) = first ++ rest := by
  cases more with
  | nil => exact ⟨[], (List.append_nil first).symm⟩
  | cons next more => exact ⟨separator ++ joined separator (next :: more), List.append_assoc ..⟩

/-- A number in decimal digits. -/
def decimal (n : Nat) : Text :=
  Nat.toDigits 10 n

theorem words_blank_cons {c : Char} (h : isBlank c = true) (rest : Text) :
    words (c :: rest) = words rest := by
  simp [words, h]

end Text
end PhraseStructure
