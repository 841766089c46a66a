import PhraseStructure.Text.Blank

/-!
# Pieces of code

A line of code is a sequence of pieces: words, lifetimes, literals and marks.  It
is printed piece by piece, one space apart, whatever the spacing was when it was
written.  Round and square brackets hold their contents without spaces inside,
braces have spaces.

* A word is a run of letters, digits and underscores that does not begin with a
  digit; letters outside ASCII belong to words.  A word that is used in spite of
  being reserved has `r#` in front.
* A literal is a number, also with a minus sign right before it, a character
  between single quotation marks, or a text between double ones; a word that
  touches the opening double quotation mark belongs to it.
* A lifetime is a word after a single quotation mark.
* Two colons are one mark, and so are a minus and a greater-than sign.  Every other
  character is a mark alone.

Splitting never fails: a quotation that is not closed reaches to the end.  Comments
and quotations between number signs are not looked for.
-/

namespace PhraseStructure

/-- A piece of code. -/
inductive Piece where
  | word (text : Text)
  | lifetime (text : Text)
  | literal (text : Text)
  | mark (text : Text)
deriving DecidableEq

namespace Piece

/-- The characters of a piece. -/
def text : Piece → Text
  | word text | lifetime text | literal text | mark text => text

/-- The piece is this mark. -/
def isMark (piece : Piece) (text : Text) : Bool :=
  piece = mark text

/-- The piece is a literal, or one of the two words for truth values. -/
def isLiteral : Piece → Bool
  | literal _ => true
  | word text => text = "true".toList || text = "false".toList
  | _ => false

/-- The piece is a word. -/
def isWord : Piece → Bool
  | word _ => true
  | _ => false

/-- The character can stand in a word. -/
def isWordChar (c : Char) : Bool :=
  c.isAlphanum || c = '_' || (0x80 ≤ c.toNat && !Text.isBlank c)

/-- How many characters at the beginning of a text can stand in a word. -/
def wordLength (text : Text) : Nat :=
  (text.takeWhile isWordChar).length

/-- How many characters a quotation takes up after its opening mark. -/
def quotationLength (quote : Char) : Text → Nat
  | [] => 0
  | [_] => 1
  | c :: d :: rest =>
      if c = quote then
        1
      else if c = '\\' then
        quotationLength quote rest + 2
      else
        quotationLength quote (d :: rest) + 1

/-- How many characters of the rest belong to a number. -/
def numberLength (rest : Text) : Nat :=
  let whole := wordLength rest
  match rest.drop whole with
  | '.' :: d :: more =>
      if d.isDigit then whole + 1 + wordLength (d :: more) else whole
  | _ => whole

/-- The piece that begins with a character, and how many characters of the rest
belong to it. -/
def beginning (c : Char) (rest : Text) : (Text → Piece) × Nat :=
  if c.isDigit then
    (literal, numberLength rest)
  else if isWordChar c then
    let run := wordLength rest
    match rest.drop run with
    | '\x22' :: more => (literal, run + 1 + quotationLength '\x22' more)
    | '#' :: more =>
        let after := wordLength more
        (word, if c = 'r' && run = 0 && 0 < after then 1 + after else run)
    | _ => (word, run)
  else if c = '\x22' then
    (literal, quotationLength '\x22' rest)
  else if c = '\x27' then
    match rest with
    | '\\' :: _ => (literal, quotationLength '\x27' rest)
    | _ :: '\x27' :: _ => (literal, 2)
    | _ => (lifetime, wordLength rest)
  else if c = '-' && rest.head?.any Char.isDigit then
    (literal, numberLength rest)
  else if (c = ':' && rest.head? = some ':') || (c = '-' && rest.head? = some '>') then
    (mark, 1)
  else
    (mark, 0)

/-- The pieces of a text. -/
def split : Text → List Piece
  | [] => []
  | c :: rest =>
      if Text.isBlank c then
        split rest
      else
        let found := beginning c rest
        found.1 (c :: rest.take found.2) :: split (rest.drop found.2)
termination_by text => text.length

/-- The pieces stand together without a space: a bracket holds the other. -/
def touch (left right : Piece) : Bool :=
  left.isMark ['('] || left.isMark ['['] || right.isMark [')'] || right.isMark [']']

/-- Pieces one space apart. -/
def spaced : List Piece → Text
  | [] => []
  | [piece] => piece.text
  | left :: right :: rest =>
      left.text ++ (if touch left right then [] else [' ']) ++ spaced (right :: rest)

end Piece
end PhraseStructure
