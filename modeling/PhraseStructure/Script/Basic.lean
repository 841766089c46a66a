import PhraseStructure.Token

/-!
# Grammar scripts

A script is what a grammar text says before any of it is checked: an optional
directive that names the start symbol, and rules.  A symbol in quotation marks
stands for a terminal, a bare symbol for a non-terminal.  Empty quotation marks
are no symbol: they write the empty phrase.

A bare symbol is a non-empty run of characters other than blanks, quotation
marks, the bar, the semicolon and the number sign, with two exceptions: the
arrow and the directive's keyword are not symbols.
-/

namespace PhraseStructure

/-- A symbol as it stands in a grammar text. -/
inductive Symbol where
  | quoted (text : Text)
  | bare (text : Text)
deriving DecidableEq

/-- A rule as it stands in a grammar text. -/
structure WrittenRule where
  lhs : List Symbol
  alternatives : List (List Symbol)
deriving DecidableEq

/-- The start symbol's directive, if any, and the rules of a grammar text. -/
structure Script where
  directive : Option Symbol
  rules : List WrittenRule
deriving DecidableEq

namespace Script

/-- What stands between a rule's left-hand phrase and its alternatives. -/
def arrow : Text := ['-', '>']

/-- The keyword of the directive that names the start symbol. -/
def keyword : Text := ['%', 's', 't', 'a', 'r', 't']

/-- What stands between two alternatives. -/
def bar : Text := ['|']

/-- What ends a rule or a directive. -/
def semicolon : Text := [';']

/-- The character may stand inside quotation marks. -/
def isQuotedChar (c : Char) : Bool :=
  !Text.isBlank c && !Text.isQuotation c

/-- The character may stand in a bare symbol. -/
def isBareChar (c : Char) : Bool :=
  isQuotedChar c && c != '|' && c != ';' && c != '#'

/-- A run of bare characters is a symbol unless it is empty, the arrow or the
keyword. -/
def isSymbolRun (run : Text) : Bool :=
  !run.isEmpty && run != arrow && run != keyword

/-- The text can be written as a bare symbol. -/
def isBare (text : Text) : Bool :=
  text.all isBareChar && isSymbolRun text

end Script
end PhraseStructure
