import PhraseStructure.Grammar.Basic
import PhraseStructure.Script.Basic

/-!
# Writing grammar text

The rule of the start symbol is written first, so that reading the text finds
the same start symbol; without such a rule a directive names it.  Terminals
stand in quotation marks, everything else is bare, and the empty phrase is
written as empty quotation marks.

`Grammar.render` writes every grammar.  Its text can be read back only if every
non-terminal in it is a bare symbol, which `Grammar.toText` checks.  A token
that is classified but used nowhere is not written.
-/

namespace PhraseStructure
namespace Grammar

/-- A token, in quotation marks if it is a terminal. -/
def renderToken (grammar : Grammar) (token : Token) : Text :=
  if grammar.isTerminal token then ['\x27'] ++ token.text ++ ['\x27'] else token.text

/-- The tokens of a phrase, or empty quotation marks. -/
def renderPhrase (grammar : Grammar) (phrase : Phrase) : Text :=
  if phrase.isEmpty then
    ['\x27', '\x27']
  else
    Text.joined [' '] (phrase.map grammar.renderToken)

/-- A rule on a line of its own. -/
def renderRule (grammar : Grammar) (rule : Rule) : Text :=
  grammar.renderPhrase rule.lhs ++ [' ', '-', '>', ' '] ++
    Text.joined [' ', '|', ' '] (rule.alternatives.map grammar.renderPhrase) ++
    [' ', ';', '\n']

/-- The directive that names the start symbol, on a line of its own. -/
def renderDirective (grammar : Grammar) : Text :=
  Script.keyword ++ [' '] ++ grammar.renderToken grammar.start ++ [' ', ';', '\n']

/-- The rules in the order in which they are written. -/
def writtenOrder (grammar : Grammar) : List Rule :=
  match grammar.ruleFor? grammar.start with
  | some rule => rule :: grammar.rules.filter fun other => other.lhs ≠ [grammar.start]
  | none => grammar.rules

/-- The text of a grammar. -/
def render (grammar : Grammar) : Text :=
  let rules := grammar.writtenOrder.flatMap grammar.renderRule
  match grammar.ruleFor? grammar.start with
  | some _ => rules
  | none => grammar.renderDirective ++ rules

/-- The first non-terminal in use that is not a bare symbol. -/
def unwritable? (grammar : Grammar) : Option Token :=
  grammar.tokens.find? fun token =>
    grammar.isNonTerminal token && !Script.isBare token.text

/-- The text of a grammar, if it can be read back. -/
def toText (grammar : Grammar) : Except Error Text :=
  match grammar.unwritable? with
  | some token => .error (.unwritable token)
  | none => .ok grammar.render

end Grammar
end PhraseStructure
