import PhraseStructure.Grammar.Basic

/-!
# Construction arguments

The texts from which a grammar can be built again: its non-terminals and its
terminals in ascending order, its rules in order, and its start symbol.  The
empty phrase is the empty text here, not the letter epsilon, because the texts
are read back as phrases.

The sort table is listed in full, so a token that is classified but used nowhere
is kept.
-/

namespace PhraseStructure

/-- The texts that describe a grammar completely. -/
structure Arguments where
  nonTerminals : List Text
  terminals : List Text
  rules : List (Text × List Text)
  start : Text
deriving DecidableEq

namespace Grammar

/-- The construction arguments of a grammar. -/
def arguments (grammar : Grammar) : Arguments where
  nonTerminals := grammar.sorts.nonTerminals.map Token.text
  terminals := grammar.sorts.terminals.map Token.text
  rules := grammar.rules.map fun rule =>
    (rule.lhs.spelled, rule.alternatives.map Phrase.spelled)
  start := grammar.start.text

end Grammar

namespace Arguments

/-- The grammar that construction arguments describe. -/
def build (arguments : Arguments) : Except Error Grammar :=
  Grammar.ofTexts arguments.nonTerminals arguments.terminals arguments.rules arguments.start

end Arguments
end PhraseStructure
