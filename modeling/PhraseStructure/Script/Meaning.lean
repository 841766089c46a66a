import PhraseStructure.Grammar.Basic
import PhraseStructure.Script.Reader

/-!
# The grammar of a script

The symbols of a script are classified in the order in which they are written:
a quoted symbol as a terminal, a bare one as a non-terminal.  A rule is checked
as soon as its symbols are classified, so of two errors the one in the earlier
rule is reported.

The start symbol is the one asked for, else the directive's, else the left-hand
phrase of the first rule, which then has to be a single token.
-/

namespace PhraseStructure

namespace Symbol

/-- The characters of a symbol. -/
def text : Symbol → Text
  | quoted text => text
  | bare text => text

/-- The sort that the way of writing gives a symbol. -/
def sort : Symbol → SymbolSort
  | quoted _ => .terminal
  | bare _ => .nonTerminal

end Symbol

namespace Script

/-- The token of a symbol, and the sort table that knows it. -/
def classifySymbol (sorts : SortTable) (symbol : Symbol) : Except Error (Token × SortTable) := do
  let token ← Token.read symbol.text
  let sorts ← sorts.classify token symbol.sort
  return (token, sorts)

/-- The phrase of symbols, and the sort table that knows them. -/
def classifySymbols (sorts : SortTable) : List Symbol → Except Error (Phrase × SortTable)
  | [] => .ok ([], sorts)
  | symbol :: rest => do
      let (token, sorts) ← classifySymbol sorts symbol
      let (phrase, sorts) ← classifySymbols sorts rest
      return (token :: phrase, sorts)

/-- The phrases of alternatives, and the sort table that knows them. -/
def classifyAlternatives (sorts : SortTable) :
    List (List Symbol) → Except Error (List Phrase × SortTable)
  | [] => .ok ([], sorts)
  | symbols :: rest => do
      let (phrase, sorts) ← classifySymbols sorts symbols
      let (phrases, sorts) ← classifyAlternatives sorts rest
      return (phrase :: phrases, sorts)

/-- The rules of written rules, and the sort table that knows their symbols. -/
def classifyRules (sorts : SortTable) :
    List WrittenRule → Except Error (List Rule × SortTable)
  | [] => .ok ([], sorts)
  | written :: rest => do
      let (lhs, sorts) ← classifySymbols sorts written.lhs
      let (alternatives, sorts) ← classifyAlternatives sorts written.alternatives
      let rule ← Rule.make lhs alternatives
      let (rules, sorts) ← classifyRules sorts rest
      return (rule :: rules, sorts)

/-- The directive's token, if there is a directive, and the sort table that
knows it. -/
def classifyDirective : Option Symbol → Except Error (Option Token × SortTable)
  | none => .ok (none, .empty)
  | some symbol => do
      let (token, sorts) ← classifySymbol .empty symbol
      return (some token, sorts)

/-- The left-hand token of the first rule. -/
def firstToken (rules : List Rule) : Except Error Token :=
  match rules with
  | [] => .error (.unreadable "grammar has no rules")
  | rule :: _ =>
      match rule.lhs with
      | [token] => .ok token
      | lhs =>
          .error (.unreadable ("start symbol must be a single token, got " ++
            Error.shownPhrase lhs))

/-- The grammar of a script, with a start symbol of one's own if one is given. -/
def toGrammar (script : Script) (asked : Option Token) : Except Error Grammar := do
  let (declared, sorts) ← classifyDirective script.directive
  let (rules, sorts) ← classifyRules sorts script.rules
  let start ← match asked.or declared with
    | some start => pure start
    | none => firstToken rules
  Grammar.make sorts rules start

end Script

namespace Grammar

/-- The grammar of a text. -/
def read (text : Text) : Except Error Grammar := do
  let script ← Script.read text
  script.toGrammar none

/-- The grammar of a text with another start symbol. -/
def readWithStart (text start : Text) : Except Error Grammar := do
  let script ← Script.read text
  let start ← Token.read start
  script.toGrammar (some start)

end Grammar
end PhraseStructure
