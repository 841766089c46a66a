import PhraseStructure.Grammar.Basic

/-!
# Nullable non-terminals

A non-terminal is nullable when it derives the empty phrase by rules whose
left-hand phrase is a single non-terminal.  The set is found by passes over
those rules.  A pass adds the left-hand token of every rule that has an
alternative of tokens found so far, also tokens found earlier in the same pass,
and the search ends with the first pass that adds nothing.

Every pass but the last adds the token of one more rule, so there are at most
as many passes as rules, and one.
-/

namespace PhraseStructure
namespace Grammar

/-- Some alternative of the rule consists of tokens of the set. -/
def vanishes (found : List Token) (rule : Rule) : Bool :=
  rule.alternatives.any fun alternative => alternative.all found.contains

/-- Add the left-hand token of a rule that vanishes. -/
def nullableStep (found : List Token) (rule : Rule) : List Token :=
  match rule.lhs with
  | [token] =>
      if vanishes found rule then Token.insertAscending token found else found
  | _ => found

/-- One pass over the rules. -/
def nullablePass (rules : List Rule) (found : List Token) : List Token :=
  rules.foldl nullableStep found

/-- Passes until one adds nothing, at most `limit` of them. -/
def nullablePasses (rules : List Rule) : Nat → List Token → List Token
  | 0, found => found
  | limit + 1, found =>
      let next := nullablePass rules found
      if next = found then found else nullablePasses rules limit next

/-- The nullable non-terminals, strictly ascending. -/
def nullable (grammar : Grammar) : List Token :=
  nullablePasses grammar.contextFreeRules (grammar.contextFreeRules.length + 1) []

end Grammar
end PhraseStructure
