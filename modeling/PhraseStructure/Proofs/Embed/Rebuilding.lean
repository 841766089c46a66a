import PhraseStructure.Embed.Arguments
import PhraseStructure.Proofs.Grammar.Construction
import PhraseStructure.Proofs.Phrase
import PhraseStructure.Proofs.SortTable

/-!
# Building a grammar from its construction arguments

Every part of a grammar is read back from the texts that describe it: the sort table
from its non-terminals and terminals, a rule from its spelled phrases, and the start
symbol from its text.  Nothing in a grammar is repeated or in conflict, so the builder
refuses nothing, merges nothing and drops nothing, and the grammar that is built is the
given one, entries that nothing uses and all orders included.

Grammar text does not keep that much: it loses the entries that nothing uses.
-/

namespace PhraseStructure

namespace SortTable

variable {table : SortTable} {sort : SymbolSort}

/-- Giving tokens the sort that they have in a table adds them to the listed ones. -/
theorem classifyTexts_restrict (seen : List Token) {tokens : List Token}
    (h : ∀ token ∈ tokens, table.sortOf token = some sort) :
    (table.restrict seen).classifyTexts sort (tokens.map Token.text) =
      .ok (table.restrict (seen ++ tokens)) := by
  induction tokens generalizing seen with
  | nil => rw [List.append_nil]; rfl
  | cons token tokens ih =>
      obtain ⟨htoken, htokens⟩ := List.forall_mem_cons.mp h
      have hrest := ih (seen ++ [token]) htokens
      rw [List.append_assoc, List.singleton_append] at hrest
      rw [List.map_cons, classifyTexts, List.foldlM_cons, token.read_text]
      show ((table.restrict seen).classify token sort >>= _) = _
      rw [classify_restrict htoken seen]
      exact hrest

/-- A table is built from its non-terminals and terminals. -/
theorem ofTexts_self (table : SortTable) :
    ofTexts (table.nonTerminals.map Token.text) (table.terminals.map Token.text) = .ok table := by
  have hlisted : ∀ sort, ∀ token ∈ table.withSort sort, table.sortOf token = some sort :=
    fun sort token => mem_withSort.mp
  have hnonTerminals := classifyTexts_restrict [] (hlisted .nonTerminal)
  have hterminals := classifyTexts_restrict table.nonTerminals (hlisted .terminal)
  have hall : table.restrict (table.nonTerminals ++ table.withSort .terminal) = table :=
    restrict_eq_self_iff.mpr fun _ => mem_nonTerminals_append_terminals.mpr
  rw [restrict_nil, List.nil_append] at hnonTerminals
  rw [hall] at hterminals
  rw [ofTexts, nonTerminals, hnonTerminals]
  exact hterminals

end SortTable

/-- A rule is built from its spelled phrases. -/
theorem Rule.ofTexts_spelled (rule : Rule) :
    ofTexts rule.lhs.spelled (rule.alternatives.map Phrase.spelled) = .ok rule := by
  have halternatives : (rule.alternatives.map Phrase.spelled).mapM Phrase.read =
      .ok rule.alternatives := mapM_map_eq_ok fun phrase _ => phrase.read_spelled
  rw [ofTexts, rule.lhs.read_spelled, halternatives]
  exact rule.make_self

namespace Grammar

/-- Every grammar is built again from its construction arguments: the same sort table, the
same rules in the same order with the same alternatives in the same order, and the same
start symbol. -/
theorem build_arguments (grammar : Grammar) : grammar.arguments.build = .ok grammar := by
  have hsorts : SortTable.ofTexts grammar.arguments.nonTerminals grammar.arguments.terminals =
      .ok grammar.sorts := grammar.sorts.ofTexts_self
  have hrules : (grammar.arguments.rules.mapM fun texts => Rule.ofTexts texts.1 texts.2) =
      .ok grammar.rules := mapM_map_eq_ok fun rule _ => rule.ofTexts_spelled
  have hstart : Token.read grammar.arguments.start = .ok grammar.start := grammar.start.read_text
  have hbuild : grammar.arguments.build = (do
      let sorts ← SortTable.ofTexts grammar.arguments.nonTerminals grammar.arguments.terminals
      let rules ← grammar.arguments.rules.mapM fun texts => Rule.ofTexts texts.1 texts.2
      let start ← Token.read grammar.arguments.start
      make sorts rules start) := rfl
  rw [hbuild, hsorts, hrules, hstart]
  exact grammar.make_self

end Grammar
end PhraseStructure
