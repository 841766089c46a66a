import PhraseStructure.Grammar.Kind
import PhraseStructure.Proofs.Grammar.Languages
import PhraseStructure.Proofs.Grammar.Productions

/-!
# Languages from outlines

A grammar is a large structure with proofs in it.  Its outline is the plain data in it that
recognizing and deriving depend on, with the productions in one list, so a written grammar
is evaluated once, to its outline, and everything else is read off the outline.

What was bounded for all productions at once becomes one inequality per listed production.
A production that replaces more than one token sets no bound, since no derivation that
counts here uses it.
-/

namespace PhraseStructure

/-- The data in a grammar that recognizing and deriving depend on. -/
structure Outline where
  start : Token
  nonTerminals : List Token
  terminals : List Token
  productions : List (Phrase × Phrase)
  kind : Kind
deriving DecidableEq

namespace Grammar

variable {grammar : Grammar}

/-- The outline of a grammar, its productions in order. -/
def outline (grammar : Grammar) : Outline where
  start := grammar.start
  nonTerminals := grammar.sorts.nonTerminals
  terminals := grammar.sorts.terminals
  productions := Rule.productions grammar.rules
  kind := grammar.kind

theorem isTerminal_iff_mem_outline {token : Token} :
    grammar.isTerminal token = true ↔ token ∈ grammar.outline.terminals := by
  rw [isTerminal, SortTable.isTerminal_iff]
  exact SortTable.mem_withSort.symm

theorem isNonTerminal_iff_mem_outline {token : Token} :
    grammar.isNonTerminal token = true ↔ token ∈ grammar.outline.nonTerminals :=
  SortTable.mem_nonTerminals.symm

theorem contextFreeProduction_iff_mem_outline {token : Token} {alternative : Phrase} :
    grammar.ContextFreeProduction [token] alternative ↔
      token ∈ grammar.outline.nonTerminals ∧
        ([token], alternative) ∈ grammar.outline.productions := by
  have hmem : ([token], alternative) ∈ grammar.outline.productions ↔
      Rule.Produces grammar.rules [token] alternative := Rule.mem_productions
  rw [hmem, ← isNonTerminal_iff_mem_outline]
  constructor
  · rintro ⟨rule, hrule, hlhs, halternative⟩
    obtain ⟨hmem, other, hother, hnonTerminal⟩ := mem_contextFreeRules.mp hrule
    obtain rfl := List.singleton_inj.mp (hlhs.symm.trans hother)
    exact ⟨hnonTerminal, rule, hmem, hlhs, halternative⟩
  · rintro ⟨hnonTerminal, rule, hrule, hlhs, halternative⟩
    exact ⟨rule, mem_contextFreeRules.mpr ⟨hrule, token, hlhs, hnonTerminal⟩, hlhs, halternative⟩

end Grammar

namespace Outline

/-- The family that gives listed tokens their languages, and to any other token itself as its
only word. -/
def family (listed : List (Token × Language Token)) (token : Token) : Language Token :=
  match listed with
  | [] => {[token]}
  | (known, language) :: rest => if token = known then language else family rest token

theorem family_of_not_mem {listed : List (Token × Language Token)} {token : Token}
    (h : token ∉ listed.map Prod.fst) : family listed token = {[token]} := by
  induction listed with
  | nil => rfl
  | cons entry listed ih =>
      rw [List.map_cons, List.mem_cons, not_or] at h
      rw [family, if_neg h.1, ih h.2]

/-- A family of languages is closed under a production.  Nothing is asked for if the
production does not replace a single token. -/
def ClosedUnder (language : Token → Language Token) : Phrase × Phrase → Prop
  | ([token], alternative) => (alternative.map language).prod ≤ language token
  | _ => True

variable {grammar : Grammar} {outline : Outline} (houtline : grammar.outline = outline)

include houtline

theorem languageOf_le_family (listed : List (Token × Language Token))
    (hterminals : ∀ token ∈ outline.terminals, token ∉ listed.map Prod.fst)
    (hproductions : ∀ production ∈ outline.productions, ClosedUnder (family listed) production)
    (token : Token) : grammar.languageOf token ≤ family listed token := by
  subst houtline
  apply Grammar.languageOf_le
  · intro terminal hterminal
    have hmem := Grammar.isTerminal_iff_mem_outline.mp hterminal
    rw [family_of_not_mem (hterminals terminal hmem)]
    rfl
  · intro other alternative hproduction
    exact hproductions ([other], alternative)
      (Grammar.contextFreeProduction_iff_mem_outline.mp hproduction).2

theorem singleton_le_languageOf {token : Token} (h : token ∈ outline.terminals) :
    {[token]} ≤ grammar.languageOf token := by
  subst houtline
  rintro word rfl
  exact Grammar.mem_languageOf_of_isTerminal (Grammar.isTerminal_iff_mem_outline.mpr h)

theorem prod_le_languageOf {token : Token} {alternative : Phrase}
    (htoken : token ∈ outline.nonTerminals)
    (h : ([token], alternative) ∈ outline.productions) :
    (alternative.map grammar.languageOf).prod ≤ grammar.languageOf token := by
  subst houtline
  exact Grammar.prod_le_languageOf
    (Grammar.contextFreeProduction_iff_mem_outline.mpr ⟨htoken, h⟩)

end Outline
end PhraseStructure
