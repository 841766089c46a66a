import PhraseStructure.Grammar.Basic

/-!
# Derivations

A production is a pair of a left-hand phrase and one of its alternatives.  A step
replaces one occurrence of a left-hand phrase by an alternative, wherever it
stands, and a derivation is a finite sequence of steps, possibly none.  The
definitions take the productions as a relation, because a grammar is used with
all its productions, with those of its context-free rules only, or with the
non-empty ones of those.

A phrase generates a word when it derives the word and the word consists of
terminals.  Nothing here is computed; these relations say what the recognizers
decide.
-/

namespace PhraseStructure

/-- One occurrence of a left-hand phrase is replaced by an alternative. -/
inductive Step (production : Phrase → Phrase → Prop) : Phrase → Phrase → Prop
  | replace (before : Phrase) {lhs alternative : Phrase} (after : Phrase)
      (h : production lhs alternative) :
      Step production (before ++ lhs ++ after) (before ++ alternative ++ after)

/-- Finitely many steps, possibly none. -/
inductive Derives (production : Phrase → Phrase → Prop) : Phrase → Phrase → Prop
  | refl (phrase : Phrase) : Derives production phrase phrase
  | head {first second last : Phrase} (h : Step production first second)
      (rest : Derives production second last) : Derives production first last

namespace Derives

variable {production : Phrase → Phrase → Prop}

/-- A single production is a derivation. -/
theorem single {lhs alternative : Phrase} (h : production lhs alternative) :
    Derives production lhs alternative := by
  have step := Step.replace [] [] h
  simp only [List.nil_append, List.append_nil] at step
  exact .head step (.refl _)

theorem trans {first second last : Phrase} (left : Derives production first second)
    (right : Derives production second last) : Derives production first last := by
  induction left with
  | refl => exact right
  | head h _ ih => exact .head h (ih right)

/-- A derivation goes on inside any context. -/
theorem within {first last : Phrase} (h : Derives production first last)
    (before after : Phrase) :
    Derives production (before ++ first ++ after) (before ++ last ++ after) := by
  induction h with
  | refl => exact .refl _
  | head hstep _ ih =>
      obtain ⟨inner, outer, hprod⟩ := hstep
      have step := Step.replace (before ++ inner) (outer ++ after) hprod
      simp only [List.append_assoc] at step ih ⊢
      exact .head step ih

/-- Derivations of neighbours are a derivation of both together. -/
theorem append {left left' right right' : Phrase} (hleft : Derives production left left')
    (hright : Derives production right right') :
    Derives production (left ++ right) (left' ++ right') := by
  have first := hleft.within [] right
  have second := hright.within left' []
  simp only [List.nil_append, List.append_nil] at first second
  exact first.trans second

/-- More productions keep every derivation. -/
theorem mono {more : Phrase → Phrase → Prop}
    (h : ∀ lhs alternative, production lhs alternative → more lhs alternative)
    {first last : Phrase} (derivation : Derives production first last) :
    Derives more first last := by
  induction derivation with
  | refl => exact .refl _
  | head hstep _ ih =>
      obtain ⟨before, after, hprod⟩ := hstep
      exact .head (.replace before after (h _ _ hprod)) ih

end Derives

namespace Grammar

/-- A left-hand phrase and one of its alternatives. -/
def Production (grammar : Grammar) (lhs alternative : Phrase) : Prop :=
  ∃ rule ∈ grammar.rules, rule.lhs = lhs ∧ alternative ∈ rule.alternatives

/-- A production whose left-hand phrase is a single non-terminal. -/
def ContextFreeProduction (grammar : Grammar) (lhs alternative : Phrase) : Prop :=
  ∃ rule ∈ grammar.contextFreeRules, rule.lhs = lhs ∧ alternative ∈ rule.alternatives

/-- A production whose left-hand phrase is a single non-terminal and whose
alternative is not empty. -/
def EpsilonFreeProduction (grammar : Grammar) (lhs alternative : Phrase) : Prop :=
  grammar.ContextFreeProduction lhs alternative ∧ alternative ≠ []

/-- Every token is a terminal of the grammar. -/
def IsWord (grammar : Grammar) (phrase : Phrase) : Prop :=
  ∀ token ∈ phrase, grammar.isTerminal token = true

/-- A form derives a word by the grammar's context-free rules. -/
def Generates (grammar : Grammar) (form word : Phrase) : Prop :=
  grammar.IsWord word ∧ Derives grammar.ContextFreeProduction form word

/-- A form derives a word by the grammar's context-free rules without an ε
production. -/
def GeneratesWithoutEpsilon (grammar : Grammar) (form word : Phrase) : Prop :=
  grammar.IsWord word ∧ Derives grammar.EpsilonFreeProduction form word

theorem ContextFreeProduction.production {grammar : Grammar} {lhs alternative : Phrase}
    (h : grammar.ContextFreeProduction lhs alternative) :
    grammar.Production lhs alternative := by
  obtain ⟨rule, hrule, hlhs, halternative⟩ := h
  exact ⟨rule, (List.mem_filter.mp hrule).1, hlhs, halternative⟩

end Grammar
end PhraseStructure
