import PhraseStructure.Proofs.Grammar.Merging
import PhraseStructure.Proofs.Grammar.Sameness

/-!
# Grammars from productions

How productions are listed does not matter to the builder: in which order, in how many rules
for one left-hand phrase, and how often.  Errors mention tokens only, and they list them in
ascending order, so rules with the same productions are refused with the same error.  A
grammar has one rule per left-hand phrase, so its rules, taken as left-hand phrases with sets
of alternatives, are determined by its productions.

The grammars are the same, not equal: their rules and alternatives may stand in different
orders.
-/

namespace PhraseStructure

namespace Rule

/-- The productions of rules, one after another. -/
def productions (rules : List Rule) : List (Phrase × Phrase) :=
  rules.flatMap fun rule => rule.alternatives.map fun alternative => (rule.lhs, alternative)

theorem mem_productions {rules : List Rule} {left alternative : Phrase} :
    (left, alternative) ∈ productions rules ↔ Produces rules left alternative := by
  simp [productions, Produces, and_comm]

variable {rules others : List Rule}

/-- Rules with the same productions have the same tokens. -/
theorem mem_tokens_congr
    (h : ∀ left alternative, Produces rules left alternative ↔ Produces others left alternative)
    (token : Token) :
    (∃ rule ∈ rules, token ∈ rule.tokens) ↔ ∃ rule ∈ others, token ∈ rule.tokens := by
  simp only [exists_mem_tokens_iff, h]

theorem forall_mem_tokens_iff {p : Token → Prop} :
    (∀ rule ∈ rules, ∀ token ∈ rule.tokens, p token) ↔
      ∀ token, (∃ rule ∈ rules, token ∈ rule.tokens) → p token := by
  constructor
  · rintro h token ⟨rule, hrule, htoken⟩
    exact h rule hrule token htoken
  · intro h rule hrule token htoken
    exact h token ⟨rule, hrule, htoken⟩

end Rule

namespace Grammar

/-- The alternatives of a rule of a grammar are those of all its productions. -/
theorem mem_alternatives_iff_produces {grammar : Grammar} {rule : Rule}
    (hrule : rule ∈ grammar.rules) {alternative : Phrase} :
    alternative ∈ rule.alternatives ↔ Rule.Produces grammar.rules rule.lhs alternative := by
  constructor
  · intro halternative
    exact ⟨rule, hrule, rfl, halternative⟩
  · rintro ⟨other, hother, hlhs, halternative⟩
    rwa [← eq_of_lhs_eq hother hrule hlhs]

variable {left right : Grammar}

theorem ruleSet_subset_of_produces
    (h : ∀ lhs alternative,
      Rule.Produces left.rules lhs alternative ↔ Rule.Produces right.rules lhs alternative) :
    left.ruleSet ⊆ right.ruleSet := by
  rintro content ⟨rule, hrule, rfl⟩
  obtain ⟨alternative, halternative⟩ := rule.exists_mem_alternatives
  obtain ⟨other, hother, hlhs, _⟩ := (h rule.lhs alternative).mp ⟨rule, hrule, rfl, halternative⟩
  refine ⟨other, hother, Rule.sameAs_iff_content_eq.mp (Rule.sameAs_iff.mpr ⟨hlhs, ?_⟩)⟩
  intro alternative
  rw [mem_alternatives_iff_produces hother, mem_alternatives_iff_produces hrule, h, hlhs]

/-- Grammars with the same start symbol, sorts and productions are the same. -/
theorem sameAs_of_produces (hstart : left.start = right.start) (hsorts : left.sorts = right.sorts)
    (h : ∀ lhs alternative,
      Rule.Produces left.rules lhs alternative ↔ Rule.Produces right.rules lhs alternative) :
    left.sameAs right = true := by
  have hsubset := ruleSet_subset_of_produces h
  have hsubset' := ruleSet_subset_of_produces fun lhs alternative => (h lhs alternative).symm
  exact sameAs_iff.mpr ⟨hstart, hsorts, hsubset.antisymm hsubset'⟩

/-- Rules with the same productions are either made into the same grammar or refused with the
same error. -/
theorem make_independent_of_listing (sorts : SortTable) (start : Token) {rules others : List Rule}
    (h : ∀ lhs alternative,
      Rule.Produces rules lhs alternative ↔ Rule.Produces others lhs alternative) :
    (∃ grammar other, make sorts rules start = .ok grammar ∧ make sorts others start = .ok other ∧
        grammar.sameAs other = true ∧ other.sameAs grammar = true) ∨
      ∃ error, make sorts rules start = .error error ∧ make sorts others start = .error error := by
  have htokens := Rule.mem_tokens_congr h
  have hclassified : (∀ rule ∈ rules, ∀ token ∈ rule.tokens, sorts.contains token = true) ↔
      ∀ rule ∈ others, ∀ token ∈ rule.tokens, sorts.contains token = true := by
    simp only [Rule.forall_mem_tokens_iff, htokens]
  cases hmake : make sorts rules start with
  | error error =>
      rw [make_eq_error_iff] at hmake
      simp only [htokens, hclassified] at hmake
      exact .inr ⟨error, rfl, make_eq_error_iff.mpr hmake⟩
  | ok grammar =>
      obtain ⟨hrules, hstart⟩ := exists_make_iff.mp ⟨grammar, hmake⟩
      obtain ⟨other, hother⟩ := exists_make_iff.mpr ⟨hclassified.mp hrules, hstart⟩
      obtain ⟨hsorts, hmerged, hstart⟩ := of_make hmake
      obtain ⟨hsorts', hmerged', hstart'⟩ := of_make hother
      have hsame : grammar.sameAs other = true := by
        refine sameAs_of_produces (hstart.trans hstart'.symm) (hsorts.trans hsorts'.symm) ?_
        intro lhs alternative
        rw [hmerged, hmerged', Rule.produces_mergeAll, Rule.produces_mergeAll, h]
      exact .inl ⟨grammar, other, rfl, hother, hsame, sameAs_symm hsame⟩

/-- The same productions as two rules and as three, in different orders and with a repetition,
once with a table that classifies everything and once with one that lacks two tokens. -/
theorem make_independent_of_listing_spread :
    ∃ sorts known first second third fourth fifth grammar other, ∃ s : Token, s.text = ['S'] ∧
      SortTable.ofTexts [['B'], ['S']] [['a'], ['b']] = .ok sorts ∧
      SortTable.ofTexts [['B']] [['a']] = .ok known ∧
      Rule.ofTexts ['S'] [['a', ' ', 'S'], [], ['b']] = .ok first ∧
      Rule.ofTexts ['B'] [['b']] = .ok second ∧
      Rule.ofTexts ['S'] [['b'], ['a', ' ', 'S']] = .ok third ∧
      Rule.ofTexts ['S'] [['b'], []] = .ok fourth ∧
      Rule.ofTexts ['B'] [['b']] = .ok fifth ∧
      make sorts [first, second] s = .ok grammar ∧
      make sorts [fifth, third, fourth] s = .ok other ∧
      grammar.rules ≠ other.rules ∧ grammar.sameAs other = true ∧
      ∃ error, make known [first, second] s = .error error ∧
        make known [fifth, third, fourth] s = .error error := by
  obtain ⟨sorts, known, first, second, third, fourth, fifth, grammar, other, s, hs, hsorts, hknown,
      hfirst, hsecond, hthird, hfourth, hfifth, hmake, hother, hne, hsame, hmissing⟩ :
      ∃ sorts known first second third fourth fifth grammar other, ∃ s : Token, s.text = ['S'] ∧
        SortTable.ofTexts [['B'], ['S']] [['a'], ['b']] = .ok sorts ∧
        SortTable.ofTexts [['B']] [['a']] = .ok known ∧
        Rule.ofTexts ['S'] [['a', ' ', 'S'], [], ['b']] = .ok first ∧
        Rule.ofTexts ['B'] [['b']] = .ok second ∧
        Rule.ofTexts ['S'] [['b'], ['a', ' ', 'S']] = .ok third ∧
        Rule.ofTexts ['S'] [['b'], []] = .ok fourth ∧
        Rule.ofTexts ['B'] [['b']] = .ok fifth ∧
        make sorts [first, second] s = .ok grammar ∧
        make sorts [fifth, third, fourth] s = .ok other ∧
        grammar.rules ≠ other.rules ∧
        ((∀ production ∈ Rule.productions [first, second],
            production ∈ Rule.productions [fifth, third, fourth]) ∧
          ∀ production ∈ Rule.productions [fifth, third, fourth],
            production ∈ Rule.productions [first, second]) ∧
        known.contains s = false :=
    ⟨_, _, _, _, _, _, _, _, _, ⟨['S'], by decide⟩, rfl, rfl, rfl, rfl, rfl, rfl, rfl, rfl, rfl, rfl,
      by decide, by decide, by decide⟩
  have hproduces : ∀ lhs alternative, Rule.Produces [first, second] lhs alternative ↔
      Rule.Produces [fifth, third, fourth] lhs alternative := by
    intro lhs alternative
    rw [← Rule.mem_productions, ← Rule.mem_productions]
    exact ⟨hsame.1 _, hsame.2 _⟩
  refine ⟨sorts, known, first, second, third, fourth, fifth, grammar, other, s, hs, hsorts, hknown,
    hfirst, hsecond, hthird, hfourth, hfifth, hmake, hother, hne, ?_, ?_⟩
  · rcases make_independent_of_listing sorts s hproduces with
      ⟨grammar', other', hmake', hother', hsame, _⟩ | ⟨error, herror, _⟩
    · rw [hmake] at hmake'
      rw [hother] at hother'
      cases hmake'
      cases hother'
      exact hsame
    · rw [hmake] at herror
      cases herror
  · rcases make_independent_of_listing known s hproduces with
      ⟨grammar', _, hmake', _⟩ | herror
    · obtain ⟨_, hstart⟩ := exists_make_iff.mp ⟨grammar', hmake'⟩
      rw [hmissing] at hstart
      cases hstart
    · exact herror

end Grammar
end PhraseStructure
