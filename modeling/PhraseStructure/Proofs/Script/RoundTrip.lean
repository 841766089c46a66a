import PhraseStructure.Proofs.Grammar.Sameness
import PhraseStructure.Proofs.Script.NormalForm

/-!
# Writing a grammar and reading it back

The text of a grammar is read back as the same grammar exactly if every non-terminal in
use can be written bare and no token is classified without being used.  The first
condition is the one that `Grammar.toText` checks.  Where only the second one fails, the
text is read back as the grammar without the entries that nothing uses.

The rule of the start symbol comes first in the grammar that is read, so the rules need
not be in the same order; `Grammar.sameAs` does not see the difference.

A grammar that has been read meets both conditions.  So its text is read as the same grammar,
and that grammar is written as the same text.  The text that it was read from in the first place
may be another one: it may have comments, several rules with one left-hand phrase, repeated
alternatives and the rules in another order.
-/

namespace PhraseStructure

namespace Grammar

variable {grammar : Grammar}

/-- A grammar whose tokens can be written is read back from its text, but tidied. -/
theorem Writable.read_render (h : grammar.Writable) :
    Grammar.read grammar.render = .ok grammar.tidied := by
  rw [Grammar.read, render_eq_render_script, Script.read_render h.readable_script]
  exact toGrammar_script grammar

theorem Writable.exists_read_render (h : grammar.Writable) :
    ∃ parsed, Grammar.read grammar.render = .ok parsed ∧ parsed.start = grammar.start ∧
      parsed.rules = grammar.writtenOrder ∧
      parsed.sorts = grammar.sorts.restrict grammar.tokens :=
  ⟨grammar.tidied, h.read_render, rfl, rfl, rfl⟩

/-- Every grammar that is read can be written, and it uses all tokens that it
classifies. -/
theorem writable_of_read {text : Text} {parsed : Grammar} (h : Grammar.read text = .ok parsed) :
    parsed.Writable ∧ ∀ token, parsed.sorts.contains token = true → token ∈ parsed.tokens := by
  obtain ⟨script, hreadable, hdescribes⟩ := Script.exists_describes_of_read h
  constructor
  · intro token _ hnonTerminal
    exact hreadable.symbols _
      ((hdescribes.records token .nonTerminal).mp (SortTable.isNonTerminal_iff.mp hnonTerminal))
  · intro token hcontains
    exact hdescribes.mem_tokens hcontains

/-! ### The same grammar -/

/-- The parts in which the same grammars agree. -/
theorem of_sameAs {left right : Grammar} (h : left.sameAs right = true) :
    left.start = right.start ∧ left.sorts = right.sorts ∧ left.tokens ⊆ right.tokens := by
  obtain ⟨hstart, hsorts, _⟩ := sameAs_iff.mp h
  refine ⟨hstart, hsorts, ?_⟩
  intro token htoken
  rw [mem_tokens] at htoken ⊢
  rcases htoken with ⟨rule, hrule, htoken⟩ | rfl
  · obtain ⟨other, hother, hsame⟩ := exists_sameAs_of_mem h hrule
    obtain ⟨hlhs, halternatives⟩ := Rule.sameAs_iff.mp hsame
    refine .inl ⟨other, hother, Rule.mem_tokens.mpr ?_⟩
    rcases Rule.mem_tokens.mp htoken with htoken | ⟨alternative, halternative, htoken⟩
    · exact .inl (hlhs ▸ htoken)
    · exact .inr ⟨alternative, (halternatives alternative).mp halternative, htoken⟩
  · exact .inr hstart

/-- Tidying a grammar that uses all tokens that it classifies only reorders the rules. -/
theorem tidied_sameAs
    (hused : ∀ token, grammar.sorts.contains token = true → token ∈ grammar.tokens) :
    grammar.tidied.sameAs grammar = true :=
  sameAs_of_perm rfl (SortTable.restrict_eq_self_iff.mpr hused) grammar.writtenOrder_perm

theorem read_render_sameAs_iff :
    (∃ parsed, Grammar.read grammar.render = .ok parsed ∧ parsed.sameAs grammar = true) ↔
      grammar.Writable ∧ ∀ token, grammar.sorts.contains token = true → token ∈ grammar.tokens := by
  constructor
  · rintro ⟨parsed, hparsed, hsame⟩
    -- Both conditions hold of every grammar that is read, and the same grammars share them.
    obtain ⟨hwritable, hused⟩ := writable_of_read hparsed
    obtain ⟨_, hsorts, htokens⟩ := of_sameAs hsame
    rw [hsorts] at hused
    constructor
    · intro token htoken hnonTerminal
      have hparsedToken := hused token (contains_of_mem_tokens htoken)
      apply hwritable token hparsedToken
      rwa [isNonTerminal, hsorts]
    · intro token hcontains
      exact htokens (hused token hcontains)
  · rintro ⟨hwritable, hused⟩
    exact ⟨grammar.tidied, hwritable.read_render, tidied_sameAs hused⟩

/-- The text of a grammar is read back as the same grammar exactly if the grammar can be
written and classifies nothing that it does not use.  Whatever can be written is read back
with the start symbol's rule first and the sorts of the tokens in use. -/
theorem text_round_trip (grammar : Grammar) :
    ((∃ parsed, Grammar.read grammar.render = .ok parsed ∧ parsed.sameAs grammar = true) ↔
        (∃ text, grammar.toText = .ok text) ∧
          ∀ token, grammar.sorts.contains token = true → token ∈ grammar.tokens) ∧
      ∀ text, grammar.toText = .ok text →
        text = grammar.render ∧
          ∃ parsed, Grammar.read text = .ok parsed ∧ parsed.start = grammar.start ∧
            parsed.rules = (grammar.ruleFor? grammar.start).toList ++
              (grammar.rules.filter fun rule => rule.lhs ≠ [grammar.start]) ∧
            parsed.sorts = grammar.sorts.restrict grammar.tokens := by
  constructor
  · rw [read_render_sameAs_iff]
    simp [toText_eq_ok_iff]
  · intro text htext
    obtain ⟨hwritable, rfl⟩ := toText_eq_ok_iff.mp htext
    rw [← writtenOrder_eq]
    exact ⟨rfl, hwritable.exists_read_render⟩

/-- A start symbol that begins like the directive's keyword, terminals that look like
syntax, an empty alternative, a rule that moves to the front, and an entry that nothing
uses. -/
theorem text_round_trip_keyword :
    ∃ grammar text parsed,
      Grammar.ofTexts [['%', 's', 't', 'a', 'r', 't', 'A'], ['B'], ['C']] [['-', '>', 'x'], ['|']]
          [(['B'], [['|', ' ', 'B'], []]),
            (['%', 's', 't', 'a', 'r', 't', 'A'], [['-', '>', 'x', ' ', 'B']])]
          ['%', 's', 't', 'a', 'r', 't', 'A'] = .ok grammar ∧
        grammar.toText = .ok text ∧ Grammar.read text = .ok parsed ∧
        parsed.start = grammar.start ∧ parsed.rules = grammar.rules.reverse ∧
        parsed.sorts ≠ grammar.sorts ∧ parsed.sorts = grammar.sorts.restrict grammar.tokens := by
  obtain ⟨grammar, text, hgrammar, htext, hrules, hsorts⟩ : ∃ grammar text,
      Grammar.ofTexts [['%', 's', 't', 'a', 'r', 't', 'A'], ['B'], ['C']] [['-', '>', 'x'], ['|']]
          [(['B'], [['|', ' ', 'B'], []]),
            (['%', 's', 't', 'a', 'r', 't', 'A'], [['-', '>', 'x', ' ', 'B']])]
          ['%', 's', 't', 'a', 'r', 't', 'A'] = .ok grammar ∧
        grammar.toText = .ok text ∧
        (grammar.ruleFor? grammar.start).toList ++
          (grammar.rules.filter fun rule => rule.lhs ≠ [grammar.start]) = grammar.rules.reverse ∧
        grammar.sorts.restrict grammar.tokens ≠ grammar.sorts :=
    ⟨_, _, rfl, rfl, rfl, by decide⟩
  obtain ⟨_, parsed, hparsed, hstart, hparsedRules, hparsedSorts⟩ :=
    (text_round_trip grammar).2 text htext
  refine ⟨grammar, text, parsed, hgrammar, htext, hparsed, hstart, hparsedRules.trans hrules, ?_,
    hparsedSorts⟩
  rwa [hparsedSorts]

/-! ### The normal form -/

/-- The text of a grammar is the text of the grammar that is read from it. -/
theorem Writable.toText_tidied (h : grammar.Writable) :
    grammar.tidied.toText = .ok grammar.render := by
  obtain ⟨htidied, _⟩ := writable_of_read h.read_render
  exact toText_eq_ok_iff.mpr ⟨htidied, render_tidied grammar⟩

/-- A grammar that has been read classifies its tokens in use and no others, and its non-terminals
can be written bare.  It is written as a text that is read as the same grammar, and that grammar is
written as the same text. -/
theorem normal_form_of_read {text : Text} (h : Grammar.read text = .ok grammar) :
    (∀ token, grammar.isNonTerminal token = true → Script.isBare token.text = true) ∧
      (∀ token, grammar.sorts.contains token = true ↔
        (∃ rule ∈ grammar.rules, token ∈ rule.tokens) ∨ token = grammar.start) ∧
      ∃ written parsed, grammar.toText = .ok written ∧ Grammar.read written = .ok parsed ∧
        parsed.sameAs grammar = true ∧ parsed.render = written ∧ parsed.toText = .ok written := by
  obtain ⟨hwritable, hused⟩ := writable_of_read h
  have hclassified : ∀ token, grammar.sorts.contains token = true ↔ token ∈ grammar.tokens :=
    fun token => ⟨hused token, contains_of_mem_tokens⟩
  refine ⟨?_, ?_, ?_⟩
  · intro token hnonTerminal
    have hcontains : grammar.sorts.contains token = true := by
      rw [SortTable.contains, SortTable.isNonTerminal_iff.mp hnonTerminal]
      rfl
    exact hwritable token (hused token hcontains) hnonTerminal
  · intro token
    rw [hclassified, mem_tokens]
  · exact ⟨grammar.render, grammar.tidied, toText_eq_ok_iff.mpr ⟨hwritable, rfl⟩,
      hwritable.read_render, tidied_sameAs hused, render_tidied grammar, hwritable.toText_tidied⟩

/-- A declared start symbol whose rule is not the first one, an alternative in two spellings, a rule
in two parts, and a comment. -/
theorem normal_form_of_read_declared :
    ∃ grammar parsed,
      Grammar.read "%start A ; B -> 'x' | \"x\" ; A -> B | B ; # too\nB -> ;".toList = .ok grammar ∧
        grammar.toText = .ok "A -> B ;\nB -> 'x' | '' ;\n".toList ∧
        Grammar.read "A -> B ;\nB -> 'x' | '' ;\n".toList = .ok parsed ∧
        parsed.sameAs grammar = true ∧
        parsed.toText = .ok "A -> B ;\nB -> 'x' | '' ;\n".toList := by
  have hboth : (Grammar.read "%start A ; B -> 'x' | \"x\" ; A -> B | B ; # too\nB -> ;".toList >>=
      Grammar.toText) = .ok "A -> B ;\nB -> 'x' | '' ;\n".toList := by
    decide +kernel
  obtain ⟨grammar, hread, htext⟩ := bind_eq_ok_iff.mp hboth
  obtain ⟨_, _, written, parsed, hwritten, hparsed, hsame, _, hagain⟩ := normal_form_of_read hread
  obtain rfl := Except.ok.inj (hwritten.symm.trans htext)
  exact ⟨grammar, parsed, hread, htext, hparsed, hsame, hagain⟩

end Grammar
end PhraseStructure
