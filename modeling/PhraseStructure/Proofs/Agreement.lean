import PhraseStructure.Proofs.Chart.Recognition
import PhraseStructure.Proofs.TopDown.Recognition

/-!
# The recognizers agree

Bottom-up and top-down recognition decide the same statements, so on a context-free
grammar they give the same verdicts, for every non-terminal and every part of the input.
The ε-free variant joins them when no alternative is empty.

They do not agree on a start symbol that is a terminal.  The chart has no number for it,
so bottom-up recognition rejects every input, while top-down recognition accepts the
start symbol itself.
-/

namespace PhraseStructure

namespace Grammar

variable {grammar : Grammar} {form word : Phrase}

/-- Without empty alternatives no ε production is missed. -/
theorem generatesWithoutEpsilon_iff_generates
    (h : ∀ rule ∈ grammar.rules, [] ∉ rule.alternatives) :
    grammar.GeneratesWithoutEpsilon form word ↔ grammar.Generates form word :=
  generatesWithoutEpsilon_iff_of_not_mem fun rule hrule => h rule (mem_contextFreeRules.mp hrule).1

end Grammar

namespace BottomUp

variable {grammar : Grammar} {recognizer : BottomUp}

/-- On a context-free grammar the cells of the chart hold the verdicts of the top-down
search, the recognizers agree if the start symbol is a non-terminal, and they differ on the
start symbol alone if it is a terminal. -/
theorem chart_agrees_with_search (h : make grammar = .ok recognizer) (input : Phrase) :
    (∃ chart, recognizer.chart input = .ok chart ∧
        ∀ length start token, length ≤ input.length → start ≤ input.length - length →
          grammar.isNonTerminal token = true →
            ∃ verdict, chart.contains length start token = .ok verdict ∧
              (input.slice start (start + length) >>=
                (TopDown.general grammar).matchesToken token) = .ok verdict) ∧
      (grammar.isNonTerminal grammar.start = true →
        ∃ verdict, recognizer.recognizes input = .ok verdict ∧
          (TopDown.general grammar).recognizes input = .ok verdict ∧
          ((∀ rule ∈ grammar.rules, [] ∉ rule.alternatives) →
            (TopDown.epsilonFree grammar).recognizes input = .ok verdict)) ∧
      (grammar.isTerminal grammar.start = true →
        recognizer.recognizes input = .ok false ∧
          (TopDown.general grammar).recognizes input = .ok (input = [grammar.start]) ∧
          (TopDown.epsilonFree grammar).recognizes input = .ok (input = [grammar.start])) := by
  obtain ⟨hmade, rfl⟩ := made_of_make h
  have hbottomUp := recognizes_decides hmade input
  have htopDown := TopDown.general_recognizes recognizer.grammar input
  have hepsilonFree := TopDown.epsilonFree_matchesForm recognizer.grammar
    [recognizer.grammar.start] input
  refine ⟨?_, ?_, ?_⟩
  · obtain ⟨chart, hchart, hsound, hcomplete⟩ := chart_spec hmade input
    refine ⟨chart, hchart, ?_⟩
    intro length start token hlength hstart hnonTerminal
    have hinside : start + length ≤ input.length := by omega
    have hcell := contains_decides hsound hinside (hcomplete length start hinside) token
    rw [and_iff_right hnonTerminal] at hcell
    rw [Phrase.slice_eq_ok ⟨Nat.le_add_right start length, hinside⟩]
    exact hcell.exists_common (TopDown.general_matchesToken recognizer.grammar token _)
  · intro hnonTerminal
    rw [and_iff_right hnonTerminal] at hbottomUp
    obtain ⟨verdict, hbottomUp, htopDown'⟩ := hbottomUp.exists_common htopDown
    refine ⟨verdict, hbottomUp, htopDown', ?_⟩
    intro hnonEmpty
    rw [Grammar.generatesWithoutEpsilon_iff_generates hnonEmpty] at hepsilonFree
    obtain ⟨verdict', htopDown'', hepsilonFree⟩ := htopDown.exists_common hepsilonFree
    obtain rfl : verdict = verdict' := Except.ok.inj (htopDown'.symm.trans htopDown'')
    exact hepsilonFree
  · intro hterminal
    rw [Grammar.generates_iff, Yields.terminal_iff hterminal] at htopDown
    rw [Grammar.generatesWithoutEpsilon_iff, Yields.terminal_iff hterminal] at hepsilonFree
    refine ⟨?_, htopDown.eq_ok_decide, hepsilonFree.eq_ok_decide⟩
    have hnot := SortTable.isNonTerminal_eq_false_of_isTerminal hterminal
    obtain ⟨verdict, hrecognizes, hverdict⟩ := hbottomUp
    cases verdict with
    | false => exact hrecognizes
    | true =>
        have hnonTerminal := (hverdict.mp rfl).1
        rw [Grammar.isNonTerminal, hnot] at hnonTerminal
        cases hnonTerminal

/-- A start symbol that leads back to itself, directly and through `A`, and a start symbol
that is a terminal. -/
theorem chart_agrees_with_search_cyclic :
    (∃ grammar recognizer chart, ∃ a s : Token, a.text = ['a'] ∧ s.text = ['S'] ∧
      Grammar.ofTexts [['S'], ['A']] [['a']]
          [(['S'], [['S'], ['A', ' ', 'a'], ['a']]), (['A'], [['S']])] ['S'] = .ok grammar ∧
        make grammar = .ok recognizer ∧ recognizer.chart [a, a] = .ok chart ∧
        (∃ verdict, chart.contains 1 1 s = .ok verdict ∧
          (Phrase.slice [a, a] 1 2 >>= (TopDown.general grammar).matchesToken s) = .ok verdict) ∧
        ∃ verdict, recognizer.recognizes [a, a] = .ok verdict ∧
          (TopDown.general grammar).recognizes [a, a] = .ok verdict ∧
          (TopDown.epsilonFree grammar).recognizes [a, a] = .ok verdict) ∧
      ∃ grammar recognizer, ∃ x : Token, x.text = ['x'] ∧
        Grammar.ofTexts [] [['x']] [] ['x'] = .ok grammar ∧
          make grammar = .ok recognizer ∧ recognizer.recognizes [x] = .ok false ∧
          (TopDown.general grammar).recognizes [x] = .ok true ∧
          (TopDown.epsilonFree grammar).recognizes [x] = .ok true := by
  constructor
  · obtain ⟨grammar, recognizer, hgrammar, hmake, hstart, hs, hnonEmpty⟩ :
        ∃ grammar recognizer, Grammar.ofTexts [['S'], ['A']] [['a']]
            [(['S'], [['S'], ['A', ' ', 'a'], ['a']]), (['A'], [['S']])] ['S'] = .ok grammar ∧
          make grammar = .ok recognizer ∧ grammar.isNonTerminal grammar.start = true ∧
          grammar.isNonTerminal ⟨['S'], by decide⟩ = true ∧
          ∀ rule ∈ grammar.rules, [] ∉ rule.alternatives :=
      ⟨_, _, rfl, rfl, rfl, rfl, by decide⟩
    obtain ⟨⟨chart, hchart, hcells⟩, hverdicts, _⟩ :=
      chart_agrees_with_search hmake [⟨['a'], by decide⟩, ⟨['a'], by decide⟩]
    obtain ⟨verdict, hbottomUp, htopDown, hepsilonFree⟩ := hverdicts hstart
    exact ⟨grammar, recognizer, chart, ⟨['a'], by decide⟩, ⟨['S'], by decide⟩, rfl, rfl, hgrammar,
      hmake, hchart, hcells 1 1 _ (by decide) (by decide) hs, verdict, hbottomUp, htopDown,
      hepsilonFree hnonEmpty⟩
  · obtain ⟨grammar, recognizer, hgrammar, hmake, hterminal, hx⟩ :
        ∃ grammar recognizer, Grammar.ofTexts [] [['x']] [] ['x'] = .ok grammar ∧
          make grammar = .ok recognizer ∧ grammar.isTerminal grammar.start = true ∧
          grammar.start = ⟨['x'], by decide⟩ :=
      ⟨_, _, rfl, rfl, rfl, rfl⟩
    obtain ⟨_, _, hverdicts⟩ := chart_agrees_with_search hmake [⟨['x'], by decide⟩]
    have hthree := hverdicts hterminal
    rw [hx] at hthree
    exact ⟨grammar, recognizer, ⟨['x'], by decide⟩, rfl, hgrammar, hmake, hthree⟩

end BottomUp
end PhraseStructure
