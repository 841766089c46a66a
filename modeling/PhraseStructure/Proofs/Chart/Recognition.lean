import PhraseStructure.Proofs.Chart.Filling

/-!
# Bottom-up recognition decides derivability

Made for a context-free grammar, the recognizer fills the chart of every input without a
fault, and afterwards a cell holds exactly the non-terminals that derive its part of the
input.  Row 0 is the same at every position.

The input may hold non-terminals and unclassified tokens.  No cell over such a token has
a mark, because a part with such a token is no word.  A start symbol that is a terminal
has no number, so then no input is recognized, not even the start symbol itself.
-/

namespace PhraseStructure
namespace BottomUp

variable {recognizer : BottomUp} {input : Phrase} {chart : Chart} {length start : Nat}

/-- All rules are context-free, so generating is deriving a word by any rules. -/
theorem Made.generates_iff_derives (hmade : recognizer.Made) {form word : Phrase} :
    recognizer.grammar.Generates form word ↔
      recognizer.grammar.IsWord word ∧ Derives recognizer.grammar.Production form word := by
  constructor
  · rintro ⟨hword, hderives⟩
    exact ⟨hword, hderives.mono fun _ _ => hmade.contextFreeProduction_iff.mp⟩
  · rintro ⟨hword, hderives⟩
    exact ⟨hword, hderives.mono fun _ _ => hmade.contextFreeProduction_iff.mpr⟩

/-- In a sound chart the marks of a complete cell are the non-terminals that generate the
part of the cell. -/
theorem knows_iff_generates {grammar : Grammar} (hsound : chart.Sound grammar input)
    (hcomplete : chart.CompleteAt grammar input length start) {token : Token} :
    chart.Knows length start token ↔
      grammar.isNonTerminal token = true ∧
        grammar.Generates [token] (input.span start (start + length)) := by
  rw [Grammar.generates_iff]
  constructor
  · intro hknows
    exact ⟨hsound.mem_names.mp hknows.mem, hsound.yields _ _ _ hknows⟩
  · rintro ⟨hnonTerminal, height, hyields⟩
    exact hcomplete height token hyields hnonTerminal

theorem contains_decides (hsound : chart.Sound recognizer.grammar input)
    (h : start + length ≤ input.length)
    (hcomplete : chart.CompleteAt recognizer.grammar input length start) (token : Token) :
    Decides (chart.contains length start token)
      (recognizer.grammar.isNonTerminal token = true ∧
        recognizer.grammar.Generates [token] (input.span start (start + length))) := by
  have hcontains := hsound.wellFormed.contains_decides hsound.nodup (hsound.size_eq.symm ▸ h) token
  exact hcontains.congr (knows_iff_generates hsound hcomplete)

/-- The start symbol has to be a non-terminal. -/
theorem recognizes_decides (hmade : recognizer.Made) (input : Phrase) :
    Decides (recognizer.recognizes input)
      (recognizer.grammar.isNonTerminal recognizer.grammar.start = true ∧
        recognizer.grammar.Generates [recognizer.grammar.start] input) := by
  obtain ⟨chart, hchart, hsound, hcomplete⟩ := chart_spec hmade input
  have hinside : 0 + input.length ≤ input.length := Nat.le_of_eq (Nat.zero_add _)
  have hcontains := contains_decides hsound hinside (hcomplete _ _ hinside)
    recognizer.grammar.start
  rw [Nat.zero_add, Phrase.span_zero_length] at hcontains
  have hrecognizes : recognizer.recognizes input =
      chart.contains input.length 0 recognizer.grammar.start := by
    rw [recognizes, hchart]
    rfl
  rwa [hrecognizes]

/-- A mark of row 0 at one position is there at every position. -/
theorem has_zero_of_has (hsound : chart.Sound recognizer.grammar input) {start' number : Nat}
    (hcomplete : chart.CompleteAt recognizer.grammar input 0 start')
    (hhas : chart.has 0 start number = true) : chart.has 0 start' number = true := by
  have hnumber := List.getElem?_eq_getElem (hsound.wellFormed.lt_of_has hhas)
  have hknows := (Chart.knows_iff_has hsound.nodup hnumber).mpr hhas
  obtain ⟨height, hyields⟩ := hsound.yields _ _ _ hknows
  rw [Nat.add_zero, Phrase.span_self] at hyields
  apply (Chart.knows_iff_has hsound.nodup hnumber).mp
  exact knowsUpTo_zero_iff.mp (hcomplete height) _ hyields (hsound.mem_names.mp hknows.mem)

/-- Row 0 of a sound chart with complete cells is the same everywhere. -/
theorem exists_namesAt_zero (hsound : chart.Sound recognizer.grammar input)
    (hcomplete : ∀ start, start ≤ input.length →
      chart.CompleteAt recognizer.grammar input 0 start) :
    ∃ names, ∀ start, start ≤ input.length → chart.namesAt 0 start = .ok names := by
  have hsize := hsound.size_eq
  have hsame : ∀ start, start ≤ input.length → ∃ names,
      chart.namesAt 0 start = .ok names ∧ chart.namesAt 0 0 = .ok names := by
    intro start hstart
    apply hsound.wellFormed.namesAt_congr (by omega) (by omega)
    intro number
    rw [Bool.eq_iff_iff]
    exact ⟨has_zero_of_has hsound (hcomplete 0 (Nat.zero_le _)),
      has_zero_of_has hsound (hcomplete start hstart)⟩
  obtain ⟨names, hnames, _⟩ := hsame 0 (Nat.zero_le _)
  refine ⟨names, ?_⟩
  intro start hstart
  obtain ⟨names', hnames', hzero⟩ := hsame start hstart
  rw [hnames', ← hzero, hnames]

/-- The chart of every input holds in each of its cells exactly the non-terminals that
derive the part of the cell, row 0 is the same at every position, and the input is
recognized exactly if the start symbol is a non-terminal that derives it. -/
theorem chart_decides_derives {grammar : Grammar} (h : make grammar = .ok recognizer)
    (input : Phrase) :
    (∃ chart, recognizer.chart input = .ok chart ∧
        (∀ length start token, length ≤ input.length → start ≤ input.length - length →
          Decides (chart.contains length start token)
            (grammar.isNonTerminal token = true ∧
              grammar.IsWord (input.span start (start + length)) ∧
              Derives grammar.Production [token] (input.span start (start + length)))) ∧
        ∃ names, ∀ start, start ≤ input.length → chart.namesAt 0 start = .ok names) ∧
      Decides (recognizer.recognizes input)
        (grammar.isNonTerminal grammar.start = true ∧ grammar.IsWord input ∧
          Derives grammar.Production [grammar.start] input) := by
  obtain ⟨hmade, rfl⟩ := made_of_make h
  obtain ⟨chart, hchart, hsound, hcomplete⟩ := chart_spec hmade input
  refine ⟨⟨chart, hchart, ?_, ?_⟩, ?_⟩
  · intro length start token hlength hstart
    have hinside : start + length ≤ input.length := by omega
    rw [← hmade.generates_iff_derives]
    exact contains_decides hsound hinside (hcomplete length start hinside) token
  · exact exists_namesAt_zero hsound fun start hstart => hcomplete 0 start hstart
  · rw [← hmade.generates_iff_derives]
    exact recognizes_decides hmade input

/-- A start symbol that leads back to itself beside a nullable non-terminal. -/
theorem chart_decides_derives_cyclic :
    ∃ grammar recognizer chart, ∃ a s : Token, a.text = ['a'] ∧ s.text = ['S'] ∧
      Grammar.ofTexts [['S'], ['A']] [['a']]
          [(['S'], [['S', ' ', 'A'], ['a']]), (['A'], [[], ['S']])] ['S'] = .ok grammar ∧
        make grammar = .ok recognizer ∧ recognizer.chart [a, a] = .ok chart ∧
        Decides (chart.contains 1 1 s)
          (grammar.isNonTerminal s = true ∧ grammar.IsWord [a] ∧
            Derives grammar.Production [s] [a]) ∧
        Decides (recognizer.recognizes [a, a])
          (grammar.isNonTerminal grammar.start = true ∧ grammar.IsWord [a, a] ∧
            Derives grammar.Production [grammar.start] [a, a]) := by
  obtain ⟨grammar, recognizer, hgrammar, hmake⟩ : ∃ grammar recognizer,
      Grammar.ofTexts [['S'], ['A']] [['a']]
          [(['S'], [['S', ' ', 'A'], ['a']]), (['A'], [[], ['S']])] ['S'] = .ok grammar ∧
        make grammar = .ok recognizer := ⟨_, _, rfl, rfl⟩
  obtain ⟨⟨chart, hchart, hcells, _⟩, hrecognizes⟩ :=
    chart_decides_derives hmake [⟨['a'], by decide⟩, ⟨['a'], by decide⟩]
  exact ⟨grammar, recognizer, chart, ⟨['a'], by decide⟩, ⟨['S'], by decide⟩, rfl, rfl, hgrammar,
    hmake, hchart, hcells 1 1 _ (by decide) (by decide), hrecognizes⟩

end BottomUp
end PhraseStructure
