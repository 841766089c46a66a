import PhraseStructure.Proofs.Chart.Recognition
import PhraseStructure.Proofs.TopDown.Recognition
import PhraseStructure.Proofs.Words

/-!
# Recognition is free of faults

No recognition meets a fault: no part of an input is asked for that does not exist, no
divider list fails to cut, no cell or number of a chart is missing, no sequence is split that
has no splits, no cell takes too many passes, and goals do not nest too deeply.  What is not
checked where it is used was made sure of before.  The split of a form follows the rejection
of forms that are too long, the split of an alternative follows the exclusion of empty ones,
and a divider list is advanced after a look for its pivot.

The computations can be done in machine words.  For a chart twice the number of its cells has
to be a word, and that is a condition on the input; top-down recognition has none.  How much
memory there is and how long a recognition takes are not spoken of here.
-/

namespace PhraseStructure

/-! ### Splits -/

namespace Splits

variable {α : Type _} {splits rest last : Splits α}

/-- What is left of splits after some of them were given. -/
inductive Later : Splits α → Splits α → Prop
  | refl (splits : Splits α) : Later splits splits
  | next {splits rest last : Splits α} {groups : List (List α)}
      (h : splits.next? = .ok (some (groups, rest))) (later : Later rest last) :
      Later splits last

/-- The divider list, if there is one, cuts the sequence. -/
structure Cutting (splits : Splits α) : Prop where
  maximum_le : splits.maximum ≤ splits.elements.length
  valid : ∀ dividers, splits.dividers = some dividers →
    Dividers.Valid splits.maximum splits.allowEmpty 0 dividers

theorem cutting_all {elements : List α} {groups : Nat} {allowEmpty : Bool}
    (h : refusal? elements.length groups allowEmpty = none) :
    (all elements groups allowEmpty).Cutting := by
  refine ⟨Dividers.greatest_le elements.length allowEmpty, ?_⟩
  intro dividers hdividers
  cases hdividers
  exact valid_first h

/-- A cutting list gives a split, if there is one left, and cutting lists after it. -/
theorem Cutting.next (h : splits.Cutting) :
    splits.next? = .ok none ∨
      ∃ groups rest, splits.next? = .ok (some (groups, rest)) ∧ rest.Cutting ∧
        rest.elements = splits.elements := by
  obtain ⟨elements, dividers, maximum, allowEmpty⟩ := splits
  cases dividers with
  | none => exact .inl (next?_none ..)
  | some dividers =>
      have hvalid := h.valid dividers rfl
      obtain ⟨groups, hcut⟩ := Dividers.exists_cutFrom elements h.maximum_le hvalid
      refine .inr ⟨groups, _, next?_some maximum allowEmpty hcut, ⟨h.maximum_le, ?_⟩, rfl⟩
      intro later hlater
      exact Dividers.valid_advance? hvalid hlater

theorem Cutting.later (h : splits.Cutting) (hlater : Later splits last) :
    last.Cutting ∧ last.elements = splits.elements := by
  induction hlater with
  | refl => exact ⟨h, rfl⟩
  | next hnext _ ih =>
      rcases h.next with hnone | ⟨groups, rest, hsome, hrest, helements⟩
      · rw [hnone] at hnext
        cases hnext
      · rw [hsome] at hnext
        cases hnext
        obtain ⟨hlast, helements'⟩ := ih hrest
        exact ⟨hlast, helements'.trans helements⟩

/-- Whoever trusts that there are splits is not refused. -/
theorem of_trusted {elements : List α} {groups : Nat} {allowEmpty : Bool}
    (h : trusted elements groups allowEmpty = .ok splits) :
    refusal? elements.length groups allowEmpty = none ∧ all elements groups allowEmpty = splits := by
  cases hrefusal : refusal? elements.length groups allowEmpty with
  | some error =>
      simp only [trusted, hrefusal] at h
      cases h
  | none =>
      rw [trusted_eq_all hrefusal] at h
      exact ⟨rfl, Except.ok.inj h⟩

/-- From all splits on, every step can be made, and made in words. -/
theorem exists_next?_of_later {elements : List α} {groups : Nat} {allowEmpty : Bool}
    (hwords : elements.length < wordLimit)
    (h : refusal? elements.length groups allowEmpty = none)
    (hlater : Later (all elements groups allowEmpty) last) :
    ∃ outcome, last.next? = .ok outcome ∧ last.nextInWords = .ok outcome := by
  obtain ⟨hcutting, helements⟩ := (cutting_all h).later hlater
  have hmaximum : last.maximum < wordLimit := by
    have hle := hcutting.maximum_le
    rw [helements] at hle
    exact Nat.lt_of_le_of_lt hle hwords
  rw [nextInWords_eq hmaximum]
  rcases hcutting.next with hnone | ⟨groups, rest, hsome, _⟩
  · exact ⟨_, hnone, hnone⟩
  · exact ⟨_, hsome, hsome⟩

end Splits

/-! ### Top-down recognition -/

namespace TopDown

variable {recognizer : TopDown}

theorem exists_matchesForm (hknows : recognizer.KnowsNullable) (form input : Phrase) :
    ∃ verdict, recognizer.matchesForm form input = .ok verdict := by
  obtain ⟨verdict, hverdict, _⟩ := matchesForm_decides hknows form input
  exact ⟨verdict, hverdict⟩

/-- A token is settled also on the empty input, which the ε-free variant meets nowhere
else. -/
theorem exists_matchesToken (hknows : recognizer.KnowsNullable) (token : Token)
    (input : Phrase) : ∃ verdict, recognizer.matchesToken token input = .ok verdict := by
  obtain ⟨verdict, hrun, _⟩ :=
    settlesTokens_nil hknows input token 0 input.length (Nat.zero_le _) (Nat.le_refl _)
  exact ⟨verdict, matchesToken_of_run hrun⟩

end TopDown

/-! ### Bottom-up recognition -/

namespace BottomUp

variable {recognizer : BottomUp} {input : Phrase} {chart : Chart} {length start : Nat}

/-- A pass over a complete cell adds nothing. -/
theorem fillPass_of_complete (hmade : recognizer.Made)
    (hsound : chart.Sound recognizer.grammar input) (h : start + length ≤ input.length)
    (hcomplete : chart.CompleteAt recognizer.grammar input length start) :
    recognizer.fillPass input length start chart = .ok (chart, false) := by
  obtain ⟨chart', changed, hpass, hsound', _, hcases⟩ :=
    foldlM_fillRule_spec hmade h (fun _ hmem => hmem) hsound false
  rcases hcases with ⟨rfl, rfl, _⟩ | ⟨_, numberedRule, hmem, hbefore, hafter⟩
  · exact hpass
  · -- A new mark would be right, and the complete cell has all marks that are right.
    obtain ⟨token, rule, hstands⟩ := hmade.exists_standsFor hmem
    have hnumber : chart.names[numberedRule.lhs]? = some token := by
      rw [hsound.names_eq, ← hmade.names_eq]
      exact hstands.number
    have hnumber' : chart'.names[numberedRule.lhs]? = some token := by
      rw [hsound'.names_eq, ← hmade.names_eq]
      exact hstands.number
    have hknows' := (Chart.knows_iff_has hsound'.nodup hnumber').mpr hafter
    obtain ⟨height, hyields⟩ := hsound'.yields _ _ _ hknows'
    have hknows := hcomplete height token hyields (hsound'.mem_names.mp hknows'.mem)
    rw [(Chart.knows_iff_has hsound.nodup hnumber).mp hknows] at hbefore
    cases hbefore

end BottomUp

namespace Grammar

/-- Recognition is free of faults.

* A left-hand phrase has a first token.
* Both variants of the top-down recognizer give a verdict on every form, every token and
  every input, and where they split a part for a form, the part has such splits.
* If the grammar has a bottom-up recognizer, every rule of it has a named left-hand side.  If
  besides twice the number of cells is a word, the chart is filled and gives a verdict, a
  further pass over any of its cells adds nothing, and its places can be computed in words.
* From trusted splits on, every step gives the next split or says that there is none, and it
  can be made in words. -/
theorem recognition_free_of_faults (grammar : Grammar) :
    (∀ rule ∈ grammar.rules, ∃ token rest, rule.lhs = token :: rest) ∧
      (∀ variant ∈ [TopDown.general, TopDown.epsilonFree],
        (∀ form part, form ≠ [] → (variant grammar).rejects form part = false →
          Splits.refusal? part.length form.length (variant grammar).allowEmpty = none) ∧
        ∀ input,
          (∀ form, ∃ verdict, (variant grammar).matchesForm form input = .ok verdict) ∧
          (∀ token, ∃ verdict, (variant grammar).matchesToken token input = .ok verdict) ∧
          ∃ verdict, (variant grammar).recognizes input = .ok verdict) ∧
      (∀ recognizer input, BottomUp.make grammar = .ok recognizer →
        (input.length + 1) * (input.length + 2) < Splits.wordLimit →
          (∀ rule ∈ recognizer.rules, ∃ token, recognizer.names[rule.lhs]? = some token) ∧
          (∃ chart, recognizer.chart input = .ok chart ∧
            ∀ length start, start + length ≤ input.length →
              recognizer.fillPass input length start chart = .ok (chart, false)) ∧
          (∃ verdict, recognizer.recognizes input = .ok verdict) ∧
          Chart.cellCountInWords? input.length = some (Chart.cellCount input.length) ∧
          ∀ length start, start + length ≤ input.length →
            Chart.placeInWords? input.length length start =
              Chart.place? input.length length start) ∧
      ∀ (part : Phrase) (groups : Nat) (allowEmpty : Bool) (splits : Splits Token),
        part.length < Splits.wordLimit → Splits.trusted part groups allowEmpty = .ok splits →
          Splits.allInWords? part groups allowEmpty = some splits ∧
          ∀ later, splits.Later later →
            ∃ outcome, later.next? = .ok outcome ∧ later.nextInWords = .ok outcome := by
  refine ⟨?_, ?_, ?_, ?_⟩
  · exact fun rule _ => List.exists_cons_of_ne_nil rule.lhs_ne_nil
  · intro variant hvariant
    have hknows := TopDown.knowsNullable_of_mem hvariant grammar
    refine ⟨fun form part => TopDown.refusal?_eq_none, fun input => ⟨?_, ?_, ?_⟩⟩
    · exact fun form => TopDown.exists_matchesForm hknows form input
    · exact fun token => TopDown.exists_matchesToken hknows token input
    · exact TopDown.exists_matchesForm hknows _ input
  · intro recognizer input hmake hwords
    obtain ⟨hmade, rfl⟩ := BottomUp.made_of_make hmake
    obtain ⟨chart, hchart, hsound, hcomplete⟩ := BottomUp.chart_spec hmade input
    obtain ⟨verdict, hverdict, _⟩ := BottomUp.recognizes_decides hmade input
    refine ⟨?_, ⟨chart, hchart, ?_⟩, ⟨verdict, hverdict⟩, Chart.cellCountInWords?_eq hwords, ?_⟩
    · intro rule hrule
      obtain ⟨token, _, hstands⟩ := hmade.exists_standsFor hrule
      exact ⟨token, hstands.number⟩
    · intro length start hinside
      exact BottomUp.fillPass_of_complete hmade hsound hinside (hcomplete length start hinside)
    · exact fun length start => Chart.placeInWords?_eq hwords
  · intro part groups allowEmpty splits hwords htrusted
    obtain ⟨hrefusal, rfl⟩ := Splits.of_trusted htrusted
    exact ⟨Splits.allInWords?_eq hrefusal,
      fun later => Splits.exists_next?_of_later hwords hrefusal⟩

/-- A start symbol that leads back to itself beside a nullable non-terminal, and the splits of
two tokens into two groups. -/
theorem recognition_free_of_faults_cyclic :
    ∃ grammar recognizer chart, ∃ a s : Token, a.text = ['a'] ∧ s.text = ['S'] ∧
      Grammar.ofTexts [['S'], ['A']] [['a']]
          [(['S'], [['S', ' ', 'A'], ['a']]), (['A'], [[], ['S']])] ['S'] = .ok grammar ∧
        (∃ verdict, (TopDown.epsilonFree grammar).matchesToken s [] = .ok verdict) ∧
        Splits.refusal? 2 2 false = none ∧
        BottomUp.make grammar = .ok recognizer ∧ recognizer.chart [a, a] = .ok chart ∧
        recognizer.fillPass [a, a] 2 0 chart = .ok (chart, false) ∧
        Chart.placeInWords? 2 1 1 = Chart.place? 2 1 1 ∧
        ∃ splits outcome, Splits.trusted [a, a] 2 false = .ok splits ∧
          splits.next? = .ok outcome ∧ splits.nextInWords = .ok outcome := by
  obtain ⟨grammar, recognizer, hgrammar, hmake, hrejects⟩ : ∃ grammar recognizer,
      Grammar.ofTexts [['S'], ['A']] [['a']]
          [(['S'], [['S', ' ', 'A'], ['a']]), (['A'], [[], ['S']])] ['S'] = .ok grammar ∧
        BottomUp.make grammar = .ok recognizer ∧
        (TopDown.epsilonFree grammar).rejects [⟨['S'], by decide⟩, ⟨['S'], by decide⟩]
          [⟨['a'], by decide⟩, ⟨['a'], by decide⟩] = false := ⟨_, _, rfl, rfl, by decide⟩
  obtain ⟨_, htopDown, hbottomUp, hsplits⟩ := recognition_free_of_faults grammar
  obtain ⟨hrefusal, hverdicts⟩ := htopDown TopDown.epsilonFree (.tail _ (.head _))
  obtain ⟨_, ⟨chart, hchart, hpass⟩, _, _, hplace⟩ :=
    hbottomUp recognizer [⟨['a'], by decide⟩, ⟨['a'], by decide⟩] hmake (by decide)
  obtain ⟨_, hnext⟩ := hsplits [⟨['a'], by decide⟩, ⟨['a'], by decide⟩] 2 false _ (by decide) rfl
  obtain ⟨outcome, houtcome, hwords⟩ := hnext _ (.refl _)
  exact ⟨grammar, recognizer, chart, ⟨['a'], by decide⟩, ⟨['S'], by decide⟩, rfl, rfl, hgrammar,
    (hverdicts []).2.1 _, hrefusal _ _ (List.cons_ne_nil _ _) hrejects, hmake, hchart,
    hpass 2 0 (by decide), hplace 1 1 (by decide), _, outcome, rfl, houtcome, hwords⟩

end Grammar
end PhraseStructure
