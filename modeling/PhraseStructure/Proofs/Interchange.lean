import PhraseStructure.Proofs.Chart.Comparison
import PhraseStructure.Proofs.Chart.Recognition
import PhraseStructure.Proofs.Grammar.Sameness
import PhraseStructure.Proofs.TopDown.Recognition

/-!
# Same grammars are interchangeable

Nothing that is asked of a grammar depends on the order of its rules and alternatives.  The
shapes of rules do not see it, and all else is decided by statements about productions,
which same grammars share: a token is nullable, a mark is made in a chart, and a form
matches an input exactly if some derivation exists.  On the way there the order matters.  It
decides in which pass a nullable token or a mark is found and which goals the search comes
across.

Recognizers of same grammars are not equal, and neither are the texts of same grammars.
-/

namespace PhraseStructure

/-! ### Shapes -/

namespace Rule

variable {left right : Rule} {sorts : SortTable}

theorem isMonotonic_eq_of_sameAs (h : left.sameAs right = true) :
    left.isMonotonic = right.isMonotonic := by
  rw [isMonotonic, isMonotonic, (sameAs_iff.mp h).1, (perm_of_sameAs h).all_eq]

theorem hasEpsilon_eq_of_sameAs (h : left.sameAs right = true) :
    left.hasEpsilon = right.hasEpsilon := by
  rw [hasEpsilon, hasEpsilon, (perm_of_sameAs h).any_eq]

theorem isContextFree_eq_of_sameAs (h : left.sameAs right = true) :
    left.isContextFree sorts = right.isContextFree sorts := by
  rw [isContextFree, isContextFree, (sameAs_iff.mp h).1]

theorem isLeftRegular_eq_of_sameAs (h : left.sameAs right = true) :
    left.isLeftRegular sorts = right.isLeftRegular sorts := by
  rw [isLeftRegular, isLeftRegular, isContextFree_eq_of_sameAs h, (perm_of_sameAs h).all_eq]

theorem isRightRegular_eq_of_sameAs (h : left.sameAs right = true) :
    left.isRightRegular sorts = right.isRightRegular sorts := by
  rw [isRightRegular, isRightRegular, isContextFree_eq_of_sameAs h, (perm_of_sameAs h).all_eq]

theorem isContextSensitive_eq_of_sameAs (h : left.sameAs right = true) :
    left.isContextSensitive sorts = right.isContextSensitive sorts := by
  rw [isContextSensitive, isContextSensitive, isMonotonic_eq_of_sameAs h, (sameAs_iff.mp h).1,
    (perm_of_sameAs h).all_eq]

end Rule

namespace Grammar

variable {left right : Grammar}

theorem isContextFree_eq_of_sameAs (h : left.sameAs right = true) :
    left.isContextFree = right.isContextFree := by
  rw [isContextFree, isContextFree, (sameAs_iff.mp h).2.1]
  exact all_rules_eq_of_sameAs h fun _ _ => Rule.isContextFree_eq_of_sameAs

theorem isContextSensitive_eq_of_sameAs (h : left.sameAs right = true) :
    left.isContextSensitive = right.isContextSensitive := by
  rw [isContextSensitive, isContextSensitive, (sameAs_iff.mp h).2.1]
  exact all_rules_eq_of_sameAs h fun _ _ => Rule.isContextSensitive_eq_of_sameAs

theorem isLeftRegular_eq_of_sameAs (h : left.sameAs right = true) :
    left.isLeftRegular = right.isLeftRegular := by
  rw [isLeftRegular, isLeftRegular, (sameAs_iff.mp h).2.1]
  exact all_rules_eq_of_sameAs h fun _ _ => Rule.isLeftRegular_eq_of_sameAs

theorem isRightRegular_eq_of_sameAs (h : left.sameAs right = true) :
    left.isRightRegular = right.isRightRegular := by
  rw [isRightRegular, isRightRegular, (sameAs_iff.mp h).2.1]
  exact all_rules_eq_of_sameAs h fun _ _ => Rule.isRightRegular_eq_of_sameAs

theorem isMonotonic_eq_of_sameAs (h : left.sameAs right = true) :
    left.isMonotonic = right.isMonotonic :=
  all_rules_eq_of_sameAs h fun _ _ => Rule.isMonotonic_eq_of_sameAs

theorem hasEpsilon_eq_of_sameAs (h : left.sameAs right = true) :
    left.hasEpsilon = right.hasEpsilon :=
  any_rules_eq_of_sameAs h fun _ _ => Rule.hasEpsilon_eq_of_sameAs

theorem kind_eq_of_sameAs (h : left.sameAs right = true) : left.kind = right.kind := by
  rw [kind, kind, isLeftRegular_eq_of_sameAs h, isRightRegular_eq_of_sameAs h,
    isContextFree_eq_of_sameAs h, isContextSensitive_eq_of_sameAs h]

theorem isTerminal_eq_of_sameAs (h : left.sameAs right = true) :
    left.isTerminal = right.isTerminal := by
  funext token
  rw [isTerminal, isTerminal, (sameAs_iff.mp h).2.1]

theorem isNonTerminal_eq_of_sameAs (h : left.sameAs right = true) :
    left.isNonTerminal = right.isNonTerminal := by
  funext token
  rw [isNonTerminal, isNonTerminal, (sameAs_iff.mp h).2.1]

/-! ### Derivations -/

/-- Same grammars have the same context-free productions. -/
theorem contextFreeProduction_iff_of_sameAs (h : left.sameAs right = true)
    {lhs alternative : Phrase} :
    left.ContextFreeProduction lhs alternative ↔ right.ContextFreeProduction lhs alternative := by
  have hone : ∀ left right : Grammar, left.sameAs right = true →
      left.ContextFreeProduction lhs alternative →
        right.ContextFreeProduction lhs alternative := by
    rintro left right h ⟨rule, hrule, rfl, halternative⟩
    obtain ⟨hmem, htoken⟩ := mem_contextFreeRules.mp hrule
    obtain ⟨other, hother, hsame⟩ := exists_sameAs_of_mem h hmem
    obtain ⟨hlhs, halternatives⟩ := Rule.sameAs_iff.mp hsame
    rw [hlhs, isNonTerminal_eq_of_sameAs h] at htoken
    exact ⟨other, mem_contextFreeRules.mpr ⟨hother, htoken⟩, hlhs.symm,
      (halternatives alternative).mp halternative⟩
  exact ⟨hone left right h, hone right left (sameAs_symm h)⟩

/-- Same grammars have the same words. -/
theorem isWord_iff_of_sameAs (h : left.sameAs right = true) {word : Phrase} :
    left.IsWord word ↔ right.IsWord word := by
  rw [IsWord, IsWord, isTerminal_eq_of_sameAs h]

theorem generates_iff_of_sameAs (h : left.sameAs right = true) {form word : Phrase} :
    left.Generates form word ↔ right.Generates form word := by
  have hproductions : left.ContextFreeProduction = right.ContextFreeProduction := by
    funext lhs alternative
    exact propext (contextFreeProduction_iff_of_sameAs h)
  rw [Generates, Generates, isWord_iff_of_sameAs h, hproductions]

theorem generatesWithoutEpsilon_iff_of_sameAs (h : left.sameAs right = true)
    {form word : Phrase} :
    left.GeneratesWithoutEpsilon form word ↔ right.GeneratesWithoutEpsilon form word := by
  have hproductions : left.EpsilonFreeProduction = right.EpsilonFreeProduction := by
    funext lhs alternative
    rw [EpsilonFreeProduction, EpsilonFreeProduction, contextFreeProduction_iff_of_sameAs h]
  rw [GeneratesWithoutEpsilon, GeneratesWithoutEpsilon, isWord_iff_of_sameAs h, hproductions]

/-- Same grammars have the same nullable tokens, which are listed in ascending order. -/
theorem nullable_eq_of_sameAs (h : left.sameAs right = true) : left.nullable = right.nullable := by
  refine eq_of_mem_iff_of_ascending left.pairwise_nullable right.pairwise_nullable ?_
  intro token
  rw [mem_nullable_iff_generates, mem_nullable_iff_generates, generates_iff_of_sameAs h]

end Grammar

/-! ### Bottom-up recognition -/

namespace BottomUp

theorem make_of_sameAs {left right : Grammar} (h : left.sameAs right = true) :
    (∃ refusal, make left = .error refusal ∧ make right = .error refusal) ∨
      ∃ recognizer other, make left = .ok recognizer ∧ make right = .ok other := by
  have hkind := Grammar.kind_eq_of_sameAs h
  by_cases hrank : left.kind.rank < Kind.contextFree.rank
  · refine .inl ⟨⟨left.kind⟩, if_pos hrank, ?_⟩
    rw [hkind] at hrank ⊢
    exact if_pos hrank
  · have hrank' : ¬ right.kind.rank < Kind.contextFree.rank := hkind ▸ hrank
    exact .inr ⟨_, _, if_neg hrank, if_neg hrank'⟩

/-- Recognizers of same grammars fill equal charts. -/
theorem exists_chart_of_sameAs {recognizer other : BottomUp} (hmade : recognizer.Made)
    (hmade' : other.Made) (h : recognizer.grammar.sameAs other.grammar = true) (input : Phrase) :
    ∃ chart, recognizer.chart input = .ok chart ∧ other.chart input = .ok chart ∧
      chart.WellFormed := by
  obtain ⟨chart, hchart, hsound, hcomplete⟩ := chart_spec hmade input
  obtain ⟨chart', hchart', hsound', hcomplete'⟩ := chart_spec hmade' input
  have hnames : chart.names = chart'.names := by
    rw [hsound.names_eq, hsound'.names_eq, (Grammar.sameAs_iff.mp h).2.1]
  have hsize : chart.size = chart'.size := hsound.size_eq.trans hsound'.size_eq.symm
  have heq : chart = chart' := by
    refine hsound.wellFormed.ext hsound'.wellFormed hsize hnames ?_
    intro length start number hinside
    rw [hsound.size_eq] at hinside
    rw [Bool.eq_iff_iff]
    -- A number stands for the same non-terminal in both charts, and whether it is marked is
    -- decided by the derivations from that non-terminal.
    cases hnumber : chart.names[number]? with
    | some token =>
        have hnumber' : chart'.names[number]? = some token := hnames ▸ hnumber
        rw [← Chart.knows_iff_has hsound.nodup hnumber, ← Chart.knows_iff_has hsound'.nodup hnumber',
          knows_iff_generates hsound (hcomplete length start hinside),
          knows_iff_generates hsound' (hcomplete' length start hinside),
          Grammar.isNonTerminal_eq_of_sameAs h, Grammar.generates_iff_of_sameAs h]
    | none =>
        have hbeyond : chart.names.length ≤ number := List.getElem?_eq_none_iff.mp hnumber
        have hbeyond' : chart'.names.length ≤ number := hnames ▸ hbeyond
        constructor
        · intro hhas
          exact absurd (hsound.wellFormed.lt_of_has hhas) (Nat.not_lt.mpr hbeyond)
        · intro hhas
          exact absurd (hsound'.wellFormed.lt_of_has hhas) (Nat.not_lt.mpr hbeyond')
  subst heq
  exact ⟨chart, hchart, hchart', hsound.wellFormed⟩

theorem exists_recognizes_of_sameAs {recognizer other : BottomUp} (hmade : recognizer.Made)
    (hmade' : other.Made) (h : recognizer.grammar.sameAs other.grammar = true) (input : Phrase) :
    ∃ verdict, recognizer.recognizes input = .ok verdict ∧
      other.recognizes input = .ok verdict := by
  refine (recognizes_decides hmade input).exists_common ((recognizes_decides hmade' input).congr ?_)
  rw [Grammar.isNonTerminal_eq_of_sameAs h, Grammar.generates_iff_of_sameAs h,
    (Grammar.sameAs_iff.mp h).1]

end BottomUp

/-! ### Top-down recognition -/

namespace TopDown

variable {left right : Grammar}

theorem general_matchesForm_of_sameAs (h : left.sameAs right = true) (form input : Phrase) :
    ∃ verdict, (general left).matchesForm form input = .ok verdict ∧
      (general right).matchesForm form input = .ok verdict :=
  (general_matchesForm left form input).exists_common
    ((general_matchesForm right form input).congr (Grammar.generates_iff_of_sameAs h).symm)

theorem epsilonFree_matchesForm_of_sameAs (h : left.sameAs right = true) (form input : Phrase) :
    ∃ verdict, (epsilonFree left).matchesForm form input = .ok verdict ∧
      (epsilonFree right).matchesForm form input = .ok verdict :=
  (epsilonFree_matchesForm left form input).exists_common
    ((epsilonFree_matchesForm right form input).congr
      (Grammar.generatesWithoutEpsilon_iff_of_sameAs h).symm)

theorem general_matchesToken_of_sameAs (h : left.sameAs right = true) (token : Token)
    (input : Phrase) :
    ∃ verdict, (general left).matchesToken token input = .ok verdict ∧
      (general right).matchesToken token input = .ok verdict :=
  (general_matchesToken left token input).exists_common
    ((general_matchesToken right token input).congr (Grammar.generates_iff_of_sameAs h).symm)

theorem epsilonFree_matchesToken_of_sameAs (h : left.sameAs right = true) (token : Token)
    (input : Phrase) :
    ∃ verdict, (epsilonFree left).matchesToken token input = .ok verdict ∧
      (epsilonFree right).matchesToken token input = .ok verdict := by
  by_cases hinput : input = []
  · subst hinput
    exact (epsilonFree_matchesToken_nil left token).exists_common
      ((epsilonFree_matchesToken_nil right token).congr
        (Grammar.contextFreeProduction_iff_of_sameAs h).symm)
  · exact (epsilonFree_matchesToken left token hinput).exists_common
      ((epsilonFree_matchesToken right token hinput).congr
        (Grammar.generatesWithoutEpsilon_iff_of_sameAs h).symm)

/-- Both variants give the same verdict for same grammars, on every form and token. -/
theorem exists_verdicts_of_sameAs (h : left.sameAs right = true) {variant : Grammar → TopDown}
    (hvariant : variant ∈ [general, epsilonFree]) (input : Phrase) :
    (∀ form, ∃ verdict, (variant left).matchesForm form input = .ok verdict ∧
        (variant right).matchesForm form input = .ok verdict) ∧
      ∀ token, ∃ verdict, (variant left).matchesToken token input = .ok verdict ∧
        (variant right).matchesToken token input = .ok verdict := by
  rcases List.mem_pair.mp hvariant with rfl | rfl
  · exact ⟨fun form => general_matchesForm_of_sameAs h form input,
      fun token => general_matchesToken_of_sameAs h token input⟩
  · exact ⟨fun form => epsilonFree_matchesForm_of_sameAs h form input,
      fun token => epsilonFree_matchesToken_of_sameAs h token input⟩

/-- The start symbol of same grammars is the same. -/
theorem exists_recognizes_of_sameAs (h : left.sameAs right = true) {variant : Grammar → TopDown}
    (hvariant : variant ∈ [general, epsilonFree]) (input : Phrase) :
    ∃ verdict, (variant left).recognizes input = .ok verdict ∧
      (variant right).recognizes input = .ok verdict := by
  obtain ⟨verdict, hleft, hright⟩ :=
    (exists_verdicts_of_sameAs h hvariant input).1 [left.start]
  have hstart := (Grammar.sameAs_iff.mp h).1
  rcases List.mem_pair.mp hvariant with rfl | rfl
  · exact ⟨verdict, hleft, by rwa [hstart] at hright⟩
  · exact ⟨verdict, hleft, by rwa [hstart] at hright⟩

end TopDown

namespace Grammar

/-- Same grammars have the same kind, shapes, sorts and nullable tokens.  Either both are
refused by the bottom-up recognizer for the same reason, or on every input their charts are
equal and can be shown, and the verdicts agree.  Both variants of the top-down recognizer
give the same verdict for both grammars, on every form, every token and every input. -/
theorem sameAs_interchangeable {left right : Grammar} (h : left.sameAs right = true) :
    (left.kind = right.kind ∧ left.isContextFree = right.isContextFree ∧
        left.isContextSensitive = right.isContextSensitive ∧
        left.isLeftRegular = right.isLeftRegular ∧ left.isRightRegular = right.isRightRegular ∧
        left.isMonotonic = right.isMonotonic ∧ left.hasEpsilon = right.hasEpsilon ∧
        (∀ token, left.isTerminal token = right.isTerminal token) ∧
        ∀ token, left.isNonTerminal token = right.isNonTerminal token) ∧
      left.nullable = right.nullable ∧
      ((∃ refusal, BottomUp.make left = .error refusal ∧ BottomUp.make right = .error refusal) ∨
        ∃ recognizer other, BottomUp.make left = .ok recognizer ∧
          BottomUp.make right = .ok other ∧ ∀ input,
            (∃ chart text, recognizer.chart input = .ok chart ∧ other.chart input = .ok chart ∧
              chart.render = .ok text) ∧
            ∃ verdict, recognizer.recognizes input = .ok verdict ∧
              other.recognizes input = .ok verdict) ∧
      ∀ variant ∈ [TopDown.general, TopDown.epsilonFree], ∀ input,
        (∀ form, ∃ verdict, (variant left).matchesForm form input = .ok verdict ∧
          (variant right).matchesForm form input = .ok verdict) ∧
        (∀ token, ∃ verdict, (variant left).matchesToken token input = .ok verdict ∧
          (variant right).matchesToken token input = .ok verdict) ∧
        ∃ verdict, (variant left).recognizes input = .ok verdict ∧
          (variant right).recognizes input = .ok verdict := by
  refine ⟨⟨kind_eq_of_sameAs h, isContextFree_eq_of_sameAs h, isContextSensitive_eq_of_sameAs h,
    isLeftRegular_eq_of_sameAs h, isRightRegular_eq_of_sameAs h, isMonotonic_eq_of_sameAs h,
    hasEpsilon_eq_of_sameAs h, congrFun (isTerminal_eq_of_sameAs h),
    congrFun (isNonTerminal_eq_of_sameAs h)⟩, nullable_eq_of_sameAs h, ?_, ?_⟩
  · rcases BottomUp.make_of_sameAs h with hrefused | ⟨recognizer, other, hmake, hmake'⟩
    · exact .inl hrefused
    · refine .inr ⟨recognizer, other, hmake, hmake', fun input => ?_⟩
      obtain ⟨hmade, rfl⟩ := BottomUp.made_of_make hmake
      obtain ⟨hmade', rfl⟩ := BottomUp.made_of_make hmake'
      obtain ⟨chart, hchart, hchart', hwellFormed⟩ :=
        BottomUp.exists_chart_of_sameAs hmade hmade' h input
      obtain ⟨text, htext⟩ := hwellFormed.exists_render
      exact ⟨⟨chart, text, hchart, hchart', htext⟩,
        BottomUp.exists_recognizes_of_sameAs hmade hmade' h input⟩
  · intro variant hvariant input
    obtain ⟨hforms, htokens⟩ := TopDown.exists_verdicts_of_sameAs h hvariant input
    exact ⟨hforms, htokens, TopDown.exists_recognizes_of_sameAs h hvariant input⟩

/-- Rules and alternatives in different orders, with an empty alternative and a start symbol
that leads back to itself. -/
theorem sameAs_interchangeable_reordered :
    ∃ left right, ∃ a s : Token, a.text = ['a'] ∧ s.text = ['S'] ∧
      Grammar.ofTexts [['S'], ['A']] [['a']]
          [(['S'], [['S', ' ', 'A'], ['a']]), (['A'], [[], ['S']])] ['S'] = .ok left ∧
        Grammar.ofTexts [['A'], ['S']] [['a']]
          [(['A'], [['S'], []]), (['S'], [['a'], ['S', ' ', 'A']])] ['S'] = .ok right ∧
        left.rules ≠ right.rules ∧ left.sameAs right = true ∧ left.nullable = right.nullable ∧
        (∃ recognizer other chart text, BottomUp.make left = .ok recognizer ∧
          BottomUp.make right = .ok other ∧ recognizer.chart [a, a] = .ok chart ∧
          other.chart [a, a] = .ok chart ∧ chart.render = .ok text) ∧
        ∃ verdict, (TopDown.epsilonFree left).matchesToken s [] = .ok verdict ∧
          (TopDown.epsilonFree right).matchesToken s [] = .ok verdict := by
  obtain ⟨left, right, hleft, hright, hne, hsame, hkind⟩ : ∃ left right,
      Grammar.ofTexts [['S'], ['A']] [['a']]
          [(['S'], [['S', ' ', 'A'], ['a']]), (['A'], [[], ['S']])] ['S'] = .ok left ∧
        Grammar.ofTexts [['A'], ['S']] [['a']]
          [(['A'], [['S'], []]), (['S'], [['a'], ['S', ' ', 'A']])] ['S'] = .ok right ∧
        left.rules ≠ right.rules ∧ left.sameAs right = true ∧ left.isContextFree = true :=
    ⟨_, _, rfl, rfl, by decide, by decide, by decide⟩
  obtain ⟨_, hnullable, hbottomUp, htopDown⟩ := sameAs_interchangeable hsame
  refine ⟨left, right, ⟨['a'], by decide⟩, ⟨['S'], by decide⟩, rfl, rfl, hleft, hright, hne, hsame,
    hnullable, ?_, (htopDown _ (.tail _ (.head _)) []).2.1 _⟩
  rcases hbottomUp with ⟨refusal, hrefused, _⟩ | ⟨recognizer, other, hmake, hmake', hcharts⟩
  · have hrank := rank_contextFree_le_iff.mpr hkind
    rw [BottomUp.make, if_neg (Nat.not_lt.mpr hrank)] at hrefused
    cases hrefused
  · obtain ⟨⟨chart, text, hchart, hchart', htext⟩, _⟩ :=
      hcharts [⟨['a'], by decide⟩, ⟨['a'], by decide⟩]
    exact ⟨recognizer, other, chart, text, hmake, hmake', hchart, hchart', htext⟩

end Grammar
end PhraseStructure
