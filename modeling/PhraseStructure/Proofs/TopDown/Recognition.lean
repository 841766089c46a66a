import PhraseStructure.Proofs.TopDown.Search

/-!
# Top-down recognition decides derivability

Started without active goals, the search settles every form and every token: it ends
without a fault, and it accepts exactly the words that the form derives by the rules
whose left-hand phrase is a single non-terminal.  This holds for every grammar, with
ε productions, with rules that lead back to themselves, and with rules of other shapes,
which are not used.

The ε-free variant decides the same without ε productions, on grammars that have some
too.  There it may reject what the general variant accepts, never the other way.

Tokens of the form or of the input need not be classified.  Such a token derives
only itself and is no terminal, so no word comes from it.
-/

namespace PhraseStructure
namespace TopDown

variable {recognizer : TopDown}

/-- The depth bound is enough, whatever goals are active. -/
theorem length_openGoals_lt_depthBound (recognizer : TopDown) (input : Phrase)
    (active : List Goal) :
    (recognizer.openGoals input active).length < recognizer.depthBound input := by
  have hle := recognizer.length_openGoals_le input active
  rw [length_goals] at hle
  exact Nat.lt_succ_of_le hle

/-- Without active goals every yield is due. -/
theorem due_nil {input form part : Phrase} :
    recognizer.Due input [] form part ↔
      ∃ height, Yields recognizer.grammar recognizer.allowEmpty height form part := by
  constructor
  · rintro ⟨height, hyields, _⟩
    exact ⟨height, hyields⟩
  · rintro ⟨height, hyields⟩
    exact ⟨height, hyields, by simp⟩

theorem settlesTokens_nil (hknows : recognizer.KnowsNullable) (input : Phrase) :
    SettlesTokens input (recognizer.matchToken input (recognizer.depthBound input)) []
      recognizer.Possible fun token part => recognizer.Due input [] [token] part :=
  matchToken_answers hknows (recognizer.length_openGoals_lt_depthBound input [])

/-- A form matches exactly what it yields. -/
theorem matchesForm_decides (hknows : recognizer.KnowsNullable) (form input : Phrase) :
    Decides (recognizer.matchesForm form input)
      (∃ height, Yields recognizer.grammar recognizer.allowEmpty height form input) := by
  obtain ⟨verdict, hrun, hsound, hcomplete⟩ :=
    matchForm_answers form hknows (settlesTokens_nil hknows input) (Nat.zero_le _) (Nat.le_refl _)
  rw [Phrase.span_zero_length] at hsound hcomplete
  refine ⟨verdict, ?_, hsound, fun hyields => hcomplete (due_nil.mpr hyields)⟩
  rw [matchesForm, StateT.run'_eq, hrun]
  rfl

theorem matchesToken_of_run {token : Token} {input : Phrase} {verdict : Bool}
    {active : List Goal}
    (h : (recognizer.matchToken input (recognizer.depthBound input) token 0 input.length).run [] =
      .ok (verdict, active)) :
    recognizer.matchesToken token input = .ok verdict := by
  rw [matchesToken, StateT.run'_eq, h]
  rfl

/-- A token matches exactly what it yields, if the input is a group that the
recognizer can meet. -/
theorem matchesToken_decides (hknows : recognizer.KnowsNullable) (token : Token)
    (input : Phrase) (hinput : recognizer.allowEmpty = false → input ≠ []) :
    Decides (recognizer.matchesToken token input)
      (∃ height, Yields recognizer.grammar recognizer.allowEmpty height [token] input) := by
  obtain ⟨verdict, hrun, hsound, hcomplete⟩ :=
    settlesTokens_nil hknows input token 0 input.length (Nat.zero_le _) (Nat.le_refl _)
  rw [Phrase.span_zero_length] at hsound hcomplete
  exact ⟨verdict, matchesToken_of_run hrun, fun htrue => hsound htrue hinput,
    fun hyields => hcomplete (due_nil.mpr hyields)⟩

/-! ### The general variant -/

section General

variable (grammar : Grammar)

theorem general_matchesForm (form input : Phrase) :
    Decides ((general grammar).matchesForm form input) (grammar.Generates form input) :=
  (matchesForm_decides (knowsNullable_general grammar) form input).congr
    Grammar.generates_iff.symm

theorem general_matchesToken (token : Token) (input : Phrase) :
    Decides ((general grammar).matchesToken token input) (grammar.Generates [token] input) :=
  (matchesToken_decides (knowsNullable_general grammar) token input
    (fun hfalse => nomatch hfalse)).congr Grammar.generates_iff.symm

theorem general_recognizes (input : Phrase) :
    Decides ((general grammar).recognizes input) (grammar.Generates [grammar.start] input) :=
  general_matchesForm grammar [grammar.start] input

/-- The general variant decides, for forms, for tokens and for the start symbol,
derivability by the rules whose left-hand phrase is a single non-terminal. -/
theorem general_decides_generates :
    (∀ form input, Decides ((general grammar).matchesForm form input)
        (grammar.Generates form input)) ∧
      (∀ token input, Decides ((general grammar).matchesToken token input)
        (grammar.Generates [token] input)) ∧
      ∀ input, Decides ((general grammar).recognizes input)
        (grammar.Generates [grammar.start] input) :=
  ⟨general_matchesForm grammar, general_matchesToken grammar, general_recognizes grammar⟩

end General

/-! ### The ε-free variant -/

section EpsilonFree

variable (grammar : Grammar)

theorem epsilonFree_matchesForm (form input : Phrase) :
    Decides ((epsilonFree grammar).matchesForm form input)
      (grammar.GeneratesWithoutEpsilon form input) :=
  (matchesForm_decides (knowsNullable_epsilonFree grammar) form input).congr
    Grammar.generatesWithoutEpsilon_iff.symm

/-- Without empty groups only the empty form matches the empty input, and no token is asked
about. -/
theorem epsilonFree_matchForm_empty (matchToken : Token → Nat → Nat → Search Bool)
    (active : List Goal) (form : Phrase) :
    Answers ((epsilonFree grammar).matchForm [] matchToken form 0 0) active
      (form = []) (form = []) := by
  have hbounds : 0 ≤ 0 ∧ 0 ≤ ([] : Phrase).length := ⟨Nat.le_refl 0, Nat.le_refl 0⟩
  have hspan : Phrase.span [] 0 0 = [] := Phrase.span_self [] 0
  by_cases hform : form = []
  · subst hform
    rw [matchForm_nil hbounds, hspan]
    exact .of_run rfl (fun _ => rfl) fun _ => rfl
  · rw [matchForm_of_ne_nil hbounds hform, hspan, rejects_nil rfl hform]
    exact .of_run rfl (fun hfalse => nomatch hfalse) fun hnil => absurd hnil hform

/-- On the empty input the ε-free variant finds the empty alternatives of the token itself,
and no others. -/
theorem epsilonFree_matchesToken_nil (token : Token) :
    Decides ((epsilonFree grammar).matchesToken token [])
      (grammar.ContextFreeProduction [token] []) := by
  have hbounds : 0 ≤ 0 ∧ 0 ≤ ([] : Phrase).length := ⟨Nat.le_refl 0, Nat.le_refl 0⟩
  have hspan : Phrase.span [] 0 0 = [] := Phrase.span_self [] 0
  cases hterminal : grammar.isTerminal token with
  | true =>
      refine ⟨_, matchesToken_of_run (run_expand_terminal hbounds hterminal), ?_⟩
      simp [hspan, Grammar.contextFreeProduction_iff, hterminal]
  | false =>
      cases hrule : grammar.ruleFor? token with
      | none =>
          refine ⟨_, matchesToken_of_run (run_expand_none hbounds hterminal hrule), ?_⟩
          simp [Grammar.contextFreeProduction_iff, hrule]
      | some rule =>
          obtain ⟨matched, hrun, hsound, hcomplete⟩ := Answers.anyM
            fun alternative (_ : alternative ∈ rule.alternatives) =>
              epsilonFree_matchForm_empty grammar _ _ alternative
          refine ⟨matched, matchesToken_of_run (run_expand_rule hbounds hterminal hrule
            List.not_mem_nil hrun), ?_⟩
          rw [Grammar.contextFreeProduction_iff]
          constructor
          · intro hmatched
            obtain ⟨_, halternative, rfl⟩ := hsound hmatched
            exact ⟨hterminal, rule, hrule, halternative⟩
          · rintro ⟨_, rule', hrule', halternative⟩
            rw [hrule] at hrule'
            cases hrule'
            exact hcomplete ⟨[], halternative, rfl⟩

theorem epsilonFree_matchesToken (token : Token) {input : Phrase} (hinput : input ≠ []) :
    Decides ((epsilonFree grammar).matchesToken token input)
      (grammar.GeneratesWithoutEpsilon [token] input) :=
  (matchesToken_decides (knowsNullable_epsilonFree grammar) token input fun _ => hinput).congr
    Grammar.generatesWithoutEpsilon_iff.symm

/-- What the ε-free variant accepts, the general variant accepts. -/
theorem general_matchesForm_of_epsilonFree {form input : Phrase}
    (h : (epsilonFree grammar).matchesForm form input = .ok true) :
    (general grammar).matchesForm form input = .ok true := by
  have hgenerates := ((epsilonFree_matchesForm grammar form input).iff_of_eq_ok h).mp rfl
  exact (general_matchesForm grammar form input).eq_ok_true hgenerates.generates

theorem epsilonFree_matchesForm_nil {form : Phrase} (h : form ≠ []) :
    (epsilonFree grammar).matchesForm form [] = .ok false :=
  (epsilonFree_matchesForm grammar form []).eq_ok_false fun hgenerates =>
    hgenerates.ne_nil h rfl

/-- The variants agree where no ε production can be missed. -/
theorem epsilonFree_matchesForm_eq (form input : Phrase)
    (h : ∀ rule ∈ grammar.contextFreeRules, [] ∉ rule.alternatives) :
    (epsilonFree grammar).matchesForm form input = (general grammar).matchesForm form input := by
  have hepsilonFree := (epsilonFree_matchesForm grammar form input).congr
    (Grammar.generatesWithoutEpsilon_iff_of_not_mem h)
  obtain ⟨verdict, hverdict, hverdict'⟩ :=
    hepsilonFree.exists_common (general_matchesForm grammar form input)
  rw [hverdict, hverdict']

/-- On every grammar the ε-free variant decides derivability without ε productions.  So it
accepts nothing that the general variant rejects, a form that is not empty never matches
the empty input, and the variants agree where no context-free rule has an empty
alternative. -/
theorem epsilonFree_decides_generates_without_epsilon :
    (∀ form input, Decides ((epsilonFree grammar).matchesForm form input)
        (grammar.GeneratesWithoutEpsilon form input)) ∧
      (∀ input, Decides ((epsilonFree grammar).recognizes input)
        (grammar.GeneratesWithoutEpsilon [grammar.start] input)) ∧
      (∀ form input, (epsilonFree grammar).matchesForm form input = .ok true →
        (general grammar).matchesForm form input = .ok true) ∧
      (∀ input, (epsilonFree grammar).recognizes input = .ok true →
        (general grammar).recognizes input = .ok true) ∧
      (∀ form, form ≠ [] → (epsilonFree grammar).matchesForm form [] = .ok false) ∧
      (epsilonFree grammar).recognizes [] = .ok false ∧
      ((∀ rule ∈ grammar.contextFreeRules, [] ∉ rule.alternatives) →
        ∀ form input, (epsilonFree grammar).matchesForm form input =
          (general grammar).matchesForm form input) := by
  refine ⟨epsilonFree_matchesForm grammar, ?_, ?_, ?_, ?_, ?_, ?_⟩
  · exact fun input => epsilonFree_matchesForm grammar [grammar.start] input
  · exact fun form input => general_matchesForm_of_epsilonFree grammar
  · exact fun input => general_matchesForm_of_epsilonFree grammar
  · exact fun form => epsilonFree_matchesForm_nil grammar
  · exact epsilonFree_matchesForm_nil grammar (List.cons_ne_nil _ _)
  · exact fun h form input => epsilonFree_matchesForm_eq grammar form input h

end EpsilonFree

/-- The only empty alternative is that of a rule that is not context-free, and the start
symbol leads back to itself. -/
theorem epsilonFree_decides_generates_without_epsilon_cyclic :
    ∃ grammar, ∃ a s : Token, a.text = ['a'] ∧ s.text = ['S'] ∧
      Grammar.ofTexts [['S'], ['A']] [['a']]
          [(['S'], [['S'], ['S', ' ', 'a'], ['a']]), (['S', ' ', 'A'], [[]])] ['S'] =
        .ok grammar ∧
      (∃ rule ∈ grammar.rules, [] ∈ rule.alternatives) ∧
      (epsilonFree grammar).recognizes [a, a] = .ok true ∧
      (general grammar).recognizes [a, a] = .ok true ∧
      (epsilonFree grammar).matchesForm [s, a] [] = .ok false ∧
      (epsilonFree grammar).matchesForm [s, s] [a] = (general grammar).matchesForm [s, s] [a] := by
  obtain ⟨grammar, hgrammar, hsome, hnone, haccepts⟩ : ∃ grammar,
      Grammar.ofTexts [['S'], ['A']] [['a']]
          [(['S'], [['S'], ['S', ' ', 'a'], ['a']]), (['S', ' ', 'A'], [[]])] ['S'] =
        .ok grammar ∧
      (∃ rule ∈ grammar.rules, [] ∈ rule.alternatives) ∧
      (∀ rule ∈ grammar.contextFreeRules, [] ∉ rule.alternatives) ∧
      (epsilonFree grammar).recognizes [⟨['a'], by decide⟩, ⟨['a'], by decide⟩] = .ok true :=
    ⟨_, rfl, by decide, by decide, by decide +kernel⟩
  obtain ⟨_, _, _, hrecognizes, hempty, _, hagree⟩ :=
    epsilonFree_decides_generates_without_epsilon grammar
  exact ⟨grammar, ⟨['a'], by decide⟩, ⟨['S'], by decide⟩, rfl, rfl, hgrammar, hsome, haccepts,
    hrecognizes _ haccepts, hempty _ (List.cons_ne_nil _ _), hagree hnone _ _⟩

end TopDown
end PhraseStructure
