import PhraseStructure.Proofs.TopDown.Search

/-!
# How deeply the search nests

A call of the search asks about a form or a token while some goals are active.  It
makes further calls:

* a call for a form makes calls for the form's tokens over parts of its own part, with
  the same goals active;
* a call for a token whose goal is not active makes calls for the alternatives of its
  rule over its own part, with this goal active in addition.

`Makes` allows every alternative, token and part of this kind, whether or not the
search stops earlier.  What is said of the calls that it allows therefore holds of the
calls that a run makes.

The form does not get shorter and the part need not get smaller on the way down.  What
grows is the set of active goals.  They are always different goals of the recognizer, so
no more rules are expanded one inside the other than there are goals.  When a call
returns, the goals are those with which it was made.
-/

namespace PhraseStructure
namespace TopDown

/-- What a call of the search asks for. -/
inductive Question where
  | form (form : Phrase)
  | token (token : Token)

/-- A call of the search: a question about the part of the input from `start` to
`stop`, asked while some goals are active. -/
structure Call where
  question : Question
  start : Nat
  stop : Nat
  active : List Goal

/-- The number of rules that a call expands before it makes further calls. -/
def Question.expansions : Question → Nat
  | form _ => 0
  | token _ => 1

/-- One call makes another. -/
inductive Makes (recognizer : TopDown) : Call → Call → Prop
  | group {form : Phrase} {token : Token} {start left right stop : Nat} {active : List Goal}
      (htoken : token ∈ form) (hleft : start ≤ left) (hle : left ≤ right)
      (hright : right ≤ stop) :
      Makes recognizer ⟨.form form, start, stop, active⟩ ⟨.token token, left, right, active⟩
  | alternative {token : Token} {rule : Rule} {alternative : Phrase} {start stop : Nat}
      {active : List Goal} (hterminal : recognizer.grammar.isTerminal token = false)
      (hrule : recognizer.grammar.ruleFor? token = some rule)
      (hactive : (⟨token, start, stop⟩ : Goal) ∉ active)
      (halternative : alternative ∈ rule.alternatives) :
      Makes recognizer ⟨.token token, start, stop, active⟩
        ⟨.form alternative, start, stop, ⟨token, start, stop⟩ :: active⟩

/-- A call is nested in another one, with the given number of rules expanded in
between. -/
inductive Nested (recognizer : TopDown) (outer : Call) : Nat → Call → Prop
  | refl : Nested recognizer outer 0 outer
  | tail {count : Nat} {middle inner : Call} (h : Nested recognizer outer count middle)
      (hmakes : Makes recognizer middle inner) :
      Nested recognizer outer (count + middle.question.expansions) inner

variable {recognizer : TopDown} {input : Phrase}

/-! ### The active goals of nested calls -/

/-- A call about a part of the input, with active goals of the recognizer. -/
structure Call.Valid (recognizer : TopDown) (input : Phrase) (call : Call) : Prop where
  start_le : call.start ≤ call.stop
  stop_le : call.stop ≤ input.length
  active : recognizer.ActiveGoals input call.active

theorem Call.valid_top (recognizer : TopDown) (input : Phrase) (question : Question) :
    Call.Valid recognizer input ⟨question, 0, input.length, []⟩ :=
  ⟨Nat.zero_le _, Nat.le_refl _, List.nodup_nil, List.nil_subset _⟩

theorem Makes.valid {outer inner : Call} (h : Makes recognizer outer inner)
    (hvalid : outer.Valid recognizer input) : inner.Valid recognizer input := by
  cases h with
  | group htoken hleft hle hright =>
      exact ⟨hle, Nat.le_trans hright hvalid.stop_le, hvalid.active⟩
  | alternative hterminal hrule hactive halternative =>
      exact ⟨hvalid.start_le, hvalid.stop_le,
        hvalid.active.cons hterminal hrule hvalid.start_le hvalid.stop_le hactive⟩

/-- The active goals grow by one goal for each rule that is expanded. -/
theorem Makes.active_suffix {outer inner : Call} (h : Makes recognizer outer inner) :
    outer.active <:+ inner.active ∧
      inner.active.length = outer.active.length + outer.question.expansions := by
  cases h with
  | group => exact ⟨List.suffix_refl _, rfl⟩
  | alternative => exact ⟨List.suffix_cons _ _, rfl⟩

theorem Nested.valid {outer inner : Call} {count : Nat} (h : Nested recognizer outer count inner)
    (hvalid : outer.Valid recognizer input) : inner.Valid recognizer input := by
  induction h with
  | refl => exact hvalid
  | tail _ hmakes ih => exact hmakes.valid ih

theorem Nested.length_active {outer inner : Call} {count : Nat}
    (h : Nested recognizer outer count inner) :
    inner.active.length = outer.active.length + count := by
  induction h with
  | refl => rfl
  | tail _ hmakes ih => rw [hmakes.active_suffix.2, ih, Nat.add_assoc]

/-- The calls that a call may still make inside one another: two for each goal that is
not active. -/
def Call.room (recognizer : TopDown) (input : Phrase) (call : Call) : Nat :=
  2 * ((recognizer.goals input).length - call.active.length) + (1 - call.question.expansions)

theorem Makes.room_lt {outer inner : Call} (h : Makes recognizer outer inner)
    (hvalid : outer.Valid recognizer input) :
    inner.room recognizer input < outer.room recognizer input := by
  have hinner := (h.valid hvalid).active.length_le
  cases h with
  | group =>
      simp only [Call.room, Question.expansions]
      omega
  | alternative =>
      simp only [Call.room, Question.expansions, List.length_cons] at hinner ⊢
      omega

/-- Calls do not nest forever. -/
theorem Call.Valid.acc {call : Call} (h : call.Valid recognizer input) :
    Acc (fun inner outer => Makes recognizer outer inner) call :=
  .intro call fun _ hmakes => (hmakes.valid h).acc
termination_by call.room recognizer input
decreasing_by exact hmakes.room_lt h

/-! ### Searches that agree -/

/-- From the given active goals both searches end with the same verdict and leave the
goals as they were. -/
def Agree (left right : Search Bool) (active : List Goal) : Prop :=
  ∃ verdict, left.run active = .ok (verdict, active) ∧ right.run active = .ok (verdict, active)

namespace Agree

variable {active : List Goal} {left middle right : Search Bool}

theorem pure (verdict : Bool) (active : List Goal) :
    Agree (Pure.pure verdict) (Pure.pure verdict) active :=
  ⟨verdict, rfl, rfl⟩

theorem trans (h : Agree left middle active) (h' : Agree middle right active) :
    Agree left right active := by
  obtain ⟨verdict, hleft, hmiddle⟩ := h
  obtain ⟨verdict', hmiddle', hright⟩ := h'
  rw [hmiddle] at hmiddle'
  cases hmiddle'
  exact ⟨verdict, hleft, hright⟩

/-- What follows a verdict starts with the goals with which the search started. -/
theorem bind {next next' : Bool → Search Bool} (h : Agree left right active)
    (hnext : ∀ verdict, Agree (next verdict) (next' verdict) active) :
    Agree (left >>= next) (right >>= next') active := by
  obtain ⟨verdict, hleft, hright⟩ := h
  obtain ⟨verdict', hnextLeft, hnextRight⟩ := hnext verdict
  refine ⟨verdict', ?_, ?_⟩
  · rw [StateT.run_bind, hleft]
    exact hnextLeft
  · rw [StateT.run_bind, hright]
    exact hnextRight

theorem anyM {α : Type} {test test' : α → Search Bool} {list : List α}
    (h : ∀ item ∈ list, Agree (test item) (test' item) active) :
    Agree (list.anyM test) (list.anyM test') active := by
  induction list with
  | nil => exact .pure false active
  | cons item list ih =>
      rw [List.anyM, List.anyM]
      refine (h item List.mem_cons_self).bind fun verdict => ?_
      cases verdict with
      | true => exact .pure true active
      | false => exact ih fun other hother => h other (List.mem_cons_of_mem _ hother)

end Agree

section Tokens

variable {matchToken matchToken' : Token → Nat → Nat → Search Bool} {active : List Goal}

theorem matchGroups_agree {form : Phrase} {groups : List Phrase} {start stop : Nat}
    (hstop : start + groups.flatten.length ≤ stop)
    (h : ∀ token ∈ form, ∀ left right, start ≤ left → left ≤ right → right ≤ stop →
      Agree (matchToken token left right) (matchToken' token left right) active) :
    Agree (matchGroups matchToken start form groups) (matchGroups matchToken' start form groups)
      active := by
  induction form generalizing start groups with
  | nil =>
      rw [matchGroups, matchGroups]
      · exact .pure true active
      all_goals simp
  | cons token form ih =>
      cases groups with
      | nil =>
          rw [matchGroups, matchGroups]
          · exact .pure true active
          all_goals simp
      | cons group groups =>
          rw [List.flatten_cons, List.length_append, ← Nat.add_assoc] at hstop
          have hgroup : start + group.length ≤ stop := Nat.le_of_add_right_le hstop
          have hstart : start ≤ start + group.length := Nat.le_add_right _ _
          rw [matchGroups, matchGroups]
          have hfirst := h token List.mem_cons_self _ _ (Nat.le_refl _) hstart hgroup
          refine hfirst.bind fun verdict => ?_
          cases verdict with
          | false => exact .pure false active
          | true =>
              refine ih hstop fun other hother left right hleft hle hright => ?_
              exact h other (List.mem_cons_of_mem _ hother) left right
                (Nat.le_trans hstart hleft) hle hright

theorem matchSplits_agree {form : Phrase} {start stop : Nat} (hstart : start ≤ stop)
    (hstop : stop ≤ input.length)
    (hrefusal : Splits.refusal? (input.span start stop).length form.length
      recognizer.allowEmpty = none)
    (h : ∀ token ∈ form, ∀ left right, start ≤ left → left ≤ right → right ≤ stop →
      Agree (matchToken token left right) (matchToken' token left right) active) :
    Agree (recognizer.matchSplits matchToken form (input.span start stop) start)
      (recognizer.matchSplits matchToken' form (input.span start stop) start) active := by
  obtain ⟨list, hmem, hsearch⟩ := exists_matchSplits_eq start hrefusal
  rw [hsearch, hsearch]
  refine Agree.anyM fun groups hgroups => matchGroups_agree ?_ h
  rw [((hmem groups).mp hgroups).flatten_eq, Phrase.length_span hstop]
  omega

/-- The outcome for a form depends on the outcomes for its tokens over parts of its
part. -/
theorem matchForm_agree {form : Phrase} {start stop : Nat} (hstart : start ≤ stop)
    (hstop : stop ≤ input.length)
    (h : ∀ token ∈ form, ∀ left right, start ≤ left → left ≤ right → right ≤ stop →
      Agree (matchToken token left right) (matchToken' token left right) active) :
    Agree (recognizer.matchForm input matchToken form start stop)
      (recognizer.matchForm input matchToken' form start stop) active := by
  by_cases hform : form = []
  · subst hform
    rw [matchForm_nil ⟨hstart, hstop⟩, matchForm_nil ⟨hstart, hstop⟩]
    exact .pure _ active
  · rw [matchForm_of_ne_nil ⟨hstart, hstop⟩ hform, matchForm_of_ne_nil ⟨hstart, hstop⟩ hform]
    cases hrejects : recognizer.rejects form (input.span start stop) with
    | true => exact .pure false active
    | false => exact matchSplits_agree hstart hstop (refusal?_eq_none hform hrejects) h

end Tokens

/-- The outcome for a token depends on the outcomes for its alternatives while its goal
is active. -/
theorem expand_agree {matchForm matchForm' : Phrase → Nat → Nat → Search Bool} {token : Token}
    {start stop : Nat} {active : List Goal} (hstart : start ≤ stop) (hstop : stop ≤ input.length)
    (h : ∀ rule, recognizer.grammar.isTerminal token = false →
      recognizer.grammar.ruleFor? token = some rule → (⟨token, start, stop⟩ : Goal) ∉ active →
      ∀ alternative ∈ rule.alternatives, Agree (matchForm alternative start stop)
        (matchForm' alternative start stop) (⟨token, start, stop⟩ :: active)) :
    Agree (recognizer.expand input matchForm token start stop)
      (recognizer.expand input matchForm' token start stop) active := by
  cases hterminal : recognizer.grammar.isTerminal token with
  | true =>
      exact ⟨_, run_expand_terminal ⟨hstart, hstop⟩ hterminal,
        run_expand_terminal ⟨hstart, hstop⟩ hterminal⟩
  | false =>
      cases hrule : recognizer.grammar.ruleFor? token with
      | none =>
          exact ⟨false, run_expand_none ⟨hstart, hstop⟩ hterminal hrule,
            run_expand_none ⟨hstart, hstop⟩ hterminal hrule⟩
      | some rule =>
          by_cases hactive : (⟨token, start, stop⟩ : Goal) ∈ active
          · exact ⟨false, run_expand_active ⟨hstart, hstop⟩ hterminal hrule hactive,
              run_expand_active ⟨hstart, hstop⟩ hterminal hrule hactive⟩
          · obtain ⟨verdict, hrun, hrun'⟩ := Agree.anyM (h rule hterminal hrule hactive)
            exact ⟨verdict, run_expand_rule ⟨hstart, hstop⟩ hterminal hrule hactive hrun,
              run_expand_rule ⟨hstart, hstop⟩ hterminal hrule hactive hrun'⟩

/-! ### Calls and their outcomes -/

/-- The search for the answer to a question, with at most `depth` calls for tokens
inside one another. -/
def search (recognizer : TopDown) (input : Phrase) (depth : Nat) :
    Question → Nat → Nat → Search Bool
  | .form form => recognizer.matchForm input (recognizer.matchToken input depth) form
  | .token token => recognizer.matchToken input depth token

/-- The search for the answer to a question by means of answers to the questions that it
raises. -/
def searchWith (recognizer : TopDown) (input : Phrase)
    (answer : Question → Nat → Nat → Search Bool) : Question → Nat → Nat → Search Bool
  | .form form => recognizer.matchForm input (fun token => answer (.token token)) form
  | .token token => recognizer.expand input (fun form => answer (.form form)) token

/-- Two ways of answering questions agree on a call. -/
def Call.Agree (call : Call) (answer answer' : Question → Nat → Nat → Search Bool) : Prop :=
  TopDown.Agree (answer call.question call.start call.stop)
    (answer' call.question call.start call.stop) call.active

variable {answer answer' : Question → Nat → Nat → Search Bool}

/-- The outcome of a call depends on the outcomes of the calls that it makes. -/
theorem Call.Valid.searchWith_agree {call : Call} (hvalid : call.Valid recognizer input)
    (h : ∀ inner, Makes recognizer call inner → inner.Agree answer answer') :
    call.Agree (recognizer.searchWith input answer) (recognizer.searchWith input answer') := by
  obtain ⟨question, start, stop, active⟩ := call
  cases question with
  | form form =>
      refine matchForm_agree hvalid.start_le hvalid.stop_le ?_
      intro token htoken left right hleft hle hright
      exact h _ (.group htoken hleft hle hright)
  | token token =>
      refine expand_agree hvalid.start_le hvalid.stop_le ?_
      intro rule hterminal hrule hactive alternative halternative
      exact h _ (.alternative hterminal hrule hactive halternative)

theorem search_eq_searchWith (recognizer : TopDown) (input : Phrase) (depth : Nat)
    (question : Question) :
    recognizer.search input (depth + question.expansions) question =
      recognizer.searchWith input (recognizer.search input depth) question := by
  cases question <;> rfl

/-- A call can afford its own expansion where the depth is enough for all goals that are
not active. -/
theorem Call.Valid.exists_less {call : Call} {depth : Nat} (hvalid : call.Valid recognizer input)
    (hdepth : (recognizer.goals input).length < depth + call.active.length) :
    ∃ less, depth = less + call.question.expansions := by
  have hle := hvalid.active.length_le
  have hone : call.question.expansions ≤ 1 := by
    cases call.question with
    | form => exact Nat.zero_le 1
    | token => exact Nat.le_refl 1
  exact ⟨depth - call.question.expansions, by omega⟩

/-- Where the depth is enough for all goals that are not active, it makes no
difference. -/
theorem Call.Valid.search_agree {call : Call} {depth depth' : Nat}
    (hvalid : call.Valid recognizer input)
    (hdepth : (recognizer.goals input).length < depth + call.active.length)
    (hdepth' : (recognizer.goals input).length < depth' + call.active.length) :
    call.Agree (recognizer.search input depth) (recognizer.search input depth') := by
  have hacc : Acc (fun inner outer => Makes recognizer outer inner) call := hvalid.acc
  induction hacc generalizing depth depth' with
  | intro call _ ih =>
      obtain ⟨less, rfl⟩ := hvalid.exists_less hdepth
      obtain ⟨less', rfl⟩ := hvalid.exists_less hdepth'
      rw [Call.Agree, search_eq_searchWith, search_eq_searchWith]
      refine hvalid.searchWith_agree fun inner hmakes => ?_
      -- What the call spends of its depth, the goals that are active below it make up for.
      have hlength := hmakes.active_suffix.2
      exact ih inner hmakes (hmakes.valid hvalid) (by omega) (by omega)

/-- The search solves its own equations: it answers a question by means of the answers
to the questions that the call raises. -/
theorem Call.Valid.agree_searchWith {call : Call} {depth : Nat}
    (hvalid : call.Valid recognizer input)
    (hdepth : (recognizer.goals input).length < depth + call.active.length)
    (h : ∀ inner, Makes recognizer call inner →
      inner.Agree (recognizer.search input depth) answer) :
    call.Agree (recognizer.search input depth) (recognizer.searchWith input answer) := by
  obtain ⟨less, hless⟩ := hvalid.exists_less hdepth
  have hbelow : ∀ inner, Makes recognizer call inner →
      inner.Agree (recognizer.search input less) answer := by
    intro inner hmakes
    have hlength := hmakes.active_suffix.2
    exact ((hmakes.valid hvalid).search_agree (by omega) (by omega)).trans (h inner hmakes)
  have hagree := hvalid.searchWith_agree hbelow
  rwa [Call.Agree, ← search_eq_searchWith, ← hless] at hagree

/-! ### Runs from the top -/

/-- The active goals of a valid call are those of non-terminals with rules, over parts of
the input. -/
theorem ActiveGoals.of_mem {active : List Goal} (h : recognizer.ActiveGoals input active)
    {goal : Goal} (hgoal : goal ∈ active) :
    recognizer.grammar.isNonTerminal goal.token = true ∧
      (∃ rule, recognizer.grammar.ruleFor? goal.token = some rule) ∧
      goal.start ≤ goal.stop ∧ goal.stop ≤ input.length := by
  obtain ⟨⟨rule, hrule, htoken⟩, hbounds⟩ := mem_goals.mp (h.subset hgoal)
  obtain ⟨hmem, token, hlhs, hnonTerminal⟩ := Grammar.mem_contextFreeRules.mp hrule
  rw [hlhs] at htoken
  obtain rfl := List.mem_singleton.mp htoken
  exact ⟨hnonTerminal, ⟨rule, Grammar.ruleFor?_eq_some_iff.mpr ⟨hmem, hlhs⟩⟩, hbounds⟩

/-- From no active goals the calls of a search do not nest forever.  For every call that is
nested in the first one:

* the active goals are different goals of non-terminals with rules over parts of the
  input, one for each rule that is being expanded, and there are no more of them than
  context-free rules times parts of the input;
* a call below it has the same goals active, and one more if a rule is expanded for it,
  which does not happen when all goals there can be are active;
* any depth that suffices for the goals that are not active gives the same verdict, and
  leaves the goals as they were;
* the outcome is the one that follows from the outcomes of the calls below it. -/
theorem nested_calls_bounded_and_restoring (recognizer : TopDown) (input : Phrase)
    (question : Question) :
    Acc (fun inner outer => Makes recognizer outer inner) ⟨question, 0, input.length, []⟩ ∧
      ∀ count call, Nested recognizer ⟨question, 0, input.length, []⟩ count call →
        (call.active.Nodup ∧ call.active.length = count ∧
          count ≤ recognizer.grammar.contextFreeRules.length *
            ((input.length + 1) * (input.length + 2) / 2) ∧
          ∀ goal ∈ call.active, recognizer.grammar.isNonTerminal goal.token = true ∧
            (∃ rule, recognizer.grammar.ruleFor? goal.token = some rule) ∧
            goal.start ≤ goal.stop ∧ goal.stop ≤ input.length) ∧
        (∀ inner, Makes recognizer call inner →
          call.active <:+ inner.active ∧
            inner.active.length = call.active.length + call.question.expansions ∧
            count + call.question.expansions ≤ recognizer.grammar.contextFreeRules.length *
              ((input.length + 1) * (input.length + 2) / 2)) ∧
        (∃ verdict, ∀ depth, recognizer.grammar.contextFreeRules.length *
            ((input.length + 1) * (input.length + 2) / 2) < depth + count →
          (recognizer.search input depth call.question call.start call.stop).run call.active =
            .ok (verdict, call.active)) ∧
        ∀ depth answer, recognizer.grammar.contextFreeRules.length *
            ((input.length + 1) * (input.length + 2) / 2) < depth + count →
          (∀ inner, Makes recognizer call inner →
            inner.Agree (recognizer.search input depth) answer) →
          call.Agree (recognizer.search input depth) (recognizer.searchWith input answer) := by
  have htop := Call.valid_top recognizer input question
  refine ⟨htop.acc, ?_⟩
  intro count call hnested
  rw [← length_goals]
  have hvalid := hnested.valid htop
  have hlength : call.active.length = count := hnested.length_active.trans (Nat.zero_add count)
  have hbound : count ≤ (recognizer.goals input).length := hlength ▸ hvalid.active.length_le
  refine ⟨⟨hvalid.active.nodup, hlength, hbound, fun goal => hvalid.active.of_mem⟩, ?_, ?_, ?_⟩
  · intro inner hmakes
    obtain ⟨hsuffix, hgrows⟩ := hmakes.active_suffix
    have hinner := (hmakes.valid hvalid).active.length_le
    exact ⟨hsuffix, hgrows, by omega⟩
  · have henough : (recognizer.goals input).length <
        (recognizer.goals input).length + 1 + call.active.length := by omega
    obtain ⟨verdict, hrun, _⟩ := hvalid.search_agree henough henough
    refine ⟨verdict, ?_⟩
    intro depth hdepth
    obtain ⟨verdict', hrun', hrun''⟩ := hvalid.search_agree henough (hlength ▸ hdepth)
    rw [hrun] at hrun'
    cases hrun'
    exact hrun''
  · intro depth answer hdepth hanswer
    exact hvalid.agree_searchWith (hlength ▸ hdepth) hanswer

/-- Two non-terminals that lead to each other over the same part. -/
theorem nested_calls_bounded_and_restoring_cyclic :
    ∃ grammar, ∃ a s t : Token, a.text = ['a'] ∧ s.text = ['S'] ∧ t.text = ['T'] ∧
      Grammar.ofTexts [['S'], ['T']] [['a']] [(['S'], [['T']]), (['T'], [['S'], ['a']])] ['S'] =
        .ok grammar ∧
      Nested (general grammar) ⟨.token s, 0, 1, []⟩ 1 ⟨.token t, 0, 1, [⟨s, 0, 1⟩]⟩ ∧
      1 + 1 ≤ grammar.contextFreeRules.length * ((1 + 1) * (1 + 2) / 2) ∧
      (∃ verdict, ((general grammar).search [a] 6 (.token t) 0 1).run [⟨s, 0, 1⟩] =
        .ok (verdict, [⟨s, 0, 1⟩])) ∧
      Call.Agree ⟨.token t, 0, 1, [⟨s, 0, 1⟩]⟩ ((general grammar).search [a] 6)
        ((general grammar).searchWith [a] ((general grammar).search [a] 6)) := by
  obtain ⟨grammar, a, s, t, first, second, ha, hs, ht, hgrammar, hcount, hterminal, hterminal',
      hfirst, hsecond, halternative, halternative'⟩ :
      ∃ grammar, ∃ a s t : Token, ∃ first second, a.text = ['a'] ∧ s.text = ['S'] ∧
        t.text = ['T'] ∧
        Grammar.ofTexts [['S'], ['T']] [['a']] [(['S'], [['T']]), (['T'], [['S'], ['a']])] ['S'] =
          .ok grammar ∧
        grammar.contextFreeRules.length = 2 ∧ grammar.isTerminal s = false ∧
        grammar.isTerminal t = false ∧ grammar.ruleFor? s = some first ∧
        grammar.ruleFor? t = some second ∧ [t] ∈ first.alternatives ∧ [s] ∈ second.alternatives :=
    ⟨_, ⟨['a'], by decide⟩, ⟨['S'], by decide⟩, ⟨['T'], by decide⟩, _, _, rfl, rfl, rfl, rfl, rfl,
      rfl, rfl, rfl, rfl, by decide, by decide⟩
  have hne : (⟨t, 0, 1⟩ : Goal) ∉ [⟨s, 0, 1⟩] := by
    intro hmem
    have hsame : t = s := congrArg Goal.token (List.mem_singleton.mp hmem)
    rw [hsame, hs] at ht
    cases ht
  have hform : Makes (general grammar) ⟨.token s, 0, 1, []⟩ ⟨.form [t], 0, 1, [⟨s, 0, 1⟩]⟩ :=
    .alternative hterminal hfirst List.not_mem_nil halternative
  have htoken : Makes (general grammar) ⟨.form [t], 0, 1, [⟨s, 0, 1⟩]⟩
      ⟨.token t, 0, 1, [⟨s, 0, 1⟩]⟩ :=
    .group List.mem_cons_self (Nat.le_refl 0) (Nat.zero_le 1) (Nat.le_refl 1)
  have hback : Makes (general grammar) ⟨.token t, 0, 1, [⟨s, 0, 1⟩]⟩
      ⟨.form [s], 0, 1, [⟨t, 0, 1⟩, ⟨s, 0, 1⟩]⟩ :=
    .alternative hterminal' hsecond hne halternative'
  have hnested : Nested (general grammar) ⟨.token s, 0, 1, []⟩ 1 ⟨.token t, 0, 1, [⟨s, 0, 1⟩]⟩ :=
    (Nested.refl.tail hform).tail htoken
  have henough : grammar.contextFreeRules.length * ((1 + 1) * (1 + 2) / 2) < 6 + 1 := by
    rw [hcount]
    decide
  obtain ⟨_, hcalls⟩ := nested_calls_bounded_and_restoring (general grammar) [a] (.token s)
  obtain ⟨_, hbelow, ⟨verdict, hrun⟩, hequation⟩ := hcalls 1 _ hnested
  refine ⟨grammar, a, s, t, ha, hs, ht, hgrammar, hnested, (hbelow _ hback).2.2,
    ⟨verdict, hrun 6 henough⟩, hequation 6 _ henough ?_⟩
  -- The search agrees with itself on every call below, because it restores the goals there.
  intro inner hinner
  obtain ⟨_, _, ⟨verdict', hrun'⟩, _⟩ := hcalls _ _ (hnested.tail hinner)
  exact ⟨verdict', hrun' 6 (Nat.lt_succ_of_lt henough), hrun' 6 (Nat.lt_succ_of_lt henough)⟩

end TopDown
end PhraseStructure
