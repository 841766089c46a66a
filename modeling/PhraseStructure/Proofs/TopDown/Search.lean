import Mathlib.Data.Nat.Find
import Mathlib.Tactic.Ring
import PhraseStructure.Proofs.TopDown.Rejection

/-!
# What the search finds

A goal that is active already fails, so the verdict on a goal depends on the goals
above it.  Two facts hold whatever is active:

* a positive verdict is right;
* a positive verdict is given when the goal's part is yielded at a height at which
  none of the active goals is.

The second is enough for completeness.  A goal that is yielded is yielded at a least
height, and its alternative then yields the part at a smaller height, at which the
goal itself is not yielded.  So the condition passes on to the goals below it.

A search ends within the depth bound and leaves the active goals as they were, whatever
they are.  A verdict against a goal below an active one need not be right.
-/

namespace PhraseStructure

/-- From the given active goals the search ends with a verdict and leaves the goals
as they were; a positive verdict implies `possible`, and `due` implies a positive
verdict. -/
def Answers (search : Search Bool) (active : List Goal) (possible due : Prop) : Prop :=
  ∃ verdict, search.run active = .ok (verdict, active) ∧
    (verdict = true → possible) ∧ (due → verdict = true)

namespace Answers

variable {active : List Goal} {possible due possible' due' : Prop}

theorem of_run {search : Search Bool} {verdict : Bool}
    (hrun : search.run active = .ok (verdict, active)) (hpossible : verdict = true → possible)
    (hdue : due → verdict = true) : Answers search active possible due :=
  ⟨verdict, hrun, hpossible, hdue⟩

theorem imp {search : Search Bool} (h : Answers search active possible due)
    (hpossible : possible → possible') (hdue : due' → due) :
    Answers search active possible' due' := by
  obtain ⟨verdict, hrun, hsound, hcomplete⟩ := h
  exact ⟨verdict, hrun, fun htrue => hpossible (hsound htrue), fun h => hcomplete (hdue h)⟩

theorem run_eq_false {search : Search Bool} (h : Answers search active possible due)
    (hnot : ¬ possible) : search.run active = .ok (false, active) := by
  obtain ⟨verdict, hrun, hsound, _⟩ := h
  cases verdict with
  | false => exact hrun
  | true => exact absurd (hsound rfl) hnot

/-- A search through a list stops at the first positive verdict. -/
theorem anyM {α : Type} {test : α → Search Bool} {list : List α} {possible due : α → Prop}
    (h : ∀ item ∈ list, Answers (test item) active (possible item) (due item)) :
    Answers (list.anyM test) active (∃ item ∈ list, possible item) (∃ item ∈ list, due item) := by
  induction list with
  | nil => exact of_run rfl (fun hfalse => nomatch hfalse) (by simp)
  | cons item list ih =>
      obtain ⟨verdict, hrun, hsound, hcomplete⟩ := h item List.mem_cons_self
      have hbind : ((item :: list).anyM test).run active =
          (match verdict with
            | true => (pure true : Search Bool)
            | false => list.anyM test).run active := by
        rw [List.anyM, StateT.run_bind, hrun]
        rfl
      -- The search goes on from the goals it started with only because a test restores them.
      cases verdict with
      | true =>
          exact of_run hbind (fun _ => ⟨item, List.mem_cons_self, hsound rfl⟩) fun _ => rfl
      | false =>
          obtain ⟨verdict, hrest, hsound', hcomplete'⟩ :=
            ih fun other hother => h other (List.mem_cons_of_mem _ hother)
          refine of_run (hbind.trans hrest) ?_ ?_
          · intro htrue
            obtain ⟨other, hother, hpossible⟩ := hsound' htrue
            exact ⟨other, List.mem_cons_of_mem _ hother, hpossible⟩
          · rintro ⟨other, hother, hdue⟩
            rcases List.mem_cons.mp hother with rfl | hother
            · cases hcomplete hdue
            · exact hcomplete' ⟨other, hother, hdue⟩

end Answers

namespace TopDown

variable {recognizer : TopDown} {input : Phrase} {active : List Goal}

/-! ### Groups, splits and forms -/

/-- What `matchToken` is asked to settle: a token over any part of the input. -/
def SettlesTokens (input : Phrase) (matchToken : Token → Nat → Nat → Search Bool)
    (active : List Goal) (possible due : Token → Phrase → Prop) : Prop :=
  ∀ token start stop, start ≤ stop → stop ≤ input.length →
    Answers (matchToken token start stop) active
      (possible token (input.span start stop)) (due token (input.span start stop))

theorem matchGroups_answers {matchToken : Token → Nat → Nat → Search Bool}
    {possible due : Token → Phrase → Prop} {form : Phrase} {groups : List Phrase}
    {start stop : Nat} (htokens : SettlesTokens input matchToken active possible due)
    (hstart : start ≤ stop) (hstop : stop ≤ input.length)
    (hgroups : input.span start stop = groups.flatten) (hlength : form.length = groups.length) :
    Answers (matchGroups matchToken start form groups) active
      (List.Forall₂ possible form groups) (List.Forall₂ due form groups) := by
  induction form generalizing start groups with
  | nil =>
      obtain rfl : groups = [] := List.length_eq_zero_iff.mp hlength.symm
      exact Answers.of_run rfl (fun _ => .nil) fun _ => rfl
  | cons token form ih =>
      obtain ⟨group, groups, rfl⟩ : ∃ group rest, groups = group :: rest :=
        List.exists_cons_of_length_pos (by rw [← hlength]; simp)
      obtain ⟨hmiddle, hgroup, hrest⟩ := Phrase.span_eq_append hstart hstop hgroups
      obtain ⟨verdict, hrun, hsound, hcomplete⟩ :=
        htokens token start (start + group.length) (Nat.le_add_right ..)
          (Nat.le_trans hmiddle hstop)
      rw [hgroup] at hsound hcomplete
      have hbind : (matchGroups matchToken start (token :: form) (group :: groups)).run active =
          (if verdict then matchGroups matchToken (start + group.length) form groups
            else pure false).run active := by
        rw [matchGroups, StateT.run_bind, hrun]
        rfl
      cases verdict with
      | false =>
          refine Answers.of_run hbind (fun hfalse => nomatch hfalse) ?_
          intro hdue
          cases hdue with
          | cons hfirst _ => exact hcomplete hfirst
      | true =>
          obtain ⟨verdict, hrun', hsound', hcomplete'⟩ :=
            ih hmiddle hrest (Nat.succ.inj hlength)
          refine Answers.of_run (hbind.trans hrun') ?_ ?_
          · exact fun htrue => .cons (hsound rfl) (hsound' htrue)
          · intro hdue
            cases hdue with
            | cons _ hothers => exact hcomplete' hothers

/-- A search through the splits of a part is a search through one list of them. -/
theorem exists_matchSplits_eq {form part : Phrase} (start : Nat)
    (hrefusal : Splits.refusal? part.length form.length recognizer.allowEmpty = none) :
    ∃ list : List (List Phrase),
      (∀ groups, groups ∈ list ↔ IsSplit part form.length recognizer.allowEmpty groups) ∧
      ∀ matchToken, recognizer.matchSplits matchToken form part start =
        list.anyM (matchGroups matchToken start form) := by
  obtain ⟨list, hlist, hmem⟩ := Splits.exists_toList_all hrefusal
  refine ⟨list, hmem, ?_⟩
  intro matchToken
  rw [matchSplits, Splits.trusted_eq_all hrefusal, ← Splits.anyM_eq_of_toList hlist]
  rfl

theorem matchSplits_answers {matchToken : Token → Nat → Nat → Search Bool}
    {possible due : Token → Phrase → Prop} {form : Phrase} {start stop : Nat}
    (htokens : SettlesTokens input matchToken active possible due)
    (hstart : start ≤ stop) (hstop : stop ≤ input.length)
    (hrefusal : Splits.refusal? (input.span start stop).length form.length
      recognizer.allowEmpty = none) :
    Answers (recognizer.matchSplits matchToken form (input.span start stop) start) active
      (∃ groups, IsSplit (input.span start stop) form.length recognizer.allowEmpty groups ∧
        List.Forall₂ possible form groups)
      (∃ groups, IsSplit (input.span start stop) form.length recognizer.allowEmpty groups ∧
        List.Forall₂ due form groups) := by
  obtain ⟨list, hmem, hsearch⟩ := exists_matchSplits_eq start hrefusal
  have hgroups : ∀ groups ∈ list, Answers (matchGroups matchToken start form groups) active
      (List.Forall₂ possible form groups) (List.Forall₂ due form groups) := by
    intro groups hgroups
    have hsplit := (hmem groups).mp hgroups
    exact matchGroups_answers htokens hstart hstop hsplit.flatten_eq.symm hsplit.length_eq.symm
  rw [hsearch]
  refine (Answers.anyM hgroups).imp ?_ ?_
  · rintro ⟨groups, hgroups, hpossible⟩
    exact ⟨groups, (hmem groups).mp hgroups, hpossible⟩
  · rintro ⟨groups, hsplit, hdue⟩
    exact ⟨groups, (hmem groups).mpr hsplit, hdue⟩

/-- A token yields the part, if the part is one that the recognizer can be asked
about below the top: without empty groups only parts that are not empty. -/
def Possible (recognizer : TopDown) (token : Token) (part : Phrase) : Prop :=
  (recognizer.allowEmpty = false → part ≠ []) →
    ∃ height, Yields recognizer.grammar recognizer.allowEmpty height [token] part

/-- A form yields the part at a height at which no active goal is yielded. -/
def Due (recognizer : TopDown) (input : Phrase) (active : List Goal) (form part : Phrase) :
    Prop :=
  ∃ height, Yields recognizer.grammar recognizer.allowEmpty height form part ∧
    ∀ goal ∈ active, ¬ Yields recognizer.grammar recognizer.allowEmpty height [goal.token]
      (input.span goal.start goal.stop)

theorem matchForm_nil {matchToken : Token → Nat → Nat → Search Bool} {start stop : Nat}
    (hbounds : start ≤ stop ∧ stop ≤ input.length) :
    recognizer.matchForm input matchToken [] start stop =
      pure (input.span start stop).isEmpty := by
  rw [matchForm, Phrase.slice_eq_ok hbounds]
  rfl

theorem matchForm_of_ne_nil {matchToken : Token → Nat → Nat → Search Bool} {form : Phrase}
    {start stop : Nat} (hbounds : start ≤ stop ∧ stop ≤ input.length) (hform : form ≠ []) :
    recognizer.matchForm input matchToken form start stop =
      if recognizer.rejects form (input.span start stop) then pure false
      else recognizer.matchSplits matchToken form (input.span start stop) start := by
  have hempty : form.isEmpty = false := by simpa using hform
  rw [matchForm, Phrase.slice_eq_ok hbounds]
  show (if form.isEmpty = true then _ else _ : Search Bool) = _
  rw [hempty]
  rfl

theorem Possible.of_forall₂ {form : Phrase} {groups : List Phrase}
    (hne : recognizer.allowEmpty = false → ∀ group ∈ groups, group ≠ [])
    (h : List.Forall₂ recognizer.Possible form groups) :
    ∃ height, Yields recognizer.grammar recognizer.allowEmpty height form groups.flatten := by
  apply Yields.of_parts
  induction h with
  | nil => exact .nil
  | cons hfirst _ ih =>
      refine .cons (hfirst fun hfalse => hne hfalse _ List.mem_cons_self) (ih ?_)
      exact fun hfalse group hgroup => hne hfalse group (List.mem_cons_of_mem _ hgroup)

/-- A form that is due has a split all of whose groups are due. -/
theorem Due.exists_split {form part : Phrase} (h : recognizer.Due input active form part) :
    ∃ groups, IsSplit part form.length recognizer.allowEmpty groups ∧
      List.Forall₂ (fun token group => recognizer.Due input active [token] group) form groups := by
  obtain ⟨height, hyields, hactive⟩ := h
  obtain ⟨groups, hflatten, hgroups⟩ := hyields.exists_parts
  refine ⟨groups, ⟨hgroups.length_eq.symm, hflatten, fun hfalse => ?_⟩, ?_⟩
  · rw [hfalse] at hgroups
    exact Yields.parts_ne_nil hgroups
  · exact hgroups.imp fun token group hgroup => ⟨height, hgroup, hactive⟩

/-- A search that settles tokens settles forms. -/
theorem matchForm_answers {matchToken : Token → Nat → Nat → Search Bool}
    (form : Phrase) {start stop : Nat} (hknows : recognizer.KnowsNullable)
    (htokens : SettlesTokens input matchToken active recognizer.Possible
      fun token part => recognizer.Due input active [token] part)
    (hstart : start ≤ stop) (hstop : stop ≤ input.length) :
    Answers (recognizer.matchForm input matchToken form start stop) active
      (∃ height, Yields recognizer.grammar recognizer.allowEmpty height form
        (input.span start stop))
      (recognizer.Due input active form (input.span start stop)) := by
  by_cases hform : form = []
  · subst hform
    rw [matchForm_nil ⟨hstart, hstop⟩]
    refine Answers.of_run rfl ?_ ?_
    · intro hempty
      rw [List.isEmpty_iff.mp hempty]
      exact ⟨0, .nil 0⟩
    · rintro ⟨height, hyields, _⟩
      exact List.isEmpty_iff.mpr hyields.eq_nil
  · rw [matchForm_of_ne_nil ⟨hstart, hstop⟩ hform]
    cases hrejects : recognizer.rejects form (input.span start stop) with
    | true =>
        -- A form that is due yields the part, and no such form is rejected.
        refine Answers.of_run rfl (fun hfalse => nomatch hfalse) ?_
        rintro ⟨height, hyields, _⟩
        rw [rejects_eq_false hknows hyields] at hrejects
        cases hrejects
    | false =>
        have hrefusal := refusal?_eq_none hform hrejects
        refine (matchSplits_answers htokens hstart hstop hrefusal).imp ?_ Due.exists_split
        rintro ⟨groups, hsplit, hpossible⟩
        have hyields := Possible.of_forall₂ hsplit.ne_nil hpossible
        rwa [hsplit.flatten_eq] at hyields

/-! ### Goals -/

/-- The parts of an input of `size` tokens, by their positions. -/
def ranges (size : Nat) : List (Nat × Nat) :=
  (List.range (size + 1)).flatMap fun stop => (List.range (stop + 1)).map fun start => (start, stop)

theorem mem_ranges {size start stop : Nat} :
    (start, stop) ∈ ranges size ↔ start ≤ stop ∧ stop ≤ size := by
  simp only [ranges, List.mem_flatMap, List.mem_range, List.mem_map, Prod.mk.injEq]
  constructor
  · rintro ⟨_, hstop, _, hstart, rfl, rfl⟩
    omega
  · rintro ⟨hstart, hstop⟩
    exact ⟨stop, by omega, start, by omega, rfl, rfl⟩

theorem two_mul_length_ranges (size : Nat) :
    2 * (ranges size).length = (size + 1) * (size + 2) := by
  induction size with
  | zero => rfl
  | succ size ih =>
      have hsucc : (ranges (size + 1)).length = (ranges size).length + (size + 2) := by
        rw [ranges, List.range_succ, List.flatMap_append, List.length_append]
        simp [ranges]
      rw [hsucc, Nat.mul_add, ih]
      ring

theorem length_ranges (size : Nat) : (ranges size).length = (size + 1) * (size + 2) / 2 := by
  have htwice := two_mul_length_ranges size
  omega

/-- The goals that can become active: the left-hand token of a context-free rule
over any part of the input. -/
def goals (recognizer : TopDown) (input : Phrase) : List Goal :=
  recognizer.grammar.contextFreeRules.flatMap fun rule =>
    rule.lhs.flatMap fun token =>
      (ranges input.length).map fun range => ⟨token, range.1, range.2⟩

theorem mem_goals {goal : Goal} :
    goal ∈ recognizer.goals input ↔
      (∃ rule ∈ recognizer.grammar.contextFreeRules, goal.token ∈ rule.lhs) ∧
        goal.start ≤ goal.stop ∧ goal.stop ≤ input.length := by
  rw [← mem_ranges]
  simp only [goals, List.mem_flatMap, List.mem_map]
  constructor
  · rintro ⟨rule, hrule, token, htoken, range, hrange, rfl⟩
    exact ⟨⟨rule, hrule, htoken⟩, hrange⟩
  · rintro ⟨⟨rule, hrule, htoken⟩, hrange⟩
    exact ⟨rule, hrule, goal.token, htoken, (goal.start, goal.stop), hrange, rfl⟩

theorem length_goals (recognizer : TopDown) (input : Phrase) :
    (recognizer.goals input).length =
      recognizer.grammar.contextFreeRules.length *
        ((input.length + 1) * (input.length + 2) / 2) := by
  have hlength : ∀ rule ∈ recognizer.grammar.contextFreeRules,
      (rule.lhs.flatMap fun token => (ranges input.length).map fun range =>
        (⟨token, range.1, range.2⟩ : Goal)).length =
        (input.length + 1) * (input.length + 2) / 2 := by
    intro rule hrule
    obtain ⟨_, token, hlhs, _⟩ := Grammar.mem_contextFreeRules.mp hrule
    simp [hlhs, length_ranges]
  rw [goals, List.length_flatMap, List.map_congr_left hlength]
  simp

/-- The active goals are goals of the recognizer, each at most once. -/
structure ActiveGoals (recognizer : TopDown) (input : Phrase) (active : List Goal) : Prop where
  nodup : active.Nodup
  subset : active ⊆ recognizer.goals input

theorem ActiveGoals.length_le (h : recognizer.ActiveGoals input active) :
    active.length ≤ (recognizer.goals input).length :=
  h.nodup.length_le_of_subset h.subset

/-- A token with a rule, over any part of the input, is a goal. -/
theorem mem_goals_of_rule {token : Token} {rule : Rule} {start stop : Nat}
    (hterminal : recognizer.grammar.isTerminal token = false)
    (hrule : recognizer.grammar.ruleFor? token = some rule)
    (hstart : start ≤ stop) (hstop : stop ≤ input.length) :
    (⟨token, start, stop⟩ : Goal) ∈ recognizer.goals input := by
  obtain ⟨alternative, halternative⟩ := List.exists_mem_of_ne_nil _ rule.alternatives_ne_nil
  obtain ⟨rule', hrule', hlhs, _⟩ := Grammar.contextFreeProduction_iff.mpr
    ⟨hterminal, rule, hrule, halternative⟩
  exact mem_goals.mpr ⟨⟨rule', hrule', by simp [hlhs]⟩, hstart, hstop⟩

/-- A goal whose token has a rule can become active, unless it is active already. -/
theorem ActiveGoals.cons {token : Token} {rule : Rule} {start stop : Nat}
    (h : recognizer.ActiveGoals input active)
    (hterminal : recognizer.grammar.isTerminal token = false)
    (hrule : recognizer.grammar.ruleFor? token = some rule)
    (hstart : start ≤ stop) (hstop : stop ≤ input.length)
    (hnot : (⟨token, start, stop⟩ : Goal) ∉ active) :
    recognizer.ActiveGoals input (⟨token, start, stop⟩ :: active) :=
  ⟨List.nodup_cons.mpr ⟨hnot, h.nodup⟩, List.cons_subset.mpr
    ⟨mem_goals_of_rule hterminal hrule hstart hstop, h.subset⟩⟩

/-- The goals that are not active.  The active ones may be any, also such as are no goals of the
recognizer. -/
def openGoals (recognizer : TopDown) (input : Phrase) (active : List Goal) : List Goal :=
  (recognizer.goals input).filter fun goal => goal ∉ active

theorem length_openGoals_le (recognizer : TopDown) (input : Phrase) (active : List Goal) :
    (recognizer.openGoals input active).length ≤ (recognizer.goals input).length :=
  List.length_filter_le _ _

/-- One goal fewer is open when a goal becomes active. -/
theorem length_openGoals_cons_lt {goal : Goal} (hgoal : goal ∈ recognizer.goals input)
    (hnot : goal ∉ active) :
    (recognizer.openGoals input (goal :: active)).length <
      (recognizer.openGoals input active).length := by
  have hfilter : recognizer.openGoals input (goal :: active) =
      (recognizer.openGoals input active).filter fun other => other ≠ goal := by
    simp [openGoals, List.filter_filter]
  rw [hfilter, List.length_filter_lt_length_iff_exists]
  exact ⟨goal, by simp [openGoals, hgoal, hnot], by simp⟩

/-! ### One goal -/

/-- One goal is settled by means of a search for its alternatives. -/
def expand (recognizer : TopDown) (input : Phrase)
    (matchForm : Phrase → Nat → Nat → Search Bool) (token : Token) (start stop : Nat) :
    Search Bool := do
  let group ← input.slice start stop
  if recognizer.grammar.isTerminal token then
    return group = [token]
  else
    match recognizer.grammar.ruleFor? token with
    | none => return false
    | some rule =>
        let goal : Goal := ⟨token, start, stop⟩
        if (← get).contains goal then
          return false
        else
          modify fun active => goal :: active
          let matched ← rule.alternatives.anyM fun alternative => matchForm alternative start stop
          modify fun active => active.erase goal
          return matched

theorem matchToken_succ (recognizer : TopDown) (input : Phrase) (depth : Nat) (token : Token)
    (start stop : Nat) :
    recognizer.matchToken input (depth + 1) token start stop =
      recognizer.expand input (recognizer.matchForm input (recognizer.matchToken input depth))
        token start stop := rfl

section Goal

variable {matchForm : Phrase → Nat → Nat → Search Bool} {token : Token} {start stop : Nat}

theorem run_expand_terminal (hbounds : start ≤ stop ∧ stop ≤ input.length)
    (hterminal : recognizer.grammar.isTerminal token = true) :
    (recognizer.expand input matchForm token start stop).run active =
      .ok (decide (input.span start stop = [token]), active) := by
  rw [expand, Phrase.slice_eq_ok hbounds]
  show StateT.run (if recognizer.grammar.isTerminal token = true then _ else _) active = _
  rw [if_pos hterminal]
  rfl

theorem run_expand_none (hbounds : start ≤ stop ∧ stop ≤ input.length)
    (hterminal : recognizer.grammar.isTerminal token = false)
    (hrule : recognizer.grammar.ruleFor? token = none) :
    (recognizer.expand input matchForm token start stop).run active =
      .ok (false, active) := by
  rw [expand, Phrase.slice_eq_ok hbounds]
  show StateT.run (if recognizer.grammar.isTerminal token = true then _ else _) active = _
  rw [hterminal, hrule]
  rfl

/-- A goal with a rule fails if it is active; otherwise it is active while the
alternatives are tried. -/
theorem run_expand_some {rule : Rule} (hbounds : start ≤ stop ∧ stop ≤ input.length)
    (hterminal : recognizer.grammar.isTerminal token = false)
    (hrule : recognizer.grammar.ruleFor? token = some rule) :
    (recognizer.expand input matchForm token start stop).run active =
      if active.contains ⟨token, start, stop⟩ then .ok (false, active)
      else (rule.alternatives.anyM fun alternative => matchForm alternative start stop).run
          (⟨token, start, stop⟩ :: active) >>=
        fun result => .ok (result.1, result.2.erase ⟨token, start, stop⟩) := by
  rw [expand, Phrase.slice_eq_ok hbounds]
  show StateT.run (if recognizer.grammar.isTerminal token = true then _ else _) active = _
  rw [hterminal, hrule]
  show StateT.run (if active.contains ⟨token, start, stop⟩ = true then _ else _ : Search Bool)
    active = _
  split <;> rfl

theorem run_expand_active {rule : Rule} (hbounds : start ≤ stop ∧ stop ≤ input.length)
    (hterminal : recognizer.grammar.isTerminal token = false)
    (hrule : recognizer.grammar.ruleFor? token = some rule)
    (hactive : (⟨token, start, stop⟩ : Goal) ∈ active) :
    (recognizer.expand input matchForm token start stop).run active =
      .ok (false, active) := by
  have hcontains : active.contains ⟨token, start, stop⟩ = true := by simpa using hactive
  rw [run_expand_some hbounds hterminal hrule, if_pos hcontains]

theorem run_expand_rule {rule : Rule} {matched : Bool}
    (hbounds : start ≤ stop ∧ stop ≤ input.length)
    (hterminal : recognizer.grammar.isTerminal token = false)
    (hrule : recognizer.grammar.ruleFor? token = some rule)
    (hactive : (⟨token, start, stop⟩ : Goal) ∉ active)
    (hrun : (rule.alternatives.anyM fun alternative => matchForm alternative start stop).run
        (⟨token, start, stop⟩ :: active) =
      .ok (matched, ⟨token, start, stop⟩ :: active)) :
    (recognizer.expand input matchForm token start stop).run active =
      .ok (matched, active) := by
  have hcontains : ¬ active.contains ⟨token, start, stop⟩ = true := by simpa using hactive
  rw [run_expand_some hbounds hterminal hrule, if_neg hcontains, hrun]
  show Except.ok (matched, (⟨token, start, stop⟩ :: active).erase ⟨token, start, stop⟩) = _
  rw [List.erase_cons_head]

end Goal

/-- The alternative of a due goal is due below the goal: at the least height at which
the goal is yielded, its alternative yields the part at a height at which it is not. -/
theorem Due.exists_alternative {token : Token} {start stop : Nat}
    (hterminal : recognizer.grammar.isTerminal token = false)
    (h : recognizer.Due input active [token] (input.span start stop)) :
    ∃ alternative, recognizer.grammar.ContextFreeProduction [token] alternative ∧
      recognizer.Due input (⟨token, start, stop⟩ :: active) alternative
        (input.span start stop) := by
  classical
  obtain ⟨height, hyields, hactive⟩ := h
  have hexists : ∃ least, Yields recognizer.grammar recognizer.allowEmpty least [token]
      (input.span start stop) := ⟨height, hyields⟩
  -- Below the least height the goal is not yielded, so it may join the active goals; the goals
  -- that are active already are not yielded at a greater height, still less at a smaller one.
  have hleast := Nat.find_spec hexists
  have hbelow : Nat.find hexists ≤ height := Nat.find_min' hexists hyields
  obtain ⟨less, alternative, hless, hproduction, hinner⟩ := hleast.exists_production hterminal
  refine ⟨alternative, hproduction.1, less, hinner, List.forall_mem_cons.mpr ⟨?_, ?_⟩⟩
  · exact Nat.find_min hexists (by omega)
  · intro goal hgoal hyieldsGoal
    exact hactive goal hgoal (hyieldsGoal.mono (by omega))

/-- Tokens are settled, whatever goals are active, if the depth is enough for those that are
not. -/
theorem matchToken_answers (hknows : recognizer.KnowsNullable) {depth : Nat}
    (hdepth : (recognizer.openGoals input active).length < depth) :
    SettlesTokens input (recognizer.matchToken input depth) active recognizer.Possible
      fun token part => recognizer.Due input active [token] part := by
  induction depth generalizing active with
  | zero =>
      -- Depth is spent only when goals become active, and there are not enough goals for that.
      exact absurd hdepth (Nat.not_lt_zero _)
  | succ depth ih =>
      intro token start stop hstart hstop
      rw [matchToken_succ]
      cases hterminal : recognizer.grammar.isTerminal token with
      | true =>
          refine .of_run (run_expand_terminal ⟨hstart, hstop⟩ hterminal) ?_ ?_
          · intro hgroup _
            rw [of_decide_eq_true hgroup]
            exact ⟨0, .of_terminal 0 hterminal⟩
          · rintro ⟨height, hyields, _⟩
            exact decide_eq_true (hyields.eq_of_terminal hterminal)
      | false =>
          cases hrule : recognizer.grammar.ruleFor? token with
          | none =>
              refine .of_run (run_expand_none ⟨hstart, hstop⟩ hterminal hrule)
                (fun hfalse => nomatch hfalse) fun hdue => ?_
              obtain ⟨alternative, hproduction, _⟩ := hdue.exists_alternative hterminal
              obtain ⟨_, rule, hrule', _⟩ := Grammar.contextFreeProduction_iff.mp hproduction
              rw [hrule] at hrule'
              cases hrule'
          | some rule =>
              by_cases hmem : (⟨token, start, stop⟩ : Goal) ∈ active
              · -- The search fails here without trying anything.  That is no mistake, because an
                -- active goal is not due.
                refine .of_run (run_expand_active ⟨hstart, hstop⟩ hterminal hrule hmem)
                  (fun hfalse => nomatch hfalse) ?_
                rintro ⟨height, hyields, hnone⟩
                exact absurd hyields (hnone _ hmem)
              · have hgoal := mem_goals_of_rule hterminal hrule hstart hstop
                have hfewer := length_openGoals_cons_lt hgoal hmem
                have hbelow := ih (Nat.lt_of_lt_of_le hfewer (Nat.le_of_lt_succ hdepth))
                obtain ⟨matched, hrun, hsound, hcomplete⟩ := Answers.anyM
                  fun alternative (_ : alternative ∈ rule.alternatives) =>
                    matchForm_answers alternative hknows hbelow hstart hstop
                refine .of_run (run_expand_rule ⟨hstart, hstop⟩ hterminal hrule hmem hrun)
                  ?_ ?_
                · intro hmatched hpart
                  obtain ⟨alternative, halternative, height, hyields⟩ := hsound hmatched
                  have hproduction := Grammar.contextFreeProduction_iff.mpr
                    ⟨hterminal, rule, hrule, halternative⟩
                  refine ⟨height + 1, .of_production ⟨hproduction, ?_⟩ hyields⟩
                  rintro hfalse rfl
                  exact hpart hfalse hyields.eq_nil
                · intro hdue
                  obtain ⟨alternative, hproduction, hdue'⟩ := hdue.exists_alternative hterminal
                  obtain ⟨_, rule', hrule', halternative⟩ :=
                    Grammar.contextFreeProduction_iff.mp hproduction
                  rw [hrule] at hrule'
                  cases hrule'
                  exact hcomplete ⟨alternative, halternative, hdue'⟩

end TopDown
end PhraseStructure
