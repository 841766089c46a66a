import PhraseStructure.Proofs.Partition.Listing
import PhraseStructure.Proofs.TopDown.Nesting
import PhraseStructure.Proofs.TopDown.Recognition

/-!
# Early rejection changes no verdict

The search by trial differs from the search in one thing: it rejects no form early.  Every
form is tried on all splits of its part.  A part that is too short for the form has no splits
without empty groups, and then there is nothing to try.  A goal that is active already fails
in both searches.

Both give the same verdict whatever goals are active.  That a rejected form yields nothing is
not all there is to it, because the verdicts on the groups depend on the active goals too.  But
an active goal can only turn a positive verdict into a negative one.  A positive verdict is
right in any case, and a form all of whose tokens yield their groups is not rejected.
-/

namespace PhraseStructure
namespace TopDown

/-- A form matches the part of the input from `start` to `stop`, by trial of all splits. -/
def matchFormByTrial (recognizer : TopDown) (input : Phrase)
    (matchToken : Token → Nat → Nat → Search Bool) (form : Phrase) (start stop : Nat) :
    Search Bool := do
  let part ← input.slice start stop
  if form.isEmpty then
    return part.isEmpty
  else
    match Splits.make part form.length recognizer.allowEmpty with
    | .error _ => return false
    | .ok splits => splits.anyM (matchGroups matchToken start form)

/-- A token matches the part of the input from `start` to `stop`, with at most `depth` goals
nested and the alternatives tried on all splits. -/
def matchTokenByTrial (recognizer : TopDown) (input : Phrase) :
    Nat → Token → Nat → Nat → Search Bool
  | 0, _, _, _ => throw .depth
  | depth + 1, token, start, stop =>
      recognizer.expand input
        (recognizer.matchFormByTrial input (matchTokenByTrial recognizer input depth))
        token start stop

variable {recognizer : TopDown} {input : Phrase} {active : List Goal}

/-! ### One form -/

section Form

variable {matchToken matchToken' : Token → Nat → Nat → Search Bool} {form : Phrase}
  {groups : List Phrase} {start stop : Nat}

theorem matchFormByTrial_nil (hbounds : start ≤ stop ∧ stop ≤ input.length) :
    recognizer.matchFormByTrial input matchToken [] start stop =
      pure (input.span start stop).isEmpty := by
  rw [matchFormByTrial, Phrase.slice_eq_ok hbounds]
  rfl

theorem matchFormByTrial_of_ne_nil (hbounds : start ≤ stop ∧ stop ≤ input.length)
    (hform : form ≠ []) :
    recognizer.matchFormByTrial input matchToken form start stop =
      match Splits.refusal? (input.span start stop).length form.length recognizer.allowEmpty with
      | some _ => pure false
      | none => recognizer.matchSplits matchToken form (input.span start stop) start := by
  have hempty : form.isEmpty = false := by simpa using hform
  rw [matchFormByTrial, Phrase.slice_eq_ok hbounds]
  show (if form.isEmpty = true then _ else _ : Search Bool) = _
  rw [hempty]
  cases hrefusal : Splits.refusal? (input.span start stop).length form.length
      recognizer.allowEmpty with
  | some error => rw [Splits.make_of_refusal? hrefusal]; rfl
  | none =>
      rw [Splits.make_of_refusal?_eq_none hrefusal, matchSplits, Splits.trusted_eq_all hrefusal]
      rfl

/-- Outside the input both searches stop at the same fault. -/
theorem matchForm_eq_byTrial_of_not (hbounds : ¬ (start ≤ stop ∧ stop ≤ input.length)) :
    recognizer.matchForm input matchToken form start stop =
      recognizer.matchFormByTrial input matchToken' form start stop := by
  rw [matchForm, matchFormByTrial, Phrase.slice_eq_error hbounds]
  rfl

/-- In no split of the part do all groups suit a rejected form. -/
theorem not_forall₂_possible_of_rejects {part : Phrase} (hknows : recognizer.KnowsNullable)
    (hrejects : recognizer.rejects form part = true)
    (hgroups : IsSplit part form.length recognizer.allowEmpty groups) :
    ¬ List.Forall₂ recognizer.Possible form groups := by
  intro hpossible
  obtain ⟨height, hyields⟩ := Possible.of_forall₂ hgroups.ne_nil hpossible
  rw [hgroups.flatten_eq] at hyields
  rw [rejects_eq_false hknows hyields] at hrejects
  cases hrejects

variable {due : Token → Phrase → Prop}

/-- No split lets a rejected form match token by token. -/
theorem matchGroups_of_rejects (hknows : recognizer.KnowsNullable)
    (htokens : SettlesTokens input matchToken active recognizer.Possible due)
    (hstart : start ≤ stop) (hstop : stop ≤ input.length)
    (hrejects : recognizer.rejects form (input.span start stop) = true)
    (hgroups : IsSplit (input.span start stop) form.length recognizer.allowEmpty groups) :
    (matchGroups matchToken start form groups).run active = .ok (false, active) :=
  (matchGroups_answers htokens hstart hstop hgroups.flatten_eq.symm
    hgroups.length_eq.symm).run_eq_false (not_forall₂_possible_of_rejects hknows hrejects hgroups)

theorem matchSplits_of_rejects (hknows : recognizer.KnowsNullable)
    (htokens : SettlesTokens input matchToken active recognizer.Possible due)
    (hstart : start ≤ stop) (hstop : stop ≤ input.length)
    (hrejects : recognizer.rejects form (input.span start stop) = true)
    (hrefusal : Splits.refusal? (input.span start stop).length form.length
      recognizer.allowEmpty = none) :
    (recognizer.matchSplits matchToken form (input.span start stop) start).run active =
      .ok (false, active) := by
  refine (matchSplits_answers htokens hstart hstop hrefusal).run_eq_false ?_
  rintro ⟨groups, hgroups, hpossible⟩
  exact not_forall₂_possible_of_rejects hknows hrejects hgroups hpossible

/-- Searches that agree on tokens settle the same. -/
theorem SettlesTokens.of_agree {possible : Token → Phrase → Prop}
    (htokens : SettlesTokens input matchToken active possible due)
    (h : ∀ token left right, left ≤ right → right ≤ input.length →
      Agree (matchToken token left right) (matchToken' token left right) active) :
    SettlesTokens input matchToken' active possible due := by
  intro token left right hle hright
  obtain ⟨verdict, hrun, hrun'⟩ := h token left right hle hright
  obtain ⟨verdict', hrun'', hsound, hcomplete⟩ := htokens token left right hle hright
  rw [hrun] at hrun''
  cases hrun''
  exact .of_run hrun' hsound hcomplete

/-- A form matches in the same parts by trial, if the tokens do. -/
theorem matchForm_agree_byTrial (hknows : recognizer.KnowsNullable)
    (htokens : SettlesTokens input matchToken active recognizer.Possible due)
    (h : ∀ token left right, left ≤ right → right ≤ input.length →
      Agree (matchToken token left right) (matchToken' token left right) active)
    (hstart : start ≤ stop) (hstop : stop ≤ input.length) :
    Agree (recognizer.matchForm input matchToken form start stop)
      (recognizer.matchFormByTrial input matchToken' form start stop) active := by
  by_cases hform : form = []
  · subst hform
    rw [matchForm_nil ⟨hstart, hstop⟩, matchFormByTrial_nil ⟨hstart, hstop⟩]
    exact .pure _ active
  rw [matchForm_of_ne_nil ⟨hstart, hstop⟩ hform,
    matchFormByTrial_of_ne_nil ⟨hstart, hstop⟩ hform]
  cases hrejects : recognizer.rejects form (input.span start stop) with
  | false =>
      have hrefusal := refusal?_eq_none hform hrejects
      rw [hrefusal]
      refine matchSplits_agree hstart hstop hrefusal ?_
      intro token _ left right _ hle hright
      exact h token left right hle (Nat.le_trans hright hstop)
  | true =>
      cases hrefusal : Splits.refusal? (input.span start stop).length form.length
          recognizer.allowEmpty with
      | some => exact .pure false active
      | none =>
          exact ⟨false, rfl, matchSplits_of_rejects hknows (htokens.of_agree h) hstart hstop
            hrejects hrefusal⟩

end Form

/-! ### The whole search -/

/-- Tokens match in the same parts by trial, if the depths are enough for the goals that are not
active. -/
theorem matchToken_agree_byTrial (hknows : recognizer.KnowsNullable) {depth trialDepth : Nat}
    (hdepth : (recognizer.openGoals input active).length < depth)
    (htrial : (recognizer.openGoals input active).length < trialDepth) (token : Token)
    {start stop : Nat} (hstart : start ≤ stop) (hstop : stop ≤ input.length) :
    Agree (recognizer.matchToken input depth token start stop)
      (recognizer.matchTokenByTrial input trialDepth token start stop) active := by
  induction depth generalizing active trialDepth token start stop with
  | zero => exact absurd hdepth (Nat.not_lt_zero _)
  | succ depth ih =>
      obtain ⟨trialDepth, rfl⟩ := Nat.exists_eq_add_one_of_ne_zero (Nat.ne_zero_of_lt htrial)
      rw [matchToken_succ, matchTokenByTrial]
      refine expand_agree hstart hstop ?_
      intro rule hterminal hrule hnot alternative _
      -- The goal that joins the active ones is one that the depths need no longer provide for.
      have hfewer := length_openGoals_cons_lt (mem_goals_of_rule hterminal hrule hstart hstop) hnot
      have hdepth' := Nat.lt_of_lt_of_le hfewer (Nat.le_of_lt_succ hdepth)
      have htrial' := Nat.lt_of_lt_of_le hfewer (Nat.le_of_lt_succ htrial)
      refine matchForm_agree_byTrial hknows (matchToken_answers hknows hdepth') ?_ hstart hstop
      intro token left right hle hright
      exact ih hdepth' htrial' token hle hright

/-- For both variants, whatever goals are active, a form has the same outcome between any two
positions by the search and by trial.  Over a part of the input this is a verdict, and the active
goals are as they were.  Where the form is rejected, in neither search does a split of the part
let it match token by token. -/
theorem early_rejection_changes_no_verdict (grammar : Grammar) {variant : Grammar → TopDown}
    (hvariant : variant ∈ [general, epsilonFree]) (input : Phrase) (active : List Goal)
    {depth trialDepth : Nat} (hdepth : (variant grammar).depthBound input ≤ depth)
    (htrial : (variant grammar).depthBound input ≤ trialDepth) (form : Phrase)
    (start stop : Nat) :
    ((variant grammar).matchForm input ((variant grammar).matchToken input depth)
        form start stop).run active =
      ((variant grammar).matchFormByTrial input
        ((variant grammar).matchTokenByTrial input trialDepth) form start stop).run active ∧
      (start ≤ stop → stop ≤ input.length →
        (∃ verdict, ((variant grammar).matchForm input ((variant grammar).matchToken input depth)
          form start stop).run active = .ok (verdict, active)) ∧
        ((variant grammar).rejects form (input.span start stop) = true →
          ∀ groups, IsSplit (input.span start stop) form.length (variant grammar).allowEmpty
              groups →
            (matchGroups ((variant grammar).matchToken input depth) start form groups).run
              active = .ok (false, active) ∧
            (matchGroups ((variant grammar).matchTokenByTrial input trialDepth) start form
              groups).run active = .ok (false, active))) := by
  have hknows := knowsNullable_of_mem hvariant grammar
  have hopen := (variant grammar).length_openGoals_lt_depthBound input active
  have hdepth' := Nat.lt_of_lt_of_le hopen hdepth
  have htrial' := Nat.lt_of_lt_of_le hopen htrial
  have htokens := matchToken_answers hknows hdepth'
  have hagree := fun token left right (hle : left ≤ right) (hright : right ≤ input.length) =>
    matchToken_agree_byTrial hknows hdepth' htrial' token hle hright
  refine ⟨?_, ?_⟩
  · by_cases hbounds : start ≤ stop ∧ stop ≤ input.length
    · obtain ⟨verdict, hrun, hrun'⟩ := matchForm_agree_byTrial hknows htokens hagree
        hbounds.1 hbounds.2
      rw [hrun, hrun']
    · rw [matchForm_eq_byTrial_of_not hbounds]
  · intro hstart hstop
    refine ⟨?_, ?_⟩
    · obtain ⟨verdict, hrun, _⟩ := matchForm_answers form hknows htokens hstart hstop
      exact ⟨verdict, hrun⟩
    · intro hrejects groups hgroups
      exact ⟨matchGroups_of_rejects hknows htokens hstart hstop hrejects hgroups,
        matchGroups_of_rejects hknows (htokens.of_agree hagree) hstart hstop hrejects hgroups⟩

/-- The form has two tokens that are not nullable and the part has one token.  One of the active
goals is a goal of the search, the other one is none. -/
theorem early_rejection_changes_no_verdict_active :
    ∃ grammar, ∃ a s : Token, a.text = ['a'] ∧ s.text = ['S'] ∧
      Grammar.ofTexts [['S']] [['a']] [(['S'], [['S'], ['a']])] ['S'] = .ok grammar ∧
      (general grammar).depthBound [a] = 4 ∧ (general grammar).rejects [a, s] [a] = true ∧
      ((general grammar).matchForm [a] ((general grammar).matchToken [a] 4) [a, s] 0 1).run
          [⟨s, 0, 1⟩, ⟨a, 1, 0⟩] =
        ((general grammar).matchFormByTrial [a] ((general grammar).matchTokenByTrial [a] 5)
          [a, s] 0 1).run [⟨s, 0, 1⟩, ⟨a, 1, 0⟩] ∧
      (matchGroups ((general grammar).matchTokenByTrial [a] 5) 0 [a, s] [[a], []]).run
          [⟨s, 0, 1⟩, ⟨a, 1, 0⟩] = .ok (false, [⟨s, 0, 1⟩, ⟨a, 1, 0⟩]) := by
  obtain ⟨grammar, a, s, ha, hs, hgrammar, hbound, hrejects⟩ :
      ∃ grammar, ∃ a s : Token, a.text = ['a'] ∧ s.text = ['S'] ∧
        Grammar.ofTexts [['S']] [['a']] [(['S'], [['S'], ['a']])] ['S'] = .ok grammar ∧
        (general grammar).depthBound [a] = 4 ∧ (general grammar).rejects [a, s] [a] = true :=
    ⟨_, ⟨['a'], by decide⟩, ⟨['S'], by decide⟩, rfl, rfl, rfl, rfl, by decide +kernel⟩
  have hsplit : IsSplit [a] 2 (general grammar).allowEmpty [[a], []] :=
    ⟨rfl, rfl, fun hfalse => nomatch hfalse⟩
  have hvariant : general ∈ [general, epsilonFree] := List.mem_cons_self
  have hdepth : (general grammar).depthBound [a] ≤ 4 := Nat.le_of_eq hbound
  have htrial : (general grammar).depthBound [a] ≤ 5 := Nat.le_succ_of_le hdepth
  obtain ⟨hsame, hinside⟩ := early_rejection_changes_no_verdict grammar hvariant [a]
    [⟨s, 0, 1⟩, ⟨a, 1, 0⟩] hdepth htrial [a, s] 0 1
  obtain ⟨_, hnone⟩ := hinside (Nat.zero_le 1) (Nat.le_refl 1)
  exact ⟨grammar, a, s, ha, hs, hgrammar, hbound, hrejects, hsame,
    (hnone hrejects _ hsplit).2⟩

end TopDown
end PhraseStructure
