import Mathlib.Data.List.Nodup
import Mathlib.Data.List.Perm.Basic
import PhraseStructure.Grammar.Basic
import PhraseStructure.Proofs.Grouping

/-!
# Building rules and grammars

A rule or a grammar is built from its own parts as itself: there is nothing to merge
and nothing to drop.  In general building a rule drops repeated alternatives, and
building a grammar keeps the productions of the rules and so their tokens.

The order of alternatives and of rules is kept only as far as first occurrences go.
-/

namespace PhraseStructure

namespace Rule

theorem eq_of_parts {left right : Rule} (hlhs : left.lhs = right.lhs)
    (halternatives : left.alternatives = right.alternatives) : left = right := by
  cases left
  cases right
  cases hlhs
  cases halternatives
  rfl

/-- A rule is built from its own parts as itself. -/
theorem make_self (rule : Rule) : make rule.lhs rule.alternatives = .ok rule := by
  obtain ⟨lhs, alternatives, hlhs, halternatives, hnodup⟩ := rule
  simp only [make, hlhs, halternatives, dif_neg, not_false_eq_true, eraseDups_eq_self hnodup]

/-- Nothing but an empty part keeps a rule from being built. -/
theorem exists_make_of_ne_nil {lhs : Phrase} {alternatives : List Phrase} (hlhs : lhs ≠ [])
    (halternatives : alternatives ≠ []) :
    ∃ rule, make lhs alternatives = .ok rule ∧ rule.lhs = lhs ∧
      rule.alternatives = alternatives.eraseDups := by
  unfold make
  rw [dif_neg hlhs, dif_neg halternatives]
  exact ⟨_, rfl, rfl, rfl⟩

/-! ### Merging -/

theorem absorb_of_not_mem {rule : Rule} {rules : List Rule} (h : rule.lhs ∉ rules.map lhs) :
    absorb rule rules = rules ++ [rule] := by
  induction rules with
  | nil => rfl
  | cons first rules ih =>
      rw [List.map_cons, List.mem_cons, not_or] at h
      have hne : ¬ first.lhs = rule.lhs := fun heq => h.1 heq.symm
      rw [absorb, if_neg hne, ih h.2, List.cons_append]

/-- Rules with distinct left-hand phrases are not merged. -/
theorem mergeAll_eq_self {rules : List Rule} (h : (rules.map lhs).Nodup) :
    mergeAll rules = rules := by
  have hfold : ∀ merged, ((merged ++ rules).map lhs).Nodup →
      rules.foldl (fun merged rule => absorb rule merged) merged = merged ++ rules := by
    clear h
    induction rules with
    | nil => simp
    | cons rule rules ih =>
        intro merged hnodup
        have hnot : rule.lhs ∉ merged.map lhs := by
          rw [List.map_append, List.map_cons] at hnodup
          intro hmem
          exact List.disjoint_of_nodup_append hnodup hmem List.mem_cons_self
        rw [List.foldl_cons, absorb_of_not_mem hnot, ih _ (by simpa using hnodup),
          List.append_assoc, List.singleton_append]
  exact hfold [] h

/-- Some rule of a list has the left-hand phrase and the alternative. -/
def Produces (rules : List Rule) (lhs alternative : Phrase) : Prop :=
  ∃ rule ∈ rules, rule.lhs = lhs ∧ alternative ∈ rule.alternatives

theorem produces_cons {rule : Rule} {rules : List Rule} {left alternative : Phrase} :
    Produces (rule :: rules) left alternative ↔
      (rule.lhs = left ∧ alternative ∈ rule.alternatives) ∨ Produces rules left alternative := by
  simp [Produces]

theorem produces_absorb {rule : Rule} {rules : List Rule} {left alternative : Phrase} :
    Produces (absorb rule rules) left alternative ↔
      (rule.lhs = left ∧ alternative ∈ rule.alternatives) ∨ Produces rules left alternative := by
  induction rules with
  | nil => exact produces_cons
  | cons first rules ih =>
      rw [absorb]
      split
      · rename_i hlhs
        rw [produces_cons, produces_cons, lhs_extend, mem_alternatives_extend, and_or_left, hlhs,
          or_comm (a := _ ∧ alternative ∈ first.alternatives), or_assoc]
      · rw [produces_cons, produces_cons, ih]
        exact or_left_comm

/-- Merging keeps the productions. -/
theorem produces_mergeAll {rules : List Rule} {left alternative : Phrase} :
    Produces (mergeAll rules) left alternative ↔ Produces rules left alternative := by
  have hfold : ∀ merged, Produces (rules.foldl (fun merged rule => absorb rule merged) merged)
      left alternative ↔ Produces rules left alternative ∨ Produces merged left alternative := by
    induction rules with
    | nil => simp [Produces]
    | cons rule rules ih =>
        intro merged
        rw [List.foldl_cons, ih, produces_absorb, produces_cons, or_assoc]
        exact or_left_comm
  have hnil : ¬ Produces [] left alternative := by simp [Produces]
  exact (hfold []).trans (or_iff_left hnil)

theorem exists_mem_alternatives (rule : Rule) : ∃ alternative, alternative ∈ rule.alternatives :=
  List.exists_mem_of_ne_nil _ rule.alternatives_ne_nil

/-- The tokens of rules are those of their productions. -/
theorem exists_mem_tokens_iff {rules : List Rule} {token : Token} :
    (∃ rule ∈ rules, token ∈ rule.tokens) ↔
      ∃ left alternative, Produces rules left alternative ∧
        (token ∈ left ∨ token ∈ alternative) := by
  constructor
  · rintro ⟨rule, hrule, htoken⟩
    rcases mem_tokens.mp htoken with hlhs | ⟨alternative, halternative, htoken⟩
    · obtain ⟨alternative, hmem⟩ := rule.exists_mem_alternatives
      exact ⟨rule.lhs, alternative, ⟨rule, hrule, rfl, hmem⟩, .inl hlhs⟩
    · exact ⟨rule.lhs, alternative, ⟨rule, hrule, rfl, halternative⟩, .inr htoken⟩
  · rintro ⟨left, alternative, ⟨rule, hrule, rfl, halternative⟩, htoken⟩
    refine ⟨rule, hrule, mem_tokens.mpr ?_⟩
    exact htoken.imp id fun hmem => ⟨alternative, halternative, hmem⟩

/-- Merging loses no token. -/
theorem exists_mem_tokens_mergeAll_iff {rules : List Rule} {token : Token} :
    (∃ rule ∈ mergeAll rules, token ∈ rule.tokens) ↔ ∃ rule ∈ rules, token ∈ rule.tokens := by
  simp only [exists_mem_tokens_iff, produces_mergeAll]

end Rule

namespace Grammar

theorem missing_tokens_eq_nil_iff {sorts : SortTable} {rules : List Rule} :
    sorts.missing (rules.flatMap Rule.tokens) = [] ↔
      ∀ rule ∈ rules, ∀ token ∈ rule.tokens, sorts.contains token = true := by
  rw [SortTable.missing_eq_nil_iff, List.forall_mem_flatMap]

/-- Nothing but an unclassified token keeps a grammar from being built. -/
theorem exists_make_of_classified {sorts : SortTable} {rules : List Rule} {start : Token}
    (hrules : ∀ rule ∈ rules, ∀ token ∈ rule.tokens, sorts.contains token = true)
    (hstart : sorts.contains start = true) :
    ∃ grammar, make sorts rules start = .ok grammar ∧ grammar.sorts = sorts ∧
      grammar.rules = Rule.mergeAll rules ∧ grammar.start = start := by
  unfold make
  rw [dif_pos (missing_tokens_eq_nil_iff.mpr hrules), dif_pos hstart]
  exact ⟨_, rfl, rfl, rfl, rfl⟩

theorem eq_of_parts {left right : Grammar} (hsorts : left.sorts = right.sorts)
    (hrules : left.rules = right.rules) (hstart : left.start = right.start) : left = right := by
  cases left
  cases right
  cases hsorts
  cases hrules
  cases hstart
  rfl

/-- A grammar is built from its own parts as itself. -/
theorem make_self (grammar : Grammar) :
    make grammar.sorts grammar.rules grammar.start = .ok grammar := by
  obtain ⟨built, hmake, hsorts, hrules, hstart⟩ :=
    exists_make_of_classified grammar.classified grammar.start_classified
  rw [Rule.mergeAll_eq_self grammar.nodup] at hrules
  rw [hmake, eq_of_parts hsorts hrules hstart]

theorem of_make {sorts : SortTable} {rules : List Rule} {start : Token} {grammar : Grammar}
    (h : make sorts rules start = .ok grammar) :
    grammar.sorts = sorts ∧ grammar.rules = Rule.mergeAll rules ∧ grammar.start = start := by
  unfold make at h
  split at h
  · split at h
    · cases h
      exact ⟨rfl, rfl, rfl⟩
    · cases h
  · cases h

end Grammar
end PhraseStructure
