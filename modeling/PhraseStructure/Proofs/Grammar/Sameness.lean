import Mathlib.Data.List.Perm.Subperm
import Mathlib.Data.Set.Basic
import PhraseStructure.Proofs.Grammar.Yield

/-!
# Same rules and same grammars

`Rule.sameAs` and `Grammar.sameAs` compare the lengths of two lists and look for the
elements of the first list in the second.  As nothing is listed twice, this is enough to
find every element of the second list in the first.  So rules are the same exactly if they
have the same left-hand phrase and the same set of alternatives, and grammars are the same
exactly if they have the same start symbol, the same sorts and the same set of rules, each
taken as its left-hand phrase and its set of alternatives.

The rules of two grammars are not compared as such but by `Rule.sameAs`, and there is no
list of distinct elements to count.  The left-hand phrases are distinct, and they stand in
for their rules.  The number of rules matters: without it, a grammar would be the same as
any with more rules.
-/

namespace PhraseStructure

/-- For lists without repetitions containment in a list of the same length is equality of
the sets of elements. -/
theorem length_eq_and_subset_iff {α : Type} {left right : List α} (hleft : left.Nodup)
    (hright : right.Nodup) :
    left.length = right.length ∧ left ⊆ right ↔ ∀ item, item ∈ left ↔ item ∈ right := by
  constructor
  · rintro ⟨hlength, hsubset⟩ item
    have hperm := (List.subperm_of_subset hleft hsubset).perm_of_length_le hlength.ge
    exact hperm.mem_iff
  · intro hmem
    have hperm := (List.perm_ext_iff_of_nodup hleft hright).mpr hmem
    exact ⟨hperm.length_eq, fun item => (hmem item).mp⟩

/-- To have the same value of a function is an equivalence. -/
theorem equivalence_of_iff_eq {α β : Type} {relation : α → α → Prop} (value : α → β)
    (h : ∀ left right, relation left right ↔ value left = value right) :
    Equivalence relation where
  refl item := (h item item).mpr rfl
  symm hsame := (h _ _).mpr ((h _ _).mp hsame).symm
  trans hsame hsame' := (h _ _).mpr (((h _ _).mp hsame).trans ((h _ _).mp hsame'))

namespace Rule

/-- The alternatives without their order. -/
def alternativeSet (rule : Rule) : Set Phrase :=
  {alternative | alternative ∈ rule.alternatives}

/-- The left-hand phrase and the set of alternatives. -/
def content (rule : Rule) : Phrase × Set Phrase :=
  (rule.lhs, rule.alternativeSet)

theorem sameAs_iff {left right : Rule} :
    left.sameAs right = true ↔
      left.lhs = right.lhs ∧
        ∀ alternative, alternative ∈ left.alternatives ↔ alternative ∈ right.alternatives := by
  rw [← length_eq_and_subset_iff left.nodup right.nodup]
  simp only [sameAs, Bool.and_eq_true, decide_eq_true_eq, List.all_eq_true,
    List.contains_iff_mem, and_assoc]
  rfl

theorem perm_of_sameAs {left right : Rule} (h : left.sameAs right = true) :
    left.alternatives.Perm right.alternatives :=
  (List.perm_ext_iff_of_nodup left.nodup right.nodup).mpr (sameAs_iff.mp h).2

theorem sameAs_iff_content_eq {left right : Rule} :
    left.sameAs right = true ↔ left.content = right.content := by
  rw [sameAs_iff, content, content, Prod.mk.injEq, alternativeSet, alternativeSet, Set.ext_iff]
  rfl

end Rule

namespace Grammar

/-- The rules without their order, each with its alternatives without theirs. -/
def ruleSet (grammar : Grammar) : Set (Phrase × Set Phrase) :=
  {content | ∃ rule ∈ grammar.rules, rule.content = content}

variable {left right : Grammar}

/-- The set of rules determines the left-hand phrases. -/
theorem mem_map_lhs_iff {grammar : Grammar} {lhs : Phrase} :
    lhs ∈ grammar.rules.map Rule.lhs ↔ ∃ alternatives, (lhs, alternatives) ∈ grammar.ruleSet := by
  rw [List.mem_map]
  constructor
  · rintro ⟨rule, hrule, rfl⟩
    exact ⟨rule.alternativeSet, rule, hrule, rfl⟩
  · rintro ⟨alternatives, rule, hrule, hcontent⟩
    exact ⟨rule, hrule, congrArg Prod.fst hcontent⟩

theorem exists_sameAs_iff {rule : Rule} :
    (∃ other ∈ right.rules, rule.sameAs other = true) ↔ rule.content ∈ right.ruleSet := by
  simp only [Rule.sameAs_iff_content_eq]
  constructor
  · rintro ⟨other, hother, hcontent⟩
    exact ⟨other, hother, hcontent.symm⟩
  · rintro ⟨other, hother, hcontent⟩
    exact ⟨other, hother, hcontent.symm⟩

/-- As many rules, each of the first grammar's among the second's, is the same set of
rules. -/
theorem ruleSet_eq_iff :
    left.ruleSet = right.ruleSet ↔
      left.rules.length = right.rules.length ∧
        ∀ rule ∈ left.rules, rule.content ∈ right.ruleSet := by
  have hlhs := length_eq_and_subset_iff left.nodup right.nodup
  rw [List.length_map, List.length_map] at hlhs
  constructor
  · intro hsets
    refine ⟨(hlhs.mpr ?_).1, ?_⟩
    · intro lhs
      rw [mem_map_lhs_iff, mem_map_lhs_iff, hsets]
    · intro rule hrule
      rw [← hsets]
      exact ⟨rule, hrule, rfl⟩
  · rintro ⟨hlength, hrules⟩
    have hsubset : left.ruleSet ⊆ right.ruleSet := by
      rintro content ⟨rule, hrule, rfl⟩
      exact hrules rule hrule
    have hlhsSubset : left.rules.map Rule.lhs ⊆ right.rules.map Rule.lhs := by
      intro lhs hmem
      obtain ⟨alternatives, hmem⟩ := mem_map_lhs_iff.mp hmem
      exact mem_map_lhs_iff.mpr ⟨alternatives, hsubset hmem⟩
    have hlhsIff := hlhs.mp ⟨hlength, hlhsSubset⟩
    refine hsubset.antisymm ?_
    rintro content ⟨other, hother, rfl⟩
    -- The first grammar has a rule for the same left-hand phrase.  The rule of the second grammar
    -- with the content of that one has this left-hand phrase too, so it is the given rule.
    obtain ⟨rule, hrule, hsame⟩ := List.mem_map.mp
      ((hlhsIff other.lhs).mpr (List.mem_map_of_mem hother))
    obtain ⟨other', hother', hcontent⟩ := hrules rule hrule
    have hlhsEq : other'.lhs = other.lhs := (congrArg Prod.fst hcontent).trans hsame
    rw [← eq_of_lhs_eq hother' hother hlhsEq]
    exact ⟨rule, hrule, hcontent.symm⟩

theorem sameAs_iff :
    left.sameAs right = true ↔
      left.start = right.start ∧ left.sorts = right.sorts ∧ left.ruleSet = right.ruleSet := by
  simp only [sameAs, Bool.and_eq_true, decide_eq_true_eq, List.all_eq_true, List.any_eq_true,
    exists_sameAs_iff, ruleSet_eq_iff, and_assoc]

/-- Grammars that differ in the order of their rules are the same. -/
theorem sameAs_of_perm (hstart : left.start = right.start) (hsorts : left.sorts = right.sorts)
    (hrules : left.rules.Perm right.rules) : left.sameAs right = true := by
  have hsets : left.ruleSet = right.ruleSet := by
    simp only [ruleSet, hrules.mem_iff]
  exact sameAs_iff.mpr ⟨hstart, hsorts, hsets⟩

theorem sameAs_symm (h : left.sameAs right = true) : right.sameAs left = true := by
  obtain ⟨hstart, hsorts, hrules⟩ := sameAs_iff.mp h
  exact sameAs_iff.mpr ⟨hstart.symm, hsorts.symm, hrules.symm⟩

theorem exists_sameAs_of_mem (h : left.sameAs right = true) {rule : Rule}
    (hrule : rule ∈ left.rules) : ∃ other ∈ right.rules, rule.sameAs other = true := by
  rw [exists_sameAs_iff, ← (sameAs_iff.mp h).2.2]
  exact ⟨rule, hrule, rfl⟩

/-- All rules of same grammars pass a test, or not all of either, if the test does not see
the order of alternatives. -/
theorem all_rules_eq_of_sameAs (h : left.sameAs right = true) {test : Rule → Bool}
    (htest : ∀ rule other : Rule, rule.sameAs other = true → test rule = test other) :
    left.rules.all test = right.rules.all test := by
  have hone : ∀ left right : Grammar, left.sameAs right = true →
      left.rules.all test = true → right.rules.all test = true := by
    intro left right h hall
    rw [List.all_eq_true] at hall ⊢
    intro rule hrule
    obtain ⟨other, hother, hsame⟩ := exists_sameAs_of_mem (sameAs_symm h) hrule
    rw [htest rule other hsame]
    exact hall other hother
  rw [Bool.eq_iff_iff]
  exact ⟨hone left right h, hone right left (sameAs_symm h)⟩

theorem any_rules_eq_of_sameAs (h : left.sameAs right = true) {test : Rule → Bool}
    (htest : ∀ rule other : Rule, rule.sameAs other = true → test rule = test other) :
    left.rules.any test = right.rules.any test := by
  rw [List.any_eq_not_all_not, List.any_eq_not_all_not, all_rules_eq_of_sameAs h]
  intro rule other hsame
  rw [htest rule other hsame]

/-- Rules are the same exactly if they have the same left-hand phrase and the same set of
alternatives.  Grammars are the same exactly if they have the same start symbol, give every
token the same sort, and have the same set of rules, taken as left-hand phrases with sets of
alternatives.  So both relations are equivalences. -/
theorem sameAs_iff_same_content :
    (∀ left right : Rule, left.sameAs right = true ↔
        left.lhs = right.lhs ∧ left.alternativeSet = right.alternativeSet) ∧
      (∀ left right : Grammar, left.sameAs right = true ↔
        left.start = right.start ∧
          (∀ token, left.sorts.sortOf token = right.sorts.sortOf token) ∧
          left.ruleSet = right.ruleSet) ∧
      Equivalence (fun left right : Rule => left.sameAs right = true) ∧
      Equivalence (fun left right : Grammar => left.sameAs right = true) := by
  refine ⟨?_, ?_, ?_, ?_⟩
  · intro left right
    rw [Rule.sameAs_iff_content_eq, Rule.content, Rule.content, Prod.mk.injEq]
  · intro left right
    have hsorts : left.sorts = right.sorts ↔
        ∀ token, left.sorts.sortOf token = right.sorts.sortOf token :=
      ⟨fun heq token => heq ▸ rfl, SortTable.ext_sortOf⟩
    rw [sameAs_iff, hsorts]
  · exact equivalence_of_iff_eq Rule.content fun left right => Rule.sameAs_iff_content_eq
  · apply equivalence_of_iff_eq fun grammar => (grammar.start, grammar.sorts, grammar.ruleSet)
    intro left right
    rw [sameAs_iff, Prod.mk.injEq, Prod.mk.injEq]

end Grammar
end PhraseStructure
