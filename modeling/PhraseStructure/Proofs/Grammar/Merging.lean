import PhraseStructure.Proofs.Grammar.Construction
import PhraseStructure.Proofs.Grammar.Yield

/-!
# Validating and merging

A grammar is built exactly if every token of its rules and its start symbol are
classified.  Otherwise the error names all unclassified tokens of the rules, or the start
symbol if there are none.

The rules of the grammar are the given rules, grouped by their left-hand phrases.  The builder
goes from rule to rule and extends a rule that it has already kept.  The invariant is that what
has been kept so far is what has been given so far, grouped.

Combining two rules may be refused for three reasons.  `Rule.mergeEach` builds the same
rules with all these checks, and none of them ever fails.
-/

namespace PhraseStructure

/-! ### Merging -/

namespace Rule

/-- The left-hand phrase and the alternatives. -/
def parts (rule : Rule) : Phrase × List Phrase :=
  (rule.lhs, rule.alternatives)

theorem map_fst_map_parts (rules : List Rule) :
    (rules.map parts).map Prod.fst = rules.map lhs := by
  rw [List.map_map]
  rfl

theorem parts_extend (rule : Rule) (more : List Phrase) :
    (rule.extend more).parts = addTo rule.lhs more rule.parts :=
  (addTo_self rule.lhs more rule.alternatives).symm

/-- A rule for a known left-hand phrase extends the rule for that phrase and no other. -/
theorem map_parts_absorb_of_mem {rule : Rule} {rules : List Rule} (hnodup : (rules.map lhs).Nodup)
    (h : rule.lhs ∈ rules.map lhs) :
    (absorb rule rules).map parts = (rules.map parts).map (addTo rule.lhs rule.alternatives) := by
  induction rules with
  | nil => cases h
  | cons first rules ih =>
      obtain ⟨hnot, hnodup⟩ := List.nodup_cons.mp hnodup
      by_cases hlhs : first.lhs = rule.lhs
      · have hothers : (rules.map parts).map (addTo rule.lhs rule.alternatives) =
            rules.map parts := by
          rw [List.map_map]
          refine List.map_congr_left fun other hother => addTo_of_ne ?_ _
          intro heq
          exact hnot (hlhs.trans heq.symm ▸ List.mem_map_of_mem hother)
        rw [absorb, if_pos hlhs, List.map_cons, List.map_cons, List.map_cons, hothers,
          parts_extend, hlhs]
      · have hmem : rule.lhs ∈ rules.map lhs :=
          (List.mem_cons.mp h).resolve_left fun heq => hlhs heq.symm
        have hfirst : addTo rule.lhs rule.alternatives first.parts = first.parts :=
          addTo_of_ne hlhs _
        rw [absorb, if_neg hlhs, List.map_cons, ih hnodup hmem, List.map_cons, List.map_cons,
          hfirst]

/-- What is kept stays what is given, grouped, when one more rule is given. -/
theorem map_parts_absorb {rule : Rule} {given merged : List Rule}
    (h : merged.map parts = grouped (given.map parts)) :
    (absorb rule merged).map parts = grouped ((given ++ [rule]).map parts) := by
  have hlhs : merged.map lhs = (given.map lhs).eraseDups := by
    rw [← map_fst_map_parts merged, h, map_fst_grouped, map_fst_map_parts]
  have hparts : (given ++ [rule]).map parts =
      given.map parts ++ [(rule.lhs, rule.alternatives)] := List.map_append
  by_cases hmem : rule.lhs ∈ given.map lhs
  · have hnodup : (merged.map lhs).Nodup := hlhs ▸ nodup_eraseDups _
    have hkept : rule.lhs ∈ merged.map lhs := by rwa [hlhs, List.mem_eraseDups]
    rw [map_parts_absorb_of_mem hnodup hkept, h, hparts,
      grouped_concat_of_mem (by rwa [map_fst_map_parts])]
  · have hkept : rule.lhs ∉ merged.map lhs := by rwa [hlhs, List.mem_eraseDups]
    rw [absorb_of_not_mem hkept, List.map_append, h, hparts,
      grouped_concat_of_not_mem (by rwa [map_fst_map_parts]), eraseDups_eq_self rule.nodup]
    rfl

/-- Merged rules are the given rules, grouped by their left-hand phrases. -/
theorem map_parts_mergeAll (rules : List Rule) :
    (mergeAll rules).map parts = grouped (rules.map parts) := by
  have hrun : ∀ given merged, merged.map parts = grouped (given.map parts) →
      (rules.foldl (fun merged rule => absorb rule merged) merged).map parts =
        grouped ((given ++ rules).map parts) := by
    induction rules with
    | nil => simp
    | cons rule rules ih =>
        intro given merged h
        rw [List.foldl_cons, ih _ _ (map_parts_absorb h), List.append_assoc,
          List.singleton_append]
  exact hrun [] [] rfl

/-! ### Merging with every check -/

/-- Two rules as one rule that is built anew. -/
def combine (left right : Rule) : Except Error Rule :=
  if left.lhs = right.lhs then
    make left.lhs (left.alternatives ++ right.alternatives)
  else
    .error (.mismatchedMerge left.lhs right.lhs)

/-- Add a rule to rules: combine it with the first one that has its left-hand phrase. -/
def mergeInto (rule : Rule) : List Rule → Except Error (List Rule)
  | [] => .ok [rule]
  | first :: rest =>
      if first.lhs = rule.lhs then do
        let merged ← first.combine rule
        return merged :: rest
      else do
        let rest ← mergeInto rule rest
        return first :: rest

/-- Add rules one after another. -/
def mergeEach (rules : List Rule) : Except Error (List Rule) :=
  rules.foldlM (fun merged rule => mergeInto rule merged) []

theorem merge_eq_combine (left right : Rule) : left.merge right = left.combine right := by
  have hne : left.alternatives ++ right.alternatives ≠ [] :=
    List.append_ne_nil_of_left_ne_nil left.alternatives_ne_nil _
  unfold merge combine make
  rw [dif_neg left.lhs_ne_nil, dif_neg hne]
  rfl

theorem mergeInto_eq (rule : Rule) (rules : List Rule) :
    mergeInto rule rules = .ok (absorb rule rules) := by
  induction rules with
  | nil => rfl
  | cons first rules ih =>
      by_cases h : first.lhs = rule.lhs
      · have hcombine : first.combine rule = .ok (first.extend rule.alternatives) := by
          rw [← merge_eq_combine, merge, if_pos h]
        rw [mergeInto, if_pos h, hcombine, absorb, if_pos h]
        rfl
      · rw [mergeInto, if_neg h, ih, absorb, if_neg h]
        rfl

/-- No combination is ever refused. -/
theorem mergeEach_eq (rules : List Rule) : mergeEach rules = .ok (mergeAll rules) := by
  have hrun : ∀ merged, rules.foldlM (fun merged rule => mergeInto rule merged) merged =
      (.ok (rules.foldl (fun merged rule => absorb rule merged) merged) : Except Error _) := by
    induction rules with
    | nil => exact fun _ => rfl
    | cons rule rules ih =>
        intro merged
        rw [List.foldlM_cons, mergeInto_eq]
        exact ih (absorb rule merged)
  exact hrun []

end Rule

/-! ### Building -/

namespace Grammar

variable {sorts : SortTable} {rules : List Rule} {start : Token}

theorem ruleOf?_eq_some_iff {grammar : Grammar} {lhs : Phrase} {rule : Rule} :
    grammar.ruleOf? lhs = some rule ↔ rule ∈ grammar.rules ∧ rule.lhs = lhs :=
  find?_key_eq_some_iff grammar.nodup

/-- A grammar is built exactly if everything in it is classified. -/
theorem exists_make_iff :
    (∃ grammar, make sorts rules start = .ok grammar) ↔
      (∀ rule ∈ rules, ∀ token ∈ rule.tokens, sorts.contains token = true) ∧
        sorts.contains start = true := by
  constructor
  · rintro ⟨grammar, h⟩
    unfold make at h
    split at h
    · rename_i hmissing
      split at h
      · rename_i hstart
        exact ⟨missing_tokens_eq_nil_iff.mp hmissing, hstart⟩
      · cases h
    · cases h
  · rintro ⟨hrules, hstart⟩
    obtain ⟨grammar, hmake, _⟩ := exists_make_of_classified hrules hstart
    exact ⟨grammar, hmake⟩

/-- The unclassified tokens of the rules are reported, all of them, and an unclassified start
symbol only if there are none. -/
theorem make_eq_error_iff {error : Error} :
    make sorts rules start = .error error ↔
      (∃ missing, error = .unclassified missing ∧ missing ≠ [] ∧ missing.Pairwise (· < ·) ∧
          ∀ token, token ∈ missing ↔
            (∃ rule ∈ rules, token ∈ rule.tokens) ∧ sorts.contains token = false) ∨
        (error = .unclassifiedStart start ∧
          (∀ rule ∈ rules, ∀ token ∈ rule.tokens, sorts.contains token = true) ∧
          sorts.contains start = false) := by
  have hmissing : ∀ missing : List Token,
      (missing.Pairwise (· < ·) ∧ ∀ token, token ∈ missing ↔
        (∃ rule ∈ rules, token ∈ rule.tokens) ∧ sorts.contains token = false) ↔
      sorts.missing (rules.flatMap Rule.tokens) = missing := by
    intro missing
    simp only [SortTable.missing_eq_iff, List.mem_flatMap]
  simp only [hmissing, ← missing_tokens_eq_nil_iff]
  unfold make
  split
  · rename_i hnone
    split
    · rename_i hstart
      simp [hnone, hstart]
    · rename_i hstart
      simp [hnone, hstart, eq_comm]
  · rename_i hsome
    constructor
    · rintro ⟨⟩
      exact .inl ⟨_, rfl, hsome, rfl⟩
    · rintro (⟨missing, rfl, _, rfl⟩ | ⟨_, hnone, _⟩)
      · rfl
      · exact absurd hnone hsome

/-- Every left-hand phrase that is given has exactly one rule, and looking it up finds it. -/
theorem exists_rule_of_given {grammar : Grammar} (h : make sorts rules start = .ok grammar)
    {given : Rule} (hgiven : given ∈ rules) :
    ∃ rule ∈ grammar.rules, rule.lhs = given.lhs ∧
      (∀ other ∈ grammar.rules, other.lhs = given.lhs → other = rule) ∧
      grammar.ruleOf? given.lhs = some rule ∧
      ∀ token, given.lhs = [token] → grammar.ruleFor? token = some rule := by
  obtain ⟨_, hmerged, _⟩ := of_make h
  obtain ⟨alternative, halternative⟩ := given.exists_mem_alternatives
  have hproduces : Rule.Produces rules given.lhs alternative :=
    ⟨given, hgiven, rfl, halternative⟩
  rw [← Rule.produces_mergeAll, ← hmerged] at hproduces
  obtain ⟨rule, hrule, hlhs, _⟩ := hproduces
  refine ⟨rule, hrule, hlhs, ?_, ruleOf?_eq_some_iff.mpr ⟨hrule, hlhs⟩, ?_⟩
  · intro other hother heq
    exact eq_of_lhs_eq hother hrule (heq.trans hlhs.symm)
  · intro token heq
    exact ruleFor?_eq_some_iff.mpr ⟨hrule, hlhs.trans heq⟩

/-- A grammar is built exactly if every token of the rules and the start symbol are
classified.  Otherwise the error names all unclassified tokens of the rules, strictly
ascending, or the start symbol if there are none; combining rules is never refused.  The
rules of the grammar are the given ones, grouped by their left-hand phrases.  No production is
lost or added, and every given left-hand phrase has exactly one rule, which looking it up
finds. -/
theorem make_validates_and_merges (sorts : SortTable) (rules : List Rule) (start : Token) :
    ((∃ error, make sorts rules start = .error error) ↔
        (∃ rule ∈ rules, ∃ token ∈ rule.tokens, sorts.contains token = false) ∨
          sorts.contains start = false) ∧
      (∀ error, make sorts rules start = .error error ↔
        (∃ missing, error = .unclassified missing ∧ missing ≠ [] ∧ missing.Pairwise (· < ·) ∧
            ∀ token, token ∈ missing ↔
              (∃ rule ∈ rules, token ∈ rule.tokens) ∧ sorts.contains token = false) ∨
          (error = .unclassifiedStart start ∧
            (∀ rule ∈ rules, ∀ token ∈ rule.tokens, sorts.contains token = true) ∧
            sorts.contains start = false)) ∧
      ∃ merged, Rule.mergeEach rules = .ok merged ∧
        ∀ grammar, make sorts rules start = .ok grammar →
          grammar.sorts = sorts ∧ grammar.start = start ∧ grammar.rules = merged ∧
          grammar.rules.map Rule.parts = grouped (rules.map Rule.parts) ∧
          (grammar.rules.map Rule.lhs).Nodup ∧
          (∀ rule ∈ grammar.rules,
            rule.lhs ≠ [] ∧ rule.alternatives ≠ [] ∧ rule.alternatives.Nodup) ∧
          (∀ lhs alternative,
            Rule.Produces grammar.rules lhs alternative ↔ Rule.Produces rules lhs alternative) ∧
          ∀ given ∈ rules, ∃ rule ∈ grammar.rules, rule.lhs = given.lhs ∧
            (∀ other ∈ grammar.rules, other.lhs = given.lhs → other = rule) ∧
            grammar.ruleOf? given.lhs = some rule ∧
            ∀ token, given.lhs = [token] → grammar.ruleFor? token = some rule := by
  refine ⟨?_, fun error => make_eq_error_iff, Rule.mergeAll rules, Rule.mergeEach_eq rules, ?_⟩
  · have hfails : (∃ error, make sorts rules start = .error error) ↔
        ¬ ∃ grammar, make sorts rules start = .ok grammar := by
      cases make sorts rules start <;> simp
    rw [hfails, exists_make_iff, not_and_or]
    simp
  · intro grammar hmake
    obtain ⟨hsorts, hmerged, hstart⟩ := of_make hmake
    refine ⟨hsorts, hstart, hmerged, ?_, grammar.nodup, ?_, ?_, ?_⟩
    · rw [hmerged, Rule.map_parts_mergeAll]
    · exact fun rule _ => ⟨rule.lhs_ne_nil, rule.alternatives_ne_nil, rule.nodup⟩
    · intro lhs alternative
      rw [hmerged, Rule.produces_mergeAll]
    · exact fun given hgiven => exists_rule_of_given hmake hgiven

/-- A left-hand phrase that is given twice with a repeated alternative and an empty one, and a
table that lacks two tokens of the rules and the start symbol. -/
theorem make_validates_and_merges_repeated :
    ∃ sorts known first second third grammar, ∃ b s : Token, b.text = ['b'] ∧ s.text = ['S'] ∧
      SortTable.ofTexts [['B'], ['S']] [['a'], ['b']] = .ok sorts ∧
      SortTable.ofTexts [['B']] [['a']] = .ok known ∧
      Rule.ofTexts ['S'] [['a', ' ', 'S'], ['b']] = .ok first ∧
      Rule.ofTexts ['B'] [['b']] = .ok second ∧
      Rule.ofTexts ['S'] [[], ['a', ' ', 'S']] = .ok third ∧
      make sorts [first, second, third] s = .ok grammar ∧
      Rule.mergeEach [first, second, third] = .ok grammar.rules ∧
      (grammar.rules.map Rule.parts).map
          (Prod.map Phrase.spelled fun alternatives => alternatives.map Phrase.spelled) =
        [(['S'], [['a', ' ', 'S'], ['b'], []]), (['B'], [['b']])] ∧
      (∃ rule ∈ grammar.rules, rule.lhs = third.lhs ∧ grammar.ruleFor? s = some rule) ∧
      make known [first, second, third] s = .error (.unclassified [s, b]) := by
  obtain ⟨sorts, known, first, second, third, grammar, b, s, hb, hs, hsorts, hknown, hfirst,
      hsecond, hthird, hmake, hlhs, hparts, hmissing⟩ :
      ∃ sorts known first second third grammar, ∃ b s : Token, b.text = ['b'] ∧ s.text = ['S'] ∧
        SortTable.ofTexts [['B'], ['S']] [['a'], ['b']] = .ok sorts ∧
        SortTable.ofTexts [['B']] [['a']] = .ok known ∧
        Rule.ofTexts ['S'] [['a', ' ', 'S'], ['b']] = .ok first ∧
        Rule.ofTexts ['B'] [['b']] = .ok second ∧
        Rule.ofTexts ['S'] [[], ['a', ' ', 'S']] = .ok third ∧
        make sorts [first, second, third] s = .ok grammar ∧ third.lhs = [s] ∧
        (grouped ([first, second, third].map Rule.parts)).map
            (Prod.map Phrase.spelled fun alternatives => alternatives.map Phrase.spelled) =
          [(['S'], [['a', ' ', 'S'], ['b'], []]), (['B'], [['b']])] ∧
        known.missing ([first, second, third].flatMap Rule.tokens) = [s, b] :=
    ⟨_, _, _, _, _, _, ⟨['b'], by decide⟩, ⟨['S'], by decide⟩, rfl, rfl, rfl, rfl, rfl, rfl, rfl, rfl,
      rfl, by decide, by decide⟩
  obtain ⟨_, _, merged, hmerged, hbuilt⟩ :=
    make_validates_and_merges sorts [first, second, third] s
  obtain ⟨_, _, hrules, hgrouped, _, _, _, hfound⟩ := hbuilt grammar hmake
  obtain ⟨rule, hrule, hsame, _, _, hruleFor⟩ := hfound third (by simp)
  obtain ⟨_, herror, _⟩ := make_validates_and_merges known [first, second, third] s
  refine ⟨sorts, known, first, second, third, grammar, b, s, hb, hs, hsorts, hknown, hfirst,
    hsecond, hthird, hmake, by rw [hrules, hmerged], by rw [hgrouped, hparts],
    ⟨rule, hrule, hsame, hruleFor s hlhs⟩, ?_⟩
  obtain ⟨hascending, hmem⟩ := SortTable.missing_eq_iff.mp hmissing
  refine (herror _).mpr (.inl ⟨_, rfl, List.cons_ne_nil _ _, hascending, ?_⟩)
  intro token
  rw [hmem, List.mem_flatMap]

end Grammar
end PhraseStructure
