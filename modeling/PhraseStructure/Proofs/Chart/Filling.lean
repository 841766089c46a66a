import PhraseStructure.Proofs.Chart.Completeness

/-!
# Filling a chart

Every step of the filling keeps the chart sound and keeps its marks.  A cell is
filled by passes over the rules until a pass adds nothing; then no rule has a covering
alternative without its non-terminal being marked, and the cell is complete.  The passes
suffice, because each one before the last marks the non-terminal of a rule for which it
was not marked before.

A pass may use marks that the same pass has made, and the last pass changes nothing.
-/

namespace PhraseStructure

/-- A loop over consecutive numbers keeps a statement about the number and the state. -/
theorem exists_foldlM_range' {β : Type} {step : β → Nat → Except Fault β}
    {motive : Nat → β → Prop} {first count : Nat} {state : β} (hfirst : motive first state)
    (hstep : ∀ index state, first ≤ index → index < first + count → motive index state →
      ∃ next, step state index = .ok next ∧ motive (index + 1) next) :
    ∃ last, (List.range' first count).foldlM step state = .ok last ∧
      motive (first + count) last := by
  induction count generalizing first state with
  | zero => exact ⟨state, rfl, hfirst⟩
  | succ count ih =>
      obtain ⟨next, hnext, hmotive⟩ :=
        hstep first state (Nat.le_refl _) (by omega) hfirst
      obtain ⟨last, hlast, hend⟩ := ih hmotive (by
        intro index state hlow hhigh
        exact hstep index state (by omega) (by omega))
      refine ⟨last, ?_, ?_⟩
      · rw [List.range'_succ, List.foldlM_cons, hnext]
        exact hlast
      · rwa [Nat.add_right_comm] at hend

namespace BottomUp

/-! ### Numbered rules -/

/-- What a recognizer that was made for its grammar consists of. -/
structure Made (recognizer : BottomUp) : Prop where
  contextFree : recognizer.grammar.isContextFree = true
  names_eq : recognizer.names = recognizer.grammar.sorts.nonTerminals
  rules_eq : recognizer.rules =
    recognizer.grammar.rules.filterMap (numberedRule? recognizer.names)
  nullable_eq : recognizer.nullable =
    recognizer.grammar.nullable.filterMap fun token => recognizer.names.idxOf? token

theorem made_of_make {grammar : Grammar} {recognizer : BottomUp}
    (h : make grammar = .ok recognizer) : recognizer.Made ∧ recognizer.grammar = grammar := by
  simp only [make] at h
  split at h
  · cases h
  · rename_i hrank
    cases h
    have hcontextFree := Grammar.rank_contextFree_le_iff.mp (Nat.not_lt.mp hrank)
    exact ⟨⟨hcontextFree, rfl, rfl, rfl⟩, rfl⟩

/-- A numbered rule stands for a rule of the grammar and its left-hand token. -/
structure StandsFor (recognizer : BottomUp) (numberedRule : NumberedRule) (token : Token)
    (rule : Rule) : Prop where
  mem : rule ∈ recognizer.grammar.rules
  lhs_eq : rule.lhs = [token]
  number : recognizer.names[numberedRule.lhs]? = some token
  alternatives_eq : numberedRule.alternatives =
    rule.alternatives.map fun alternative => alternative.map (numbered recognizer.names)

variable {recognizer : BottomUp}

theorem StandsFor.unique {numberedRule : NumberedRule} {token token' : Token} {rule rule' : Rule}
    (h : recognizer.StandsFor numberedRule token rule)
    (h' : recognizer.StandsFor numberedRule token' rule') : token = token' ∧ rule = rule' := by
  obtain rfl : token = token' := Option.some.inj (h.number.symm.trans h'.number)
  exact ⟨rfl, Grammar.eq_of_lhs_eq h.mem h'.mem (h.lhs_eq.trans h'.lhs_eq.symm)⟩

namespace Made

theorem exists_lhs (hmade : recognizer.Made) {rule : Rule}
    (hrule : rule ∈ recognizer.grammar.rules) :
    ∃ token, rule.lhs = [token] ∧ recognizer.grammar.isNonTerminal token = true := by
  have hcontextFree := hmade.contextFree
  rw [Grammar.isContextFree, List.all_eq_true] at hcontextFree
  exact Rule.isContextFree_iff.mp (hcontextFree rule hrule)

/-- All productions are context-free. -/
theorem contextFreeProduction_iff (hmade : recognizer.Made) {lhs alternative : Phrase} :
    recognizer.grammar.ContextFreeProduction lhs alternative ↔
      recognizer.grammar.Production lhs alternative := by
  constructor
  · exact Grammar.ContextFreeProduction.production
  · rintro ⟨rule, hrule, hlhs, halternative⟩
    exact ⟨rule, Grammar.mem_contextFreeRules.mpr ⟨hrule, hmade.exists_lhs hrule⟩, hlhs,
      halternative⟩

theorem exists_standsFor (hmade : recognizer.Made) {numberedRule : NumberedRule}
    (h : numberedRule ∈ recognizer.rules) :
    ∃ token rule, recognizer.StandsFor numberedRule token rule := by
  rw [hmade.rules_eq] at h
  obtain ⟨rule, hrule, hnumbered⟩ := List.mem_filterMap.mp h
  obtain ⟨token, hlhs, _⟩ := hmade.exists_lhs hrule
  rw [numberedRule?, hlhs] at hnumbered
  obtain ⟨number, hnumber, rfl⟩ := Option.map_eq_some_iff.mp hnumbered
  exact ⟨token, rule, hrule, hlhs, getElem?_of_idxOf? hnumber, rfl⟩

/-- Every rule of the grammar has a numbered rule. -/
theorem exists_numberedRule (hmade : recognizer.Made) {rule : Rule} {token : Token}
    (hrule : rule ∈ recognizer.grammar.rules) (hlhs : rule.lhs = [token]) :
    ∃ numberedRule ∈ recognizer.rules, recognizer.StandsFor numberedRule token rule := by
  obtain ⟨other, hother, hnonTerminal⟩ := hmade.exists_lhs hrule
  obtain rfl : token = other := List.singleton_inj.mp (hlhs.symm.trans hother)
  have hname : token ∈ recognizer.names := by
    rw [hmade.names_eq]
    exact SortTable.mem_nonTerminals.mpr hnonTerminal
  obtain ⟨number, hnumber⟩ := exists_idxOf? hname
  refine ⟨⟨number, rule.alternatives.map fun alternative =>
    alternative.map (numbered recognizer.names)⟩, ?_, hrule, hlhs, getElem?_of_idxOf? hnumber, rfl⟩
  rw [hmade.rules_eq]
  refine List.mem_filterMap.mpr ⟨rule, hrule, ?_⟩
  rw [numberedRule?, hlhs]
  exact Option.map_eq_some_iff.mpr ⟨number, hnumber, rfl⟩

end Made

/-! ### Passes over the rules -/

variable {input : Phrase} {chart : Chart} {length start : Nat}

/-- The search through the alternatives of a rule decides whether one of them covers
the part. -/
theorem anyM_derives_decides (hmade : recognizer.Made)
    (hsound : chart.Sound recognizer.grammar input) (h : start + length ≤ input.length)
    {numberedRule : NumberedRule} {token : Token} {rule : Rule}
    (hstands : recognizer.StandsFor numberedRule token rule) :
    Decides (numberedRule.alternatives.anyM (derives chart input length start))
      (∃ alternative ∈ rule.alternatives, chart.Covers input length start alternative) := by
  have hnames : recognizer.names = chart.names := hmade.names_eq.trans hsound.names_eq.symm
  rw [hstands.alternatives_eq, hnames]
  apply Decides.anyM_map
  intro alternative _
  exact derives_decides hsound.wellFormed hsound.nodup hsound.size_eq h alternative

/-- No alternative of a rule asks for a new mark in a cell. -/
def Settled (recognizer : BottomUp) (input : Phrase) (length start : Nat) (chart : Chart)
    (numberedRule : NumberedRule) : Prop :=
  ∀ token rule, recognizer.StandsFor numberedRule token rule →
    ∀ alternative ∈ rule.alternatives, chart.Covers input length start alternative →
      chart.Knows length start token

/-- What a rule does to a cell: nothing, if it is settled, or else it marks its
non-terminal, which was not marked before. -/
theorem fillRule_spec (hmade : recognizer.Made)
    (hsound : chart.Sound recognizer.grammar input) (h : start + length ≤ input.length)
    {numberedRule : NumberedRule} (hmem : numberedRule ∈ recognizer.rules) (changed : Bool) :
    (fillRule input length start (chart, changed) numberedRule = .ok (chart, changed) ∧
        recognizer.Settled input length start chart numberedRule) ∨
      chart.has length start numberedRule.lhs = false ∧
        ∃ chart', fillRule input length start (chart, changed) numberedRule =
            .ok (chart', true) ∧
          chart'.Sound recognizer.grammar input ∧ chart.Extends chart' ∧
          chart'.has length start numberedRule.lhs = true := by
  obtain ⟨token, rule, hstands⟩ := hmade.exists_standsFor hmem
  have hnumber : chart.names[numberedRule.lhs]? = some token := by
    rw [hsound.names_eq, ← hmade.names_eq]
    exact hstands.number
  obtain ⟨hlt, _⟩ := List.getElem?_eq_some_iff.mp hnumber
  have hmarked := hsound.wellFormed.marked_eq (hsound.size_eq.symm ▸ h) hlt
  obtain ⟨verdict, hsearch, hverdict⟩ := anyM_derives_decides hmade hsound h hstands
  cases hhas : chart.has length start numberedRule.lhs with
  | true =>
      -- The rule is skipped: whatever its alternatives cover, its non-terminal is marked.
      refine .inl ⟨?_, ?_⟩
      · simp [fillRule, bind, Except.bind, hmarked, hhas, pure, Except.pure]
      · intro token' rule' hstands' _ _ _
        obtain ⟨rfl, rfl⟩ := hstands.unique hstands'
        exact (Chart.knows_iff_has hsound.nodup hnumber).mpr hhas
  | false =>
      cases verdict with
      | false =>
          refine .inl ⟨?_, ?_⟩
          · simp [fillRule, bind, Except.bind, hmarked, hhas, hsearch, pure, Except.pure]
          · intro token' rule' hstands' alternative halternative hcovers
            obtain ⟨rfl, rfl⟩ := hstands.unique hstands'
            exact nomatch hverdict.mpr ⟨alternative, halternative, hcovers⟩
      | true =>
          -- The new mark is right, because what is covered is yielded.
          obtain ⟨alternative, halternative, hcovers⟩ := hverdict.mp rfl
          have hproduction : recognizer.grammar.Production [token] alternative :=
            ⟨rule, hstands.mem, hstands.lhs_eq, halternative⟩
          have hclassified : ∀ other ∈ alternative,
              recognizer.grammar.sorts.contains other = true := by
            intro other hother
            exact recognizer.grammar.classified rule hstands.mem other
              (Rule.mem_tokens.mpr (.inr ⟨alternative, halternative, hother⟩))
          obtain ⟨height, hyields⟩ := hsound.of_covers hclassified h hcovers
          have htop := Yields.of_production
            (hmade.contextFreeProduction_iff.mpr hproduction).usable hyields
          obtain ⟨chart', hmark, hsound', hextends, hnew⟩ :=
            hsound.exists_mark h hnumber ⟨height + 1, htop⟩
          refine .inr ⟨rfl, chart', ?_, hsound', hextends, hnew⟩
          simp [fillRule, bind, Except.bind, hmarked, hhas, hsearch, hmark, pure, Except.pure]

/-- A pass over rules keeps the chart sound.  Without a change all rules are settled; with
a change some rule's non-terminal is newly marked. -/
theorem foldlM_fillRule_spec (hmade : recognizer.Made) (h : start + length ≤ input.length)
    {rules : List NumberedRule} (hrules : ∀ numberedRule ∈ rules, numberedRule ∈ recognizer.rules)
    (hsound : chart.Sound recognizer.grammar input) (changed : Bool) :
    ∃ chart' changed', rules.foldlM (fillRule input length start) (chart, changed) =
        .ok (chart', changed') ∧
      chart'.Sound recognizer.grammar input ∧ chart.Extends chart' ∧
      (chart' = chart ∧ changed' = changed ∧
          (∀ numberedRule ∈ rules, recognizer.Settled input length start chart numberedRule) ∨
        changed' = true ∧ ∃ numberedRule ∈ rules,
          chart.has length start numberedRule.lhs = false ∧
            chart'.has length start numberedRule.lhs = true) := by
  induction rules generalizing chart changed with
  | nil => exact ⟨chart, changed, rfl, hsound, .refl chart, .inl ⟨rfl, rfl, by simp⟩⟩
  | cons numberedRule rules ih =>
      obtain ⟨hmem, hrest⟩ := List.forall_mem_cons.mp hrules
      rcases fillRule_spec hmade hsound h hmem changed with
        ⟨hstep, hsettled⟩ | ⟨hhas, next, hstep, hnext, hextends, hnew⟩
      · -- A settled rule leaves the chart alone, so without a change it stays settled.
        obtain ⟨chart', changed', hfold, hsound', hextends, hcases⟩ := ih hrest hsound changed
        refine ⟨chart', changed', ?_, hsound', hextends, ?_⟩
        · rw [List.foldlM_cons, hstep]
          exact hfold
        · rcases hcases with ⟨hchart, hchanged, hall⟩ | ⟨hchanged, other, hother, hprogress⟩
          · exact .inl ⟨hchart, hchanged, List.forall_mem_cons.mpr ⟨hsettled, hall⟩⟩
          · exact .inr ⟨hchanged, other, List.mem_cons_of_mem _ hother, hprogress⟩
      · -- A mark made here cannot be lost again, nor can the flag be taken back.
        obtain ⟨chart', changed', hfold, hsound', hextends', hcases⟩ := ih hrest hnext true
        refine ⟨chart', changed', ?_, hsound', hextends.trans hextends', .inr ⟨?_, ?_⟩⟩
        · rw [List.foldlM_cons, hstep]
          exact hfold
        · rcases hcases with ⟨_, hchanged, _⟩ | ⟨hchanged, _⟩ <;> exact hchanged
        · exact ⟨numberedRule, List.mem_cons_self, hhas, hextends'.has _ _ _ hnew⟩

/-- The rules whose non-terminal is not marked in a cell. -/
def pending (recognizer : BottomUp) (length start : Nat) (chart : Chart) : List NumberedRule :=
  recognizer.rules.filter fun numberedRule => !chart.has length start numberedRule.lhs

/-- A new mark for a rule leaves fewer rules pending. -/
theorem length_pending_lt {chart' : Chart} (hextends : chart.Extends chart')
    {numberedRule : NumberedRule} (hmem : numberedRule ∈ recognizer.rules)
    (hbefore : chart.has length start numberedRule.lhs = false)
    (hafter : chart'.has length start numberedRule.lhs = true) :
    (recognizer.pending length start chart').length <
      (recognizer.pending length start chart).length := by
  have hfilter : recognizer.pending length start chart' =
      (recognizer.pending length start chart).filter fun numberedRule =>
        !chart'.has length start numberedRule.lhs := by
    unfold pending
    rw [List.filter_filter]
    congr 1
    funext other
    cases hhas : chart.has length start other.lhs with
    | false => simp
    | true => simp [hextends.has _ _ _ hhas]
  rw [hfilter, List.length_filter_lt_length_iff_exists]
  refine ⟨numberedRule, List.mem_filter.mpr ⟨hmem, ?_⟩, ?_⟩
  · simp [hbefore]
  · simp [hafter]

/-- A cell whose rules are all settled is closed. -/
theorem closedAt_of_settled (hmade : recognizer.Made)
    (h : ∀ numberedRule ∈ recognizer.rules,
      recognizer.Settled input length start chart numberedRule) :
    chart.ClosedAt recognizer.grammar input length start := by
  rintro token alternative ⟨rule, hrule, hlhs, halternative⟩ hcovers
  obtain ⟨numberedRule, hmem, hstands⟩ := hmade.exists_numberedRule hrule hlhs
  exact h numberedRule hmem token rule hstands alternative halternative hcovers

/-- More passes than pending rules close a cell. -/
theorem fillPasses_spec (hmade : recognizer.Made) (h : start + length ≤ input.length)
    {limit : Nat} (hsound : chart.Sound recognizer.grammar input)
    (hlimit : (recognizer.pending length start chart).length < limit) :
    ∃ chart', recognizer.fillPasses input length start limit chart = .ok chart' ∧
      chart'.Sound recognizer.grammar input ∧ chart.Extends chart' ∧
      chart'.ClosedAt recognizer.grammar input length start := by
  induction limit generalizing chart with
  | zero => omega
  | succ limit ih =>
      obtain ⟨chart', changed, hpass, hsound', hextends, hcases⟩ :=
        foldlM_fillRule_spec hmade h (fun _ hmem => hmem) hsound false
      change recognizer.fillPass input length start chart = .ok (chart', changed) at hpass
      -- The limit exceeds the number of pending rules, and a pass with a change leaves fewer.
      rcases hcases with ⟨rfl, rfl, hsettled⟩ | ⟨rfl, numberedRule, hmem, hbefore, hafter⟩
      · refine ⟨chart', ?_, hsound', hextends, closedAt_of_settled hmade hsettled⟩
        simp [fillPasses, bind, Except.bind, hpass, pure, Except.pure]
      · have hless := length_pending_lt hextends hmem hbefore hafter
        obtain ⟨last, hlast, hsoundLast, hextendsLast, hclosed⟩ := ih hsound' (by omega)
        refine ⟨last, ?_, hsoundLast, hextends.trans hextendsLast, hclosed⟩
        simp [fillPasses, bind, Except.bind, hpass, hlast]

/-! ### Cells and rows -/

theorem fillCell_spec (hmade : recognizer.Made) (hpos : 0 < length)
    (h : start + length ≤ input.length) (hsound : chart.Sound recognizer.grammar input)
    (hshorter : ∀ shorter start', shorter < length → start' + shorter ≤ input.length →
      chart.CompleteAt recognizer.grammar input shorter start') :
    ∃ chart', recognizer.fillCell input length chart start = .ok chart' ∧
      chart'.Sound recognizer.grammar input ∧ chart.Extends chart' ∧
      chart'.CompleteAt recognizer.grammar input length start := by
  have hlimit : (recognizer.pending length start chart).length < recognizer.rules.length + 1 :=
    Nat.lt_succ_of_le (List.length_filter_le ..)
  obtain ⟨chart', hfill, hsound', hextends, hclosed⟩ :=
    fillPasses_spec hmade h hsound hlimit
  refine ⟨chart', hfill, hsound', hextends, ?_⟩
  apply hsound'.completeAt_of_closedAt hpos h hclosed
  intro shorter start' hlt hle
  exact (hshorter shorter start' hlt hle).extend hextends

/-- A chart whose cells are complete up to a place: all shorter ones, and in the row of
`length` those before `start`. -/
structure FilledTo (recognizer : BottomUp) (input : Phrase) (length start : Nat)
    (chart : Chart) : Prop where
  sound : chart.Sound recognizer.grammar input
  shorter : ∀ shorter start', shorter < length → start' + shorter ≤ input.length →
    chart.CompleteAt recognizer.grammar input shorter start'
  before : ∀ start' < start, start' + length ≤ input.length →
    chart.CompleteAt recognizer.grammar input length start'

/-- Filling one more cell of a row. -/
theorem FilledTo.extend {chart' : Chart} (hfilled : recognizer.FilledTo input length start chart)
    (hsound : chart'.Sound recognizer.grammar input) (hextends : chart.Extends chart')
    (hcomplete : chart'.CompleteAt recognizer.grammar input length start) :
    recognizer.FilledTo input length (start + 1) chart' := by
  refine ⟨hsound, ?_, ?_⟩
  · intro shorter start' hlt hle
    exact (hfilled.shorter shorter start' hlt hle).extend hextends
  · intro start' hlt hle
    rcases Nat.lt_succ_iff_lt_or_eq.mp hlt with hlt | rfl
    · exact (hfilled.before start' hlt hle).extend hextends
    · exact hcomplete

/-- A full row is the beginning of the next one. -/
theorem FilledTo.next_row (hfilled : recognizer.FilledTo input length start chart)
    (h : input.length < start + length) : recognizer.FilledTo input (length + 1) 0 chart := by
  refine ⟨hfilled.sound, ?_, by omega⟩
  intro shorter start' hlt hle
  rcases Nat.lt_succ_iff_lt_or_eq.mp hlt with hlt | rfl
  · exact hfilled.shorter shorter start' hlt hle
  · exact hfilled.before start' (by omega) hle

theorem fillRow_spec (hmade : recognizer.Made) (hpos : 0 < length) (h : length ≤ input.length)
    (hfilled : recognizer.FilledTo input length 0 chart) :
    ∃ chart', recognizer.fillRow input chart length = .ok chart' ∧
      recognizer.FilledTo input (length + 1) 0 chart' := by
  have hloop : ∃ last,
      (List.range' 0 (input.length - length + 1)).foldlM (recognizer.fillCell input length) chart =
        .ok last ∧
      recognizer.FilledTo input length (0 + (input.length - length + 1)) last := by
    apply exists_foldlM_range' hfilled
    intro start chart _ hhigh hfilled
    obtain ⟨chart', hfill, hsound, hextends, hcomplete⟩ :=
      fillCell_spec hmade hpos (show start + length ≤ input.length by omega) hfilled.sound
        hfilled.shorter
    exact ⟨chart', hfill, hfilled.extend hsound hextends hcomplete⟩
  obtain ⟨last, hlast, hfilled⟩ := hloop
  refine ⟨last, ?_, hfilled.next_row (by omega)⟩
  rw [fillRow, List.range_eq_range']
  exact hlast

/-! ### Row 0 -/

theorem knowsUpTo_zero_iff {height : Nat} :
    chart.KnowsUpTo recognizer.grammar input height 0 start ↔
      ∀ token, Yields recognizer.grammar true height [token] [] →
        recognizer.grammar.isNonTerminal token = true → chart.Knows 0 start token := by
  unfold Chart.KnowsUpTo
  rw [Nat.add_zero, Phrase.span_self]

/-- Non-terminals that yield the empty word can be marked at every position. -/
theorem foldlM_mark_spec (h : start ≤ input.length) {numbers : List Nat}
    (hnumbers : ∀ number ∈ numbers, ∃ token,
      recognizer.grammar.sorts.nonTerminals[number]? = some token ∧
        ∃ height, Yields recognizer.grammar true height [token] [])
    (hsound : chart.Sound recognizer.grammar input) :
    ∃ chart', numbers.foldlM
        (fun chart number => do
          let (chart, _) ← chart.mark 0 start number
          return chart) chart = .ok chart' ∧
      chart'.Sound recognizer.grammar input ∧ chart.Extends chart' ∧
      ∀ number ∈ numbers, chart'.has 0 start number = true := by
  induction numbers generalizing chart with
  | nil => exact ⟨chart, rfl, hsound, .refl chart, by simp⟩
  | cons number numbers ih =>
      obtain ⟨⟨token, hnumber, hyields⟩, hrest⟩ := List.forall_mem_cons.mp hnumbers
      rw [← hsound.names_eq] at hnumber
      have hspan : input.span start (start + 0) = [] := input.span_self start
      obtain ⟨next, hmark, hnext, hextends, hnew⟩ :=
        hsound.exists_mark (show start + 0 ≤ input.length from h) hnumber (by rwa [hspan])
      obtain ⟨chart', hfold, hsound', hextends', hall⟩ := ih hrest hnext
      refine ⟨chart', ?_, hsound', hextends.trans hextends', ?_⟩
      · rw [List.foldlM_cons, hmark]
        exact hfold
      · exact List.forall_mem_cons.mpr ⟨hextends'.has _ _ _ hnew, hall⟩

theorem fillEmpty_spec (hmade : recognizer.Made) (h : start ≤ input.length)
    (hsound : chart.Sound recognizer.grammar input) :
    ∃ chart', recognizer.fillEmpty chart start = .ok chart' ∧
      chart'.Sound recognizer.grammar input ∧ chart.Extends chart' ∧
      chart'.CompleteAt recognizer.grammar input 0 start := by
  have hnumbers : ∀ number ∈ recognizer.nullable, ∃ token,
      recognizer.grammar.sorts.nonTerminals[number]? = some token ∧
        ∃ height, Yields recognizer.grammar true height [token] [] := by
    intro number hnumber
    rw [hmade.nullable_eq] at hnumber
    obtain ⟨token, htoken, hnumber⟩ := List.mem_filterMap.mp hnumber
    refine ⟨token, ?_, Grammar.mem_nullable_iff.mp htoken⟩
    rw [← hmade.names_eq]
    exact getElem?_of_idxOf? hnumber
  obtain ⟨chart', hfold, hsound', hextends, hall⟩ := foldlM_mark_spec h hnumbers hsound
  refine ⟨chart', hfold, hsound', hextends, ?_⟩
  intro height
  rw [knowsUpTo_zero_iff]
  intro token hyields hnonTerminal
  have hname : token ∈ recognizer.names := by
    rw [hmade.names_eq]
    exact SortTable.mem_nonTerminals.mpr hnonTerminal
  obtain ⟨number, hnumber⟩ := exists_idxOf? hname
  have hmem : number ∈ recognizer.nullable := by
    rw [hmade.nullable_eq]
    exact List.mem_filterMap.mpr ⟨token, Grammar.mem_nullable_iff.mpr ⟨height, hyields⟩, hnumber⟩
  have hget := getElem?_of_idxOf? hnumber
  rw [hmade.names_eq, ← hsound'.names_eq] at hget
  exact ⟨number, hget, hall number hmem⟩

/-! ### The chart of an input -/

theorem sound_blank (hmade : recognizer.Made) (input : Phrase) :
    (Chart.blank input.length recognizer.names).Sound recognizer.grammar input := by
  refine ⟨Chart.wellFormed_blank .., rfl, hmade.names_eq, ?_⟩
  rintro length start token ⟨number, _, hhas⟩
  rw [Chart.has_blank] at hhas
  cases hhas

/-- The filling ends without a fault, with a sound chart whose cells are all complete. -/
theorem chart_spec (hmade : recognizer.Made) (input : Phrase) :
    ∃ chart, recognizer.chart input = .ok chart ∧ chart.Sound recognizer.grammar input ∧
      ∀ length start, start + length ≤ input.length →
        chart.CompleteAt recognizer.grammar input length start := by
  have hblank : recognizer.FilledTo input 0 0 (Chart.blank input.length recognizer.names) :=
    ⟨sound_blank hmade input, by omega, by omega⟩
  have hempty : ∃ first,
      (List.range' 0 (input.length + 1)).foldlM recognizer.fillEmpty
        (Chart.blank input.length recognizer.names) = .ok first ∧
      recognizer.FilledTo input 0 (0 + (input.length + 1)) first := by
    apply exists_foldlM_range' hblank
    intro start chart _ hhigh hfilled
    obtain ⟨chart', hfill, hsound, hextends, hcomplete⟩ :=
      fillEmpty_spec hmade (show start ≤ input.length by omega) hfilled.sound
    exact ⟨chart', hfill, hfilled.extend hsound hextends hcomplete⟩
  obtain ⟨first, hfirst, hfilled⟩ := hempty
  have hrows : ∃ last,
      (List.range' 1 input.length).foldlM (recognizer.fillRow input) first = .ok last ∧
      recognizer.FilledTo input (1 + input.length) 0 last := by
    apply exists_foldlM_range' (motive := fun length chart => recognizer.FilledTo input length 0 chart)
      (hfilled.next_row (by omega))
    intro length chart hlow hhigh hfilled
    exact fillRow_spec hmade hlow (by omega) hfilled
  obtain ⟨last, hlast, hfilled⟩ := hrows
  refine ⟨last, ?_, hfilled.sound, ?_⟩
  · rw [BottomUp.chart, List.range_eq_range', hfirst]
    exact hlast
  · intro length start h
    exact hfilled.shorter length start (by omega) h

end BottomUp
end PhraseStructure
