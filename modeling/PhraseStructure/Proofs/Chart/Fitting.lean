import PhraseStructure.Chart.BottomUp
import PhraseStructure.Proofs.Chart.Layout
import PhraseStructure.Proofs.Grammar.Nullable
import PhraseStructure.Proofs.Partition.Enumeration
import PhraseStructure.Proofs.SortTable

/-!
# Laying an alternative over a part of the input

The chart works with numbers for non-terminals, the grammar with tokens.  The
non-terminals are distinct, so numbers and non-terminals determine each other, and
everything the recognizer reads from the chart can be said with tokens:
`Chart.Knows`, `Chart.Fits`, `Chart.Laid` and `Chart.Covers` say it, and the
computations decide them as long as they stay inside the chart.

If every mark of a chart is right, an alternative that covers a part yields it.  The
converse needs the chart to know enough.  It is stated for the parts of one part, the
part itself among them, because an alternative can reach back to its own cell.
-/

namespace PhraseStructure

theorem getElem?_of_idxOf? {names : List Token} {token : Token} {number : Nat}
    (h : names.idxOf? token = some number) : names[number]? = some token := by
  obtain ⟨hlt, hget, _⟩ := List.idxOf?_eq_some_iff.mp h
  rw [List.getElem?_eq_getElem hlt, hget]

/-- Every name has a number. -/
theorem exists_idxOf? {names : List Token} {token : Token} (h : token ∈ names) :
    ∃ number, names.idxOf? token = some number := by
  cases hnumber : names.idxOf? token with
  | none => exact absurd h (List.idxOf?_eq_none_iff.mp hnumber)
  | some number => exact ⟨number, rfl⟩

namespace Chart

variable {chart : Chart} {length start number : Nat} {token : Token}

/-- A non-terminal is marked in a cell. -/
def Knows (chart : Chart) (length start : Nat) (token : Token) : Prop :=
  ∃ number, chart.names[number]? = some token ∧ chart.has length start number = true

theorem knows_iff_has (hnodup : chart.names.Nodup) (hnumber : chart.names[number]? = some token) :
    chart.Knows length start token ↔ chart.has length start number = true := by
  constructor
  · rintro ⟨other, hother, hhas⟩
    obtain ⟨hlt, hget⟩ := List.getElem?_eq_some_iff.mp hnumber
    have hsame : number = other :=
      (List.getElem?_inj hlt hnodup).mp (hnumber.trans hother.symm)
    exact hsame ▸ hhas
  · intro hhas
    exact ⟨number, hnumber, hhas⟩

theorem Knows.mem (h : chart.Knows length start token) : token ∈ chart.names := by
  obtain ⟨number, hnumber, _⟩ := h
  exact List.mem_of_getElem? hnumber

theorem WellFormed.marked_decides (hchart : chart.WellFormed) (hnodup : chart.names.Nodup)
    (h : start + length ≤ chart.size) (hnumber : chart.names.idxOf? token = some number) :
    Decides (chart.marked length start number) (chart.Knows length start token) := by
  have hget := getElem?_of_idxOf? hnumber
  obtain ⟨hlt, _⟩ := List.getElem?_eq_some_iff.mp hget
  exact ⟨_, hchart.marked_eq h hlt, (knows_iff_has hnodup hget).symm⟩

/-- Inside a well-formed chart `contains` answers for every token. -/
theorem WellFormed.contains_decides (hchart : chart.WellFormed) (hnodup : chart.names.Nodup)
    (h : start + length ≤ chart.size) (token : Token) :
    Decides (chart.contains length start token) (chart.Knows length start token) := by
  unfold contains place
  rw [place?_of_le h]
  by_cases hmem : token ∈ chart.names
  · obtain ⟨number, hnumber⟩ := exists_idxOf? hmem
    rw [hnumber]
    exact hchart.marked_decides hnodup h hnumber
  · rw [List.idxOf?_eq_none_iff.mpr hmem]
    refine ⟨false, rfl, ?_⟩
    have hnot : ¬ chart.Knows length start token := fun hknows => hmem hknows.mem
    simp [hnot]

/-! ### Laying an alternative -/

/-- A token fits over a group that begins at `start`. -/
def Fits (chart : Chart) (start : Nat) (group : Phrase) (token : Token) : Prop :=
  (token ∉ chart.names ∧ group = [token]) ∨ chart.Knows group.length start token

/-- The tokens of a form fit over neighbouring groups, one each; the first group
begins at `start`. -/
inductive Laid (chart : Chart) : Nat → Phrase → List Phrase → Prop
  | nil (start : Nat) : Laid chart start [] []
  | cons {start : Nat} {token : Token} {group form : Phrase} {groups : List Phrase}
      (h : chart.Fits start group token)
      (rest : Laid chart (start + group.length) form groups) :
      Laid chart start (token :: form) (group :: groups)

/-- An alternative that is not empty is laid over some split of the `length` tokens at
`start`. -/
def Covers (chart : Chart) (input : Phrase) (length start : Nat) (alternative : Phrase) : Prop :=
  alternative ≠ [] ∧ ∃ groups,
    IsSplit (input.span start (start + length)) alternative.length true groups ∧
      chart.Laid start alternative groups

end Chart

namespace BottomUp

variable {chart : Chart} {start length : Nat}

theorem fits_decides (hchart : chart.WellFormed) (hnodup : chart.names.Nodup)
    {group : Phrase} (h : start + group.length ≤ chart.size) (token : Token) :
    Decides (fits chart start group (numbered chart.names token))
      (chart.Fits start group token) := by
  unfold numbered Chart.Fits
  by_cases hmem : token ∈ chart.names
  · obtain ⟨number, hnumber⟩ := exists_idxOf? hmem
    rw [hnumber]
    refine (hchart.marked_decides hnodup h hnumber).congr ?_
    simp [hmem]
  · rw [List.idxOf?_eq_none_iff.mpr hmem]
    have hnot : ¬ chart.Knows group.length start token := fun hknows => hmem hknows.mem
    exact ⟨decide (group = [token]), rfl, by simp [hmem, hnot]⟩

theorem laid_cons_iff {token : Token} {group form : Phrase} {groups : List Phrase} :
    chart.Laid start (token :: form) (group :: groups) ↔
      chart.Fits start group token ∧ chart.Laid (start + group.length) form groups := by
  constructor
  · intro h
    cases h with
    | cons h rest => exact ⟨h, rest⟩
  · rintro ⟨h, rest⟩
    exact .cons h rest

theorem fitsAll_decides (hchart : chart.WellFormed) (hnodup : chart.names.Nodup)
    {form : Phrase} {groups : List Phrase} (hlength : groups.length = form.length)
    (h : start + groups.flatten.length ≤ chart.size) :
    Decides (fitsAll chart start (form.map (numbered chart.names)) groups)
      (chart.Laid start form groups) := by
  induction form generalizing start groups with
  | nil =>
      obtain rfl := List.length_eq_zero_iff.mp hlength
      exact ⟨true, rfl, by simp [Chart.Laid.nil]⟩
  | cons token form ih =>
      obtain ⟨group, groups, rfl⟩ := List.exists_cons_of_length_eq_add_one hlength
      rw [List.flatten_cons, List.length_append] at h
      obtain ⟨verdict, hfits, hverdict⟩ := fits_decides hchart hnodup
        (show start + group.length ≤ chart.size by omega) token
      rw [List.map_cons, fitsAll, hfits]
      cases verdict with
      | true =>
          have hrest := ih (Nat.succ.inj hlength)
            (show start + group.length + groups.flatten.length ≤ chart.size by omega)
          refine Decides.congr hrest ?_
          rw [laid_cons_iff, and_iff_right (hverdict.mp rfl)]
      | false =>
          have hnot : ¬ chart.Fits start group token := fun hfits => nomatch hverdict.mpr hfits
          exact ⟨false, rfl, by simp [laid_cons_iff, hnot]⟩

/-- An alternative that is not empty is tried on all splits of a part of the input. -/
theorem derives_of_ne_nil {input : Phrase} {parts : List Part} (hparts : parts ≠ [])
    (h : start + length ≤ input.length) :
    derives chart input length start parts =
      (Splits.all (input.span start (start + length)) parts.length true).anyM
        (fitsAll chart start parts) := by
  have hgroups : parts.length ≠ 0 := fun hzero => hparts (List.length_eq_zero_iff.mp hzero)
  have hempty : parts.isEmpty = false := List.isEmpty_eq_false_iff.mpr hparts
  unfold derives
  rw [hempty, Phrase.slice_eq_ok ⟨Nat.le_add_right start length, h⟩]
  show (Splits.trusted (input.span start (start + length)) parts.length true >>= _) = _
  rw [Splits.trusted_eq_all (Splits.refusal?_of_allowEmpty hgroups _)]
  rfl

/-- The search over splits decides whether an alternative covers a part. -/
theorem derives_decides (hchart : chart.WellFormed) (hnodup : chart.names.Nodup)
    {input : Phrase} (hsize : chart.size = input.length) (h : start + length ≤ input.length)
    (alternative : Phrase) :
    Decides (derives chart input length start (alternative.map (numbered chart.names)))
      (chart.Covers input length start alternative) := by
  by_cases halternative : alternative = []
  · subst halternative
    exact ⟨false, rfl, by simp [Chart.Covers]⟩
  · have hparts : alternative.map (numbered chart.names) ≠ [] :=
      fun hnil => halternative (List.map_eq_nil_iff.mp hnil)
    have hspan : (input.span start (start + length)).length = length := by
      rw [Phrase.length_span h, Nat.add_sub_cancel_left]
    have hgroups : alternative.length ≠ 0 :=
      fun hzero => halternative (List.length_eq_zero_iff.mp hzero)
    obtain ⟨list, hlist, hmem⟩ := Splits.exists_toList_all
      (Splits.refusal?_of_allowEmpty hgroups (input.span start (start + length)).length)
    have hsearch : Decides
        (list.anyM (fitsAll chart start (alternative.map (numbered chart.names))))
        (∃ groups ∈ list, chart.Laid start alternative groups) := by
      apply Decides.anyM
      intro groups hgroups
      have hsplit := (hmem groups).mp hgroups
      apply fitsAll_decides hchart hnodup hsplit.length_eq
      rw [hsplit.flatten_eq, hspan, hsize]
      exact h
    rw [derives_of_ne_nil hparts h, List.length_map, Splits.anyM_eq_of_toList hlist]
    refine hsearch.congr ?_
    simp only [hmem, Chart.Covers, ne_eq, halternative, not_false_eq_true, true_and]

end BottomUp

/-! ### Sound charts -/

namespace Chart

/-- A chart of an input, for the non-terminals of a grammar, in which every mark is
right. -/
structure Sound (grammar : Grammar) (input : Phrase) (chart : Chart) : Prop where
  wellFormed : chart.WellFormed
  size_eq : chart.size = input.length
  names_eq : chart.names = grammar.sorts.nonTerminals
  yields : ∀ length start token, chart.Knows length start token →
    ∃ height, Yields grammar true height [token] (input.span start (start + length))

variable {grammar : Grammar} {input : Phrase} {chart : Chart} {length start : Nat}

theorem Sound.nodup (hsound : chart.Sound grammar input) : chart.names.Nodup := by
  rw [hsound.names_eq]
  exact SortTable.nodup_withSort ..

theorem Sound.mem_names (hsound : chart.Sound grammar input) {token : Token} :
    token ∈ chart.names ↔ grammar.isNonTerminal token = true := by
  rw [hsound.names_eq]
  exact SortTable.mem_nonTerminals

/-- Groups over which the tokens of a form are laid are yields of these tokens. -/
theorem Sound.forall₂_of_laid (hsound : chart.Sound grammar input) {form : Phrase}
    {groups : List Phrase} (hform : ∀ token ∈ form, grammar.sorts.contains token = true)
    (hlaid : chart.Laid start form groups) (h : start + groups.flatten.length ≤ input.length)
    (hspan : input.span start (start + groups.flatten.length) = groups.flatten) :
    List.Forall₂ (fun token part => ∃ height, Yields grammar true height [token] part)
      form groups := by
  induction hlaid with
  | nil => exact .nil
  | @cons start token group form groups hfits _ ih =>
      obtain ⟨htoken, hform⟩ := List.forall_mem_cons.mp hform
      rw [List.flatten_cons] at h hspan
      obtain ⟨_, hgroup, hrest⟩ := Phrase.span_eq_append (Nat.le_add_right ..) h hspan
      rw [List.length_append, ← Nat.add_assoc] at h hrest
      refine .cons ?_ (ih hform h hrest)
      rcases hfits with ⟨hnot, rfl⟩ | hknows
      · rw [hsound.mem_names, Bool.not_eq_true] at hnot
        exact ⟨0, .of_terminal 0 (SortTable.isTerminal_of_contains htoken hnot)⟩
      · rw [← hgroup]
        exact hsound.yields _ _ _ hknows

/-- What an alternative covers, it yields. -/
theorem Sound.of_covers (hsound : chart.Sound grammar input) {alternative : Phrase}
    (hclassified : ∀ token ∈ alternative, grammar.sorts.contains token = true)
    (h : start + length ≤ input.length) (hcovers : chart.Covers input length start alternative) :
    ∃ height, Yields grammar true height alternative (input.span start (start + length)) := by
  obtain ⟨_, groups, hsplit, hlaid⟩ := hcovers
  have hlength : groups.flatten.length = length := by
    rw [hsplit.flatten_eq, Phrase.length_span h, Nat.add_sub_cancel_left]
  have hforall := hsound.forall₂_of_laid hclassified hlaid (by rwa [hlength])
    (by rw [hlength, hsplit.flatten_eq])
  rw [← hsplit.flatten_eq]
  exact Yields.of_parts hforall

/-! ### Parts that the chart knows enough about -/

/-- Every non-terminal that yields the `length` tokens at `start` within `height`
replacements is marked. -/
def KnowsUpTo (chart : Chart) (grammar : Grammar) (input : Phrase) (height length start : Nat) :
    Prop :=
  ∀ token, Yields grammar true height [token] (input.span start (start + length)) →
    grammar.isNonTerminal token = true → chart.Knows length start token

theorem Sound.fits_of_yields (hsound : chart.Sound grammar input) {height : Nat} {token : Token}
    {group : Phrase} (hgroup : input.span start (start + group.length) = group)
    (hyields : Yields grammar true height [token] group)
    (hknown : chart.KnowsUpTo grammar input height group.length start) :
    chart.Fits start group token := by
  -- A token that yields something is a terminal, which is no name, or a non-terminal, for which
  -- the chart has to be asked.
  cases hterminal : grammar.isTerminal token with
  | true =>
      have hnot := SortTable.isNonTerminal_eq_false_of_isTerminal hterminal
      refine .inl ⟨?_, Yields.eq_of_terminal hterminal hyields⟩
      rw [hsound.mem_names, Grammar.isNonTerminal, hnot]
      exact Bool.false_ne_true
  | false =>
      refine .inr (hknown token ?_ (hyields.isNonTerminal hterminal))
      rwa [hgroup]

theorem Sound.laid_of_yields (hsound : chart.Sound grammar input) {height : Nat} {form : Phrase}
    {groups : List Phrase} (h : start + groups.flatten.length ≤ input.length)
    (hspan : input.span start (start + groups.flatten.length) = groups.flatten)
    (hyields : List.Forall₂ (fun token part => Yields grammar true height [token] part)
      form groups)
    (hknown : ∀ length' start', start ≤ start' →
      start' + length' ≤ start + groups.flatten.length →
        chart.KnowsUpTo grammar input height length' start') :
    chart.Laid start form groups := by
  induction hyields generalizing start with
  | nil => exact .nil start
  | @cons token group form groups hyields _ ih =>
      rw [List.flatten_cons] at h hspan hknown
      obtain ⟨hle, hgroup, hrest⟩ := Phrase.span_eq_append (Nat.le_add_right ..) h hspan
      rw [List.length_append, ← Nat.add_assoc] at h hrest hknown
      refine .cons (hsound.fits_of_yields hgroup hyields ?_) (ih h hrest ?_)
      · exact hknown group.length start (Nat.le_refl _) (Nat.le_add_right ..)
      · intro length' start' hstart
        exact hknown length' start' (by omega)

/-- A yield of an alternative is covered if the chart knows the yields of the same
height inside it. -/
theorem Sound.covers_of_yields (hsound : chart.Sound grammar input) {height : Nat}
    {alternative : Phrase} (halternative : alternative ≠ []) (h : start + length ≤ input.length)
    (hyields : Yields grammar true height alternative (input.span start (start + length)))
    (hknown : ∀ length' start', start ≤ start' → start' + length' ≤ start + length →
      chart.KnowsUpTo grammar input height length' start') :
    chart.Covers input length start alternative := by
  obtain ⟨groups, hflatten, hparts⟩ := hyields.exists_parts
  have hlength : groups.flatten.length = length := by
    rw [hflatten, Phrase.length_span h, Nat.add_sub_cancel_left]
  refine ⟨halternative, groups, ⟨hparts.length_eq.symm, hflatten, fun hfalse => nomatch hfalse⟩, ?_⟩
  exact hsound.laid_of_yields (by rwa [hlength]) (by rw [hlength, hflatten]) hparts
    (by rwa [hlength])

end Chart
end PhraseStructure
