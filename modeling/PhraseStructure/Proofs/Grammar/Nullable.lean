import PhraseStructure.Grammar.Nullable
import PhraseStructure.Proofs.Grammar.Yield

/-!
# Nullable means yielding the empty word

The passes over the rules never find a token that does not yield the empty word, and
they end with a set that no rule can extend, which then holds every token that
does.  They do end: a pass that is not the last one finds a new token, all tokens
found are left-hand tokens of context-free rules, and these are no more than the
rules.

The order of the rules decides in which pass a token is found, but not whether.
-/

namespace PhraseStructure

namespace Token

theorem insertAscending_of_mem {token : Token} {tokens : List Token}
    (hascending : tokens.Pairwise (· < ·)) (hmem : token ∈ tokens) :
    insertAscending token tokens = tokens := by
  induction tokens with
  | nil => cases hmem
  | cons first rest ih =>
      obtain ⟨hfirst, hrest⟩ := List.pairwise_cons.mp hascending
      rcases List.mem_cons.mp hmem with rfl | hmem
      · rw [insertAscending, if_neg (lt_irrefl token), if_pos rfl]
      · have hlt := hfirst token hmem
        have hnlt : ¬ token < first := fun h => lt_irrefl token (lt_trans h hlt)
        have hne : token ≠ first := fun h => lt_irrefl token (h.symm ▸ hlt)
        rw [insertAscending, if_neg hnlt, if_neg hne, ih hrest hmem]

theorem length_insertAscending_of_not_mem {token : Token} {tokens : List Token}
    (h : token ∉ tokens) : (insertAscending token tokens).length = tokens.length + 1 := by
  induction tokens with
  | nil => rfl
  | cons first rest ih =>
      have hne : token ≠ first := List.ne_of_not_mem_cons h
      have hrest : token ∉ rest := List.not_mem_of_not_mem_cons h
      rw [insertAscending, if_neg hne]
      split
      · rfl
      · rw [List.length_cons, ih hrest, List.length_cons]

end Token

namespace Grammar

variable {grammar : Grammar}

/-- A strictly ascending list of tokens that yield the empty word. -/
structure NullableSoFar (grammar : Grammar) (found : List Token) : Prop where
  ascending : found.Pairwise (· < ·)
  yields : ∀ token ∈ found, ∃ height, Yields grammar true height [token] []

/-- No rule vanishes over the found tokens without its own token being found. -/
def NullableClosed (rules : List Rule) (found : List Token) : Prop :=
  ∀ rule ∈ rules, vanishes found rule = true → ∀ token, rule.lhs = [token] → token ∈ found

theorem vanishes_iff {found : List Token} {rule : Rule} :
    vanishes found rule = true ↔
      ∃ alternative ∈ rule.alternatives, ∀ token ∈ alternative, token ∈ found := by
  simp [vanishes]

/-- A form of tokens that yield the empty word yields the empty word. -/
theorem exists_yields_nil {form : Phrase}
    (h : ∀ token ∈ form, ∃ height, Yields grammar true height [token] []) :
    ∃ height, Yields grammar true height form [] := by
  have hparts : List.Forall₂ (fun token part => ∃ height, Yields grammar true height [token] part)
      form (form.map fun _ => []) := by
    induction form with
    | nil => exact .nil
    | cons token form ih =>
        exact .cons (h token List.mem_cons_self)
          (ih fun other hother => h other (List.mem_cons_of_mem _ hother))
  obtain ⟨height, hyields⟩ := Yields.of_parts hparts
  have hflatten : (form.map fun _ => ([] : Phrase)).flatten = [] := by simp
  rw [hflatten] at hyields
  exact ⟨height, hyields⟩

/-! ### One rule and one pass -/

theorem NullableSoFar.nullableStep {found : List Token} {rule : Rule}
    (h : grammar.NullableSoFar found) (hrule : rule ∈ grammar.contextFreeRules) :
    grammar.NullableSoFar (nullableStep found rule) := by
  unfold Grammar.nullableStep
  split
  · rename_i token hlhs
    split
    · rename_i hvanishes
      refine ⟨Token.pairwise_insertAscending token h.ascending, ?_⟩
      intro other hother
      rcases Token.mem_insertAscending.mp hother with rfl | hother
      · obtain ⟨alternative, halternative, hall⟩ := vanishes_iff.mp hvanishes
        obtain ⟨height, hyields⟩ := exists_yields_nil fun t ht => h.yields t (hall t ht)
        have hproduction : grammar.ContextFreeProduction [other] alternative :=
          ⟨rule, hrule, hlhs, halternative⟩
        exact ⟨height + 1, Yields.of_production hproduction.usable hyields⟩
      · exact h.yields other hother
    · exact h
  · exact h

theorem NullableSoFar.foldl {found : List Token} {rules : List Rule}
    (h : grammar.NullableSoFar found) (hrules : ∀ rule ∈ rules, rule ∈ grammar.contextFreeRules) :
    grammar.NullableSoFar (nullablePass rules found) := by
  unfold nullablePass
  induction rules generalizing found with
  | nil => exact h
  | cons rule rules ih =>
      exact ih (h.nullableStep (hrules rule List.mem_cons_self))
        fun other hother => hrules other (List.mem_cons_of_mem _ hother)

/-- A rule adds nothing or makes the list longer. -/
theorem nullableStep_eq_or_lt {found : List Token} (hascending : found.Pairwise (· < ·))
    (rule : Rule) :
    nullableStep found rule = found ∨ found.length < (nullableStep found rule).length := by
  unfold nullableStep
  split
  · rename_i token _
    split
    · by_cases hmem : token ∈ found
      · exact .inl (Token.insertAscending_of_mem hascending hmem)
      · rw [Token.length_insertAscending_of_not_mem hmem]
        exact .inr (Nat.lt_succ_self _)
    · exact .inl rfl
  · exact .inl rfl

/-- A pass makes the list longer unless no rule adds anything to it. -/
theorem nullablePass_closed_or_lt {found : List Token} {rules : List Rule}
    (h : grammar.NullableSoFar found) (hrules : ∀ rule ∈ rules, rule ∈ grammar.contextFreeRules) :
    (nullablePass rules found = found ∧ ∀ rule ∈ rules, nullableStep found rule = found) ∨
      found.length < (nullablePass rules found).length := by
  induction rules generalizing found with
  | nil => exact .inl ⟨rfl, by simp⟩
  | cons rule rules ih =>
      have hrest : ∀ other ∈ rules, other ∈ grammar.contextFreeRules :=
        fun other hother => hrules other (List.mem_cons_of_mem _ hother)
      have htail := ih (h.nullableStep (hrules rule List.mem_cons_self)) hrest
      have hpass : nullablePass (rule :: rules) found =
          nullablePass rules (nullableStep found rule) := rfl
      rw [hpass]
      -- If the first rule adds nothing, the rest of the pass starts from the same list.
      rcases nullableStep_eq_or_lt h.ascending rule with heq | hlt
      · rw [heq] at htail ⊢
        rcases htail with ⟨hpass, hall⟩ | hlt
        · exact .inl ⟨hpass, List.forall_mem_cons.mpr ⟨heq, hall⟩⟩
        · exact .inr hlt
      · rcases htail with ⟨hpass, _⟩ | hlt'
        · exact .inr (hpass.symm ▸ hlt)
        · exact .inr (Nat.lt_trans hlt hlt')

theorem nullableClosed_of_forall {found : List Token} {rules : List Rule}
    (h : ∀ rule ∈ rules, nullableStep found rule = found) : NullableClosed rules found := by
  intro rule hrule hvanishes token hlhs
  have hstep := h rule hrule
  simp only [nullableStep, hlhs, hvanishes, if_true] at hstep
  rw [← hstep]
  exact Token.mem_insertAscending.mpr (.inl rfl)

/-! ### All passes -/

theorem NullableSoFar.length_le {found : List Token} (h : grammar.NullableSoFar found) :
    found.length ≤ grammar.contextFreeRules.length := by
  -- Every token found has a context-free rule of its own.
  have hnodup : (found.map fun token => [token]).Nodup := by
    refine List.Nodup.map (fun a b hab => by simpa using hab) ?_
    refine h.ascending.imp ?_
    rintro a _ hlt rfl
    exact Token.lt_irrefl a hlt
  have hsubset : (found.map fun token => [token]) ⊆ grammar.contextFreeRules.map Rule.lhs := by
    intro lhs hlhs
    obtain ⟨token, htoken, rfl⟩ := List.mem_map.mp hlhs
    obtain ⟨height, hyields⟩ := h.yields token htoken
    have hterminal : grammar.isTerminal token = false := by
      cases hterminal : grammar.isTerminal token with
      | false => rfl
      | true => cases Yields.eq_of_terminal hterminal hyields
    obtain ⟨_, _, _, ⟨⟨rule, hrule, hlhs, _⟩, _⟩, _⟩ := hyields.exists_production hterminal
    exact List.mem_map.mpr ⟨rule, hrule, hlhs⟩
  simpa using hnodup.length_le_of_subset hsubset

theorem nullablePasses_spec {limit : Nat} {found : List Token} (h : grammar.NullableSoFar found)
    (hlimit : grammar.contextFreeRules.length < limit + found.length) :
    grammar.NullableSoFar (nullablePasses grammar.contextFreeRules limit found) ∧
      NullableClosed grammar.contextFreeRules
        (nullablePasses grammar.contextFreeRules limit found) := by
  induction limit generalizing found with
  | zero =>
      have hle := h.length_le
      omega
  | succ limit ih =>
      have hself : ∀ rule ∈ grammar.contextFreeRules, rule ∈ grammar.contextFreeRules :=
        fun _ hrule => hrule
      have hnext := h.foldl hself
      simp only [nullablePasses]
      rcases nullablePass_closed_or_lt h hself with ⟨heq, hall⟩ | hlt
      · rw [if_pos heq]
        exact ⟨h, nullableClosed_of_forall hall⟩
      · have hne : nullablePass grammar.contextFreeRules found ≠ found := by
          intro heq
          rw [heq] at hlt
          exact Nat.lt_irrefl _ hlt
        rw [if_neg hne]
        exact ih hnext (by omega)

/-- Tokens of a form that yields the empty word are in every closed set. -/
theorem NullableClosed.mem_of_yields {found : List Token} {height : Nat} {form word : Phrase}
    (hclosed : NullableClosed grammar.contextFreeRules found)
    (h : Yields grammar true height form word) (hword : word = []) :
    ∀ token ∈ form, token ∈ found := by
  induction h with
  | nil => simp
  | keep => cases hword
  | @expand _ token alternative form _ _ hproduction _ _ ihInner ihRest =>
      obtain ⟨hpart, hrest⟩ := List.append_eq_nil_iff.mp hword
      obtain ⟨⟨rule, hrule, hlhs, halternative⟩, _⟩ := hproduction
      have hvanishes : vanishes found rule = true :=
        vanishes_iff.mpr ⟨alternative, halternative, ihInner hpart⟩
      exact List.forall_mem_cons.mpr ⟨hclosed rule hrule hvanishes token hlhs, ihRest hrest⟩

theorem pairwise_nullable (grammar : Grammar) : grammar.nullable.Pairwise (· < ·) :=
  (nullablePasses_spec ⟨.nil, by simp⟩ (Nat.lt_succ_self _)).1.ascending

/-- The nullable tokens are those that yield the empty word. -/
theorem mem_nullable_iff {token : Token} :
    token ∈ grammar.nullable ↔ ∃ height, Yields grammar true height [token] [] := by
  have hempty : grammar.NullableSoFar [] := ⟨.nil, by simp⟩
  have hlimit : grammar.contextFreeRules.length <
      grammar.contextFreeRules.length + 1 + ([] : List Token).length := Nat.lt_succ_self _
  obtain ⟨hsound, hclosed⟩ := nullablePasses_spec hempty hlimit
  constructor
  · exact hsound.yields token
  · rintro ⟨height, hyields⟩
    exact hclosed.mem_of_yields hyields rfl token List.mem_cons_self

theorem mem_nullable_iff_generates {token : Token} :
    token ∈ grammar.nullable ↔ grammar.Generates [token] [] := by
  rw [mem_nullable_iff, generates_iff]

end Grammar
end PhraseStructure
