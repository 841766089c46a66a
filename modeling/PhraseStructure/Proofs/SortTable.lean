import Mathlib.Data.List.Sort
import PhraseStructure.SortTable

/-!
# Looking up sorts

A sort table is read through `sortOf`.  The tokens of its entries are distinct, so
an entry is in the table exactly if its token has its sort, and tables that give
every token the same sort are the same table.  `insert` changes the sort of an
unclassified token and of nothing else.

`SortTable.restrict` keeps the entries of listed tokens.  Classifying tokens with the
sorts of a table, one after another, leads through restrictions of that table.
-/

namespace PhraseStructure

/-- Looking up a key among items with distinct keys finds the item with that key. -/
theorem find?_key_eq_some_iff {α β : Type} [DecidableEq β] {items : List α} {key : α → β}
    (hnodup : (items.map key).Nodup) {wanted : β} {item : α} :
    (items.find? fun other => key other = wanted) = some item ↔
      item ∈ items ∧ key item = wanted := by
  constructor
  · intro hfind
    exact ⟨List.mem_of_find?_eq_some hfind, by simpa using List.find?_some hfind⟩
  · rintro ⟨hmem, hkey⟩
    cases hfind : items.find? fun other => key other = wanted with
    | none =>
        have hnone := List.find?_eq_none.mp hfind item hmem
        simp [hkey] at hnone
    | some other =>
        have hother := List.find?_some hfind
        simp only [decide_eq_true_eq] at hother
        rw [List.inj_on_of_nodup_map hnodup (List.mem_of_find?_eq_some hfind) hmem
          (hother.trans hkey.symm)]

/-- Lists of the same items are equal if both ascend strictly in the tokens of the items. -/
theorem eq_of_mem_iff_of_ascending {α : Type} {token : α → Token} {left right : List α}
    (hleft : left.Pairwise fun a b => token a < token b)
    (hright : right.Pairwise fun a b => token a < token b)
    (h : ∀ item, item ∈ left ↔ item ∈ right) : left = right := by
  have hirrefl : Std.Irrefl fun a b => token a < token b := ⟨fun a => Token.lt_irrefl (token a)⟩
  have hantisymm : Std.Antisymm fun a b => token a < token b :=
    ⟨fun a b hab hba => absurd (Token.lt_trans hab hba) (Token.lt_irrefl (token a))⟩
  exact hleft.eq_of_mem_iff hright h

namespace SortTable

variable {table : SortTable} {token : Token} {sort : SymbolSort}

/-- No token has two entries. -/
theorem nodup_fst (table : SortTable) : (table.entries.map Prod.fst).Nodup := by
  refine List.pairwise_map.mpr (table.ascending.imp ?_)
  intro a b hlt heq
  exact Token.lt_irrefl a.1 (by rw [heq] at hlt ⊢; exact hlt)

theorem mem_entries_iff : (token, sort) ∈ table.entries ↔ table.sortOf token = some sort := by
  unfold sortOf
  rw [Option.map_eq_some_iff]
  constructor
  · intro hmem
    exact ⟨(token, sort), (find?_key_eq_some_iff table.nodup_fst).mpr ⟨hmem, rfl⟩, rfl⟩
  · rintro ⟨entry, hfind, rfl⟩
    obtain ⟨hmem, rfl⟩ := (find?_key_eq_some_iff table.nodup_fst).mp hfind
    exact hmem

theorem mem_withSort : token ∈ table.withSort sort ↔ table.sortOf token = some sort := by
  rw [← mem_entries_iff]
  simp [withSort]

theorem pairwise_withSort (table : SortTable) (sort : SymbolSort) :
    (table.withSort sort).Pairwise (· < ·) :=
  List.pairwise_map.mpr (table.ascending.filter _)

theorem nodup_withSort (table : SortTable) (sort : SymbolSort) : (table.withSort sort).Nodup := by
  unfold withSort
  exact table.nodup_fst.sublist (List.filter_sublist.map Prod.fst)

/-- The unclassified tokens are determined by being listed in ascending order. -/
theorem missing_eq_iff {tokens missing : List Token} :
    table.missing tokens = missing ↔
      missing.Pairwise (· < ·) ∧
        ∀ token, token ∈ missing ↔ token ∈ tokens ∧ table.contains token = false := by
  constructor
  · rintro rfl
    exact ⟨table.pairwise_missing tokens, fun token => mem_missing⟩
  · rintro ⟨hascending, hmem⟩
    have hsame : ∀ token, token ∈ table.missing tokens ↔ token ∈ missing := by
      intro token
      rw [mem_missing, hmem]
    exact @eq_of_mem_iff_of_ascending Token id _ _ (table.pairwise_missing tokens) hascending hsame

/-! ### Terminals and non-terminals -/

theorem isTerminal_iff : table.isTerminal token = true ↔ table.sortOf token = some .terminal :=
  decide_eq_true_iff

theorem isNonTerminal_iff :
    table.isNonTerminal token = true ↔ table.sortOf token = some .nonTerminal :=
  decide_eq_true_iff

theorem mem_nonTerminals : token ∈ table.nonTerminals ↔ table.isNonTerminal token = true := by
  rw [nonTerminals, mem_withSort, isNonTerminal_iff]

theorem isNonTerminal_eq_false_of_isTerminal (h : table.isTerminal token = true) :
    table.isNonTerminal token = false := by
  rw [isNonTerminal, isTerminal_iff.mp h]
  rfl

theorem isTerminal_eq_false_of_isNonTerminal (h : table.isNonTerminal token = true) :
    table.isTerminal token = false := by
  rw [isTerminal, isNonTerminal_iff.mp h]
  rfl

theorem isNonTerminal_of_contains (hcontains : table.contains token = true)
    (h : table.isTerminal token = false) : table.isNonTerminal token = true := by
  obtain ⟨sort, hsort⟩ := Option.isSome_iff_exists.mp hcontains
  rw [isNonTerminal_iff, hsort]
  cases sort with
  | nonTerminal => rfl
  | terminal =>
      rw [isTerminal_iff.mpr hsort] at h
      cases h

theorem isTerminal_of_contains (hcontains : table.contains token = true)
    (h : table.isNonTerminal token = false) : table.isTerminal token = true := by
  cases hterminal : table.isTerminal token with
  | true => rfl
  | false =>
      rw [isNonTerminal_of_contains hcontains hterminal] at h
      cases h

/-- The terminals and non-terminals are the classified tokens. -/
theorem mem_nonTerminals_append_terminals :
    token ∈ table.nonTerminals ++ table.terminals ↔ table.contains token = true := by
  rw [List.mem_append, nonTerminals, terminals, mem_withSort, mem_withSort, contains,
    Option.isSome_iff_exists]
  constructor
  · rintro (hsort | hsort)
    · exact ⟨.nonTerminal, hsort⟩
    · exact ⟨.terminal, hsort⟩
  · rintro ⟨sort, hsort⟩
    cases sort with
    | nonTerminal => exact .inl hsort
    | terminal => exact .inr hsort

theorem disjoint_nonTerminals_terminals (table : SortTable) :
    table.nonTerminals.Disjoint table.terminals := by
  intro token hnonTerminal hterminal
  have hsort := mem_withSort.mp hnonTerminal
  rw [mem_withSort.mp hterminal] at hsort
  cases hsort

/-! ### Equal tables -/

/-- Tables that give every token the same sort are the same. -/
theorem ext_sortOf {table other : SortTable}
    (h : ∀ token, table.sortOf token = other.sortOf token) : table = other := by
  have hentries : table.entries = other.entries := by
    refine eq_of_mem_iff_of_ascending table.ascending other.ascending ?_
    rintro ⟨token, sort⟩
    rw [mem_entries_iff, mem_entries_iff, h]
  cases table
  cases other
  cases hentries
  rfl

theorem sortOf_empty (token : Token) : empty.sortOf token = none := rfl

theorem mem_insertEntry {entries : List (Token × SymbolSort)} {entry : Token × SymbolSort}
    (hnot : ∀ entry ∈ entries, entry.1 ≠ token) :
    entry ∈ insertEntry token sort entries ↔ entry = (token, sort) ∨ entry ∈ entries := by
  induction entries with
  | nil => simp [insertEntry]
  | cons first rest ih =>
      obtain ⟨hfirst, hrest⟩ := List.forall_mem_cons.mp hnot
      have hne : ¬ token = first.1 := fun h => hfirst h.symm
      rw [insertEntry, if_neg hne]
      split
      · exact List.mem_cons
      · rw [List.mem_cons, List.mem_cons, ih hrest]
        exact or_left_comm

/-- Inserting classifies one unclassified token. -/
theorem sortOf_insert (h : table.sortOf token = none) (other : Token) :
    (table.insert token sort).sortOf other =
      if other = token then some sort else table.sortOf other := by
  have hnot : ∀ entry ∈ table.entries, entry.1 ≠ token := by
    rintro ⟨known, knownSort⟩ hentry rfl
    rw [mem_entries_iff.mp hentry] at h
    cases h
  apply Option.ext
  intro found
  rw [← mem_entries_iff]
  show (other, found) ∈ insertEntry token sort table.entries ↔ _
  rw [mem_insertEntry hnot, mem_entries_iff, Prod.mk.injEq]
  split
  · rename_i heq
    subst heq
    simp [h, eq_comm]
  · rename_i hne
    simp [hne]

/-! ### Restriction -/

/-- The entries of listed tokens. -/
def restrict (table : SortTable) (tokens : List Token) : SortTable where
  entries := table.entries.filter fun entry => entry.1 ∈ tokens
  ascending := table.ascending.filter _

theorem sortOf_restrict (table : SortTable) (tokens : List Token) (token : Token) :
    (table.restrict tokens).sortOf token = if token ∈ tokens then table.sortOf token else none := by
  apply Option.ext
  intro sort
  rw [← mem_entries_iff, restrict, List.mem_filter, mem_entries_iff, decide_eq_true_iff]
  split
  · rename_i hmem
    exact and_iff_left hmem
  · rename_i hnot
    simp [hnot]

/-- Only the set of listed tokens matters. -/
theorem restrict_congr (table : SortTable) {tokens tokens' : List Token}
    (h : ∀ token, token ∈ tokens ↔ token ∈ tokens') :
    table.restrict tokens = table.restrict tokens' := by
  apply ext_sortOf
  intro token
  rw [sortOf_restrict, sortOf_restrict]
  exact if_congr (h token) rfl rfl

theorem restrict_nil (table : SortTable) : table.restrict [] = empty := by
  apply ext_sortOf
  intro token
  rw [sortOf_restrict, sortOf_empty, if_neg List.not_mem_nil]

theorem contains_restrict {table : SortTable} {tokens : List Token} {token : Token} :
    (table.restrict tokens).contains token = true ↔
      token ∈ tokens ∧ table.contains token = true := by
  rw [contains, sortOf_restrict, contains]
  split
  · rename_i hmem
    exact (and_iff_right hmem).symm
  · rename_i hnot
    simp [hnot]

/-- A table restricted to tokens is the table itself if these are all it classifies. -/
theorem restrict_eq_self_iff {table : SortTable} {tokens : List Token} :
    table.restrict tokens = table ↔ ∀ token, table.contains token = true → token ∈ tokens := by
  constructor
  · intro heq token hcontains
    rw [← heq] at hcontains
    exact (contains_restrict.mp hcontains).1
  · intro h
    apply ext_sortOf
    intro token
    rw [sortOf_restrict]
    split
    · rfl
    · rename_i hnot
      cases hsort : table.sortOf token with
      | none => rfl
      | some sort => exact absurd (h token (by rw [contains, hsort]; rfl)) hnot

/-- Giving a token its own sort adds the token to the listed ones. -/
theorem classify_restrict (h : table.sortOf token = some sort) (tokens : List Token) :
    (table.restrict tokens).classify token sort = .ok (table.restrict (tokens ++ [token])) := by
  have hsort := sortOf_restrict table tokens token
  unfold classify
  by_cases hmem : token ∈ tokens
  · rw [if_pos hmem, h] at hsort
    have hsame : table.restrict tokens = table.restrict (tokens ++ [token]) := by
      apply restrict_congr
      intro other
      rw [List.mem_append, List.mem_singleton]
      exact ⟨.inl, fun hother => hother.elim id fun heq => heq ▸ hmem⟩
    simp only [hsort, if_true]
    rw [hsame]
  · rw [if_neg hmem] at hsort
    simp only [hsort]
    congr 1
    apply ext_sortOf
    intro other
    rw [sortOf_insert hsort, sortOf_restrict, sortOf_restrict]
    by_cases heq : other = token
    · subst heq
      simp [h]
    · simp [heq]

end SortTable
end PhraseStructure
