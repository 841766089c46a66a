import PhraseStructure.Error

/-!
# Sort tables

A sort table says which tokens are terminals and which are non-terminals.  A
token keeps the sort of its first classification: classifying it again with the
same sort changes nothing, and classifying it with the other sort is refused.

The entries stand in strictly ascending order of their tokens, so two tables
with the same classified tokens are equal.  Nothing is ever taken out.
-/

namespace PhraseStructure

/-- Whether a token belongs to the alphabet or is replaced by rules. -/
inductive SymbolSort where
  | terminal
  | nonTerminal
deriving DecidableEq

namespace SymbolSort

/-- The written name of a sort. -/
def name : SymbolSort → String
  | terminal => "terminal"
  | nonTerminal => "non-terminal"

end SymbolSort

/-- The sorts of finitely many tokens, in ascending order of the tokens. -/
structure SortTable where
  entries : List (Token × SymbolSort)
  ascending : entries.Pairwise fun a b => a.1 < b.1
deriving DecidableEq

namespace SortTable

/-- The table without entries. -/
def empty : SortTable := ⟨[], .nil⟩

/-- Put an entry at its place; a token that has an entry keeps it. -/
def insertEntry (token : Token) (sort : SymbolSort) :
    List (Token × SymbolSort) → List (Token × SymbolSort)
  | [] => [(token, sort)]
  | entry :: rest =>
      if token < entry.1 then
        (token, sort) :: entry :: rest
      else if token = entry.1 then
        entry :: rest
      else
        entry :: insertEntry token sort rest

theorem fst_mem_insertEntry {token : Token} {sort : SymbolSort}
    {entries : List (Token × SymbolSort)} {entry : Token × SymbolSort}
    (h : entry ∈ insertEntry token sort entries) :
    entry = (token, sort) ∨ entry ∈ entries := by
  induction entries with
  | nil => simpa [insertEntry] using h
  | cons first rest ih =>
      simp only [insertEntry] at h
      split at h
      · simpa using h
      · split at h
        · exact .inr h
        · rcases List.mem_cons.mp h with rfl | h
          · simp
          · rcases ih h with h | h <;> simp [h]

theorem pairwise_insertEntry (token : Token) (sort : SymbolSort)
    {entries : List (Token × SymbolSort)}
    (h : entries.Pairwise fun a b => a.1 < b.1) :
    (insertEntry token sort entries).Pairwise fun a b => a.1 < b.1 := by
  induction entries with
  | nil => simp [insertEntry]
  | cons first rest ih =>
      obtain ⟨hfirst, hrest⟩ := List.pairwise_cons.mp h
      simp only [insertEntry]
      split
      · rename_i hlt
        refine List.pairwise_cons.mpr ⟨?_, h⟩
        intro entry hentry
        rcases List.mem_cons.mp hentry with rfl | hentry
        · exact hlt
        · exact Token.lt_trans hlt (hfirst entry hentry)
      · split
        · exact h
        · rename_i hnlt hne
          refine List.pairwise_cons.mpr ⟨?_, ih hrest⟩
          intro entry hentry
          rcases fst_mem_insertEntry hentry with rfl | hentry
          · exact Token.lt_of_not_lt hne hnlt
          · exact hfirst entry hentry

/-- The table with one more entry, unless the token has one. -/
def insert (table : SortTable) (token : Token) (sort : SymbolSort) : SortTable :=
  ⟨insertEntry token sort table.entries, pairwise_insertEntry token sort table.ascending⟩

/-- The sort of a token, if it is classified. -/
def sortOf (table : SortTable) (token : Token) : Option SymbolSort :=
  (table.entries.find? fun entry => entry.1 = token).map Prod.snd

/-- The token is classified. -/
def contains (table : SortTable) (token : Token) : Bool :=
  (table.sortOf token).isSome

/-- The token is classified as a terminal. -/
def isTerminal (table : SortTable) (token : Token) : Bool :=
  table.sortOf token = some .terminal

/-- The token is classified as a non-terminal. -/
def isNonTerminal (table : SortTable) (token : Token) : Bool :=
  table.sortOf token = some .nonTerminal

/-- The number of classified tokens. -/
def size (table : SortTable) : Nat :=
  table.entries.length

/-- Give a token its sort, unless it has the other one. -/
def classify (table : SortTable) (token : Token) (sort : SymbolSort) :
    Except Error SortTable :=
  match table.sortOf token with
  | none => .ok (table.insert token sort)
  | some known => if known = sort then .ok table else .error (.conflictingSort token)

/-- Read tokens one by one and give each the same sort. -/
def classifyTexts (table : SortTable) (sort : SymbolSort) (texts : List Text) :
    Except Error SortTable :=
  texts.foldlM (fun table text => do table.classify (← Token.read text) sort) table

/-- The table of listed non-terminals and terminals. -/
def ofTexts (nonTerminals terminals : List Text) : Except Error SortTable := do
  let table ← empty.classifyTexts .nonTerminal nonTerminals
  table.classifyTexts .terminal terminals

/-- The tokens of one sort, strictly ascending. -/
def withSort (table : SortTable) (sort : SymbolSort) : List Token :=
  (table.entries.filter fun entry => entry.2 = sort).map Prod.fst

/-- The classified terminals, strictly ascending. -/
def terminals (table : SortTable) : List Token :=
  table.withSort .terminal

/-- The classified non-terminals, strictly ascending. -/
def nonTerminals (table : SortTable) : List Token :=
  table.withSort .nonTerminal

/-- The unclassified tokens of a list, strictly ascending. -/
def missing (table : SortTable) (tokens : List Token) : List Token :=
  Token.ascending (tokens.filter fun token => !table.contains token)

/-- One line per entry: the token, a colon and its sort. -/
def render (table : SortTable) : Text :=
  table.entries.flatMap fun entry => entry.1.text ++ [':', ' '] ++ entry.2.name.toList ++ ['\n']

@[simp] theorem mem_missing {table : SortTable} {tokens : List Token} {token : Token} :
    token ∈ table.missing tokens ↔ token ∈ tokens ∧ table.contains token = false := by
  simp [missing]

theorem pairwise_missing (table : SortTable) (tokens : List Token) :
    (table.missing tokens).Pairwise (· < ·) :=
  Token.pairwise_ascending _

theorem missing_eq_nil_iff {table : SortTable} {tokens : List Token} :
    table.missing tokens = [] ↔ ∀ token ∈ tokens, table.contains token = true := by
  simp [List.eq_nil_iff_forall_not_mem]

end SortTable
end PhraseStructure
