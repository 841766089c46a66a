import PhraseStructure.Proofs.SortTable

/-!
# Classifying again and again

A run classifies one token after another, each in the table that the calls before it have left.
A call changes the table in place.  A call that is refused leaves the table as it is, and the run
goes on; `Editing` keeps the table beside the outcome, so that this can be said.

The first call on a token decides.  It succeeds and gives the token its sort; later calls with
that sort succeed and change nothing, and calls with the other sort are refused.  The table at the
end therefore tells the outcome of every call of the run.  If no call was refused, the table
depends on nothing but which calls there were.

A call that was refused is NO reason to refuse a later one: it has classified nothing.
-/

namespace PhraseStructure
namespace SortTable

/-- A computation that changes a sort table; an error leaves the table as it is then. -/
abbrev Editing := ExceptT Error (StateM SortTable)

/-- Give a token its sort in place, unless it has the other one. -/
def classifyInPlace (token : Token) (sort : SymbolSort) : Editing Unit := do
  match (← get).sortOf token with
  | none => modify fun table => table.insert token sort
  | some known => if known = sort then pure () else throw (.conflictingSort token)

/-- Classify tokens one after another, whether or not a call is refused, and note the outcomes. -/
def classifyEach : List (Token × SymbolSort) → StateM SortTable (List (Except Error Unit))
  | [] => pure []
  | (token, sort) :: calls => do
      let outcome ← (classifyInPlace token sort).run
      let outcomes ← classifyEach calls
      pure (outcome :: outcomes)

/-- The outcomes of a run that starts with the empty table. -/
def outcomes (calls : List (Token × SymbolSort)) : List (Except Error Unit) :=
  ((classifyEach calls).run empty).1

/-- The table that a run leaves if it starts with the empty table. -/
def tableAfter (calls : List (Token × SymbolSort)) : SortTable :=
  ((classifyEach calls).run empty).2

/-- The sort of the first call on a token. -/
def firstSort (calls : List (Token × SymbolSort)) (token : Token) : Option SymbolSort :=
  (calls.find? fun call => call.1 = token).map Prod.snd

/-- What a call has come to, told from the table of a later time. -/
def outcomeIn (table : SortTable) (call : Token × SymbolSort) : Except Error Unit :=
  if table.sortOf call.1 = some call.2 then .ok () else .error (.conflictingSort call.1)

variable {table : SortTable} {token : Token} {sort : SymbolSort}
  {calls calls' : List (Token × SymbolSort)}

/-! ### First calls -/

theorem firstSort_append (calls more : List (Token × SymbolSort)) (token : Token) :
    firstSort (calls ++ more) token = (firstSort calls token).or (firstSort more token) := by
  unfold firstSort
  rw [List.find?_append]
  cases calls.find? fun call => call.1 = token <;> rfl

theorem firstSort_singleton_self (token : Token) (sort : SymbolSort) :
    firstSort [(token, sort)] token = some sort := by
  simp [firstSort]

theorem firstSort_singleton_of_ne {other : Token} (h : other ≠ token) :
    firstSort [(token, sort)] other = none := by
  simp [firstSort, h.symm]

/-- The first call on a token stands before all others on that token. -/
theorem exists_position_of_firstSort (h : firstSort calls token = some sort) :
    ∃ position : Nat, calls[position]? = some (token, sort) ∧
      ∀ (later : Nat) (other : SymbolSort), calls[later]? = some (token, other) →
        position ≤ later := by
  obtain ⟨⟨caller, known⟩, hfind, rfl⟩ := Option.map_eq_some_iff.mp h
  obtain ⟨hcaller, position, hposition, hcall, hfirst⟩ := List.find?_eq_some_iff_getElem.mp hfind
  obtain rfl : caller = token := by simpa using hcaller
  refine ⟨position, ?_, ?_⟩
  · rw [List.getElem?_eq_getElem hposition, hcall]
  · intro later other hlater
    obtain ⟨hlength, heq⟩ := List.getElem?_eq_some_iff.mp hlater
    by_contra hlt
    have hnot := hfirst later (Nat.lt_of_not_le hlt)
    simp [heq] at hnot

theorem mem_of_firstSort (h : firstSort calls token = some sort) : (token, sort) ∈ calls := by
  obtain ⟨position, hposition, _⟩ := exists_position_of_firstSort h
  exact List.mem_of_getElem? hposition

/-- Every token that is called has a first call. -/
theorem exists_firstSort_of_mem (h : (token, sort) ∈ calls) :
    ∃ first, firstSort calls token = some first := by
  cases hfind : calls.find? fun call => call.1 = token with
  | none =>
      have hnot := List.find?_eq_none.mp hfind _ h
      simp at hnot
  | some call => exact ⟨call.2, by rw [firstSort, hfind]; rfl⟩

/-! ### One call -/

/-- A token that has a sort keeps it. -/
theorem or_firstSort_of_known {known : SymbolSort} (h : table.sortOf token = some known)
    (other : Token) :
    (table.sortOf other).or (firstSort [(token, sort)] other) = table.sortOf other := by
  by_cases heq : other = token
  · rw [heq, h, Option.some_or]
  · rw [firstSort_singleton_of_ne heq, Option.or_none]

/-- A call succeeds and its token then has the sort, or it is refused since the token has the
other one. -/
theorem classify_cases (table : SortTable) (token : Token) (sort : SymbolSort) :
    (∃ after, table.classify token sort = .ok after ∧ after.sortOf token = some sort ∧
        ∀ other, after.sortOf other =
          (table.sortOf other).or (firstSort [(token, sort)] other)) ∨
      ∃ known, known ≠ sort ∧ table.sortOf token = some known ∧
        table.classify token sort = .error (.conflictingSort token) := by
  unfold classify
  cases hknown : table.sortOf token with
  | none =>
      refine .inl ⟨_, rfl, ?_, ?_⟩
      · rw [sortOf_insert hknown, if_pos rfl]
      · intro other
        rw [sortOf_insert hknown]
        split
        · rename_i heq
          rw [heq, hknown, firstSort_singleton_self, Option.none_or]
        · rename_i hne
          rw [firstSort_singleton_of_ne hne, Option.or_none]
  | some known =>
      by_cases hsame : known = sort
      · refine .inl ⟨table, if_pos hsame, hsame ▸ hknown, ?_⟩
        exact fun other => (or_firstSort_of_known hknown other).symm
      · exact .inr ⟨known, hsame, rfl, if_neg hsame⟩

/-- In place, a call that succeeds leaves the table that `classify` gives, and a call that is
refused leaves the table as it was. -/
theorem run_classifyInPlace (table : SortTable) (token : Token) (sort : SymbolSort) :
    (classifyInPlace token sort).run.run table =
      match table.classify token sort with
      | .ok after => (.ok (), after)
      | .error error => (.error error, table) := by
  have hget : (classifyInPlace token sort).run.run table =
      (match table.sortOf token with
        | none => modify fun table : SortTable => table.insert token sort
        | some known => if known = sort then pure () else throw (Error.conflictingSort token) :
        Editing Unit).run.run table := rfl
  rw [hget]
  unfold classify
  cases table.sortOf token with
  | none => rfl
  | some known =>
      by_cases hsame : known = sort
      · simp only [if_pos hsame]
        rfl
      · simp only [if_neg hsame]
        rfl

/-- The table that a call leaves tells whether it was refused. -/
theorem exists_classifyInPlace (table : SortTable) (token : Token) (sort : SymbolSort) :
    ∃ after, (classifyInPlace token sort).run.run table = (after.outcomeIn (token, sort), after) ∧
      (∃ known, after.sortOf token = some known) ∧
      (∀ other, after.sortOf other =
        (table.sortOf other).or (firstSort [(token, sort)] other)) ∧
      (after.outcomeIn (token, sort) = .ok () ∧ table.classify token sort = .ok after ∨
        after.outcomeIn (token, sort) = .error (.conflictingSort token) ∧
          table.classify token sort = .error (.conflictingSort token) ∧ after = table) := by
  rw [run_classifyInPlace]
  rcases classify_cases table token sort with
    ⟨after, hclassify, hsort, hafter⟩ | ⟨known, hne, hknown, hclassify⟩
  · have houtcome : after.outcomeIn (token, sort) = .ok () := if_pos hsort
    rw [hclassify]
    exact ⟨after, by rw [houtcome], ⟨sort, hsort⟩, hafter, .inl ⟨houtcome, rfl⟩⟩
  · have hother : ¬ table.sortOf token = some sort := by
      rw [hknown]
      exact fun heq => hne (Option.some.inj heq)
    have houtcome : table.outcomeIn (token, sort) = .error (.conflictingSort token) :=
      if_neg hother
    rw [hclassify]
    exact ⟨table, by rw [houtcome], ⟨known, hknown⟩,
      fun other => (or_firstSort_of_known hknown other).symm, .inr ⟨houtcome, rfl, rfl⟩⟩

/-! ### Runs -/

theorem run_classifyEach_cons (table : SortTable) (token : Token) (sort : SymbolSort)
    (calls : List (Token × SymbolSort)) :
    (classifyEach ((token, sort) :: calls)).run table =
      (((classifyInPlace token sort).run.run table).1 ::
          ((classifyEach calls).run ((classifyInPlace token sort).run.run table).2).1,
        ((classifyEach calls).run ((classifyInPlace token sort).run.run table).2).2) := rfl

/-- A run goes on with the table that its first part leaves. -/
theorem run_classifyEach_append (table : SortTable) (calls more : List (Token × SymbolSort)) :
    (classifyEach (calls ++ more)).run table =
      (((classifyEach calls).run table).1 ++
          ((classifyEach more).run ((classifyEach calls).run table).2).1,
        ((classifyEach more).run ((classifyEach calls).run table).2).2) := by
  induction calls generalizing table with
  | nil => rfl
  | cons call calls ih =>
      rw [List.cons_append, run_classifyEach_cons, ih, run_classifyEach_cons]
      rfl

/-- The table that a run leaves tells the outcomes of its calls. -/
theorem exists_classifyEach (table : SortTable) (calls : List (Token × SymbolSort)) :
    ∃ after, (classifyEach calls).run table = (calls.map after.outcomeIn, after) ∧
      ∀ token, after.sortOf token = (table.sortOf token).or (firstSort calls token) := by
  induction calls generalizing table with
  | nil => exact ⟨table, rfl, fun token => (Option.or_none).symm⟩
  | cons call calls ih =>
      obtain ⟨token, sort⟩ := call
      obtain ⟨next, hcall, ⟨known, hknown⟩, hnext, _⟩ := exists_classifyInPlace table token sort
      obtain ⟨after, hrest, hafter⟩ := ih next
      -- The token keeps the sort that it has now, so the call can be judged by the last table.
      have hkept : after.outcomeIn (token, sort) = next.outcomeIn (token, sort) := by
        rw [outcomeIn, outcomeIn, hafter, hknown, Option.some_or]
      refine ⟨after, ?_, ?_⟩
      · rw [run_classifyEach_cons, hcall, hrest, List.map_cons, hkept]
      · intro other
        rw [hafter, hnext, Option.or_assoc, ← firstSort_append]
        rfl

/-! ### From the empty table -/

theorem sortOf_tableAfter (calls : List (Token × SymbolSort)) (token : Token) :
    (tableAfter calls).sortOf token = firstSort calls token := by
  obtain ⟨after, hrun, hafter⟩ := exists_classifyEach empty calls
  rw [tableAfter, hrun, hafter, sortOf_empty, Option.none_or]

/-- The classified tokens are those that were called. -/
theorem contains_tableAfter_iff :
    (tableAfter calls).contains token = true ↔ ∃ sort, (token, sort) ∈ calls := by
  rw [contains, Option.isSome_iff_exists, sortOf_tableAfter]
  constructor
  · rintro ⟨sort, hsort⟩
    exact ⟨sort, mem_of_firstSort hsort⟩
  · rintro ⟨sort, hcall⟩
    exact exists_firstSort_of_mem hcall

theorem outcomes_eq (calls : List (Token × SymbolSort)) :
    outcomes calls = calls.map (tableAfter calls).outcomeIn := by
  obtain ⟨after, hrun, _⟩ := exists_classifyEach empty calls
  rw [outcomes, tableAfter, hrun]

theorem length_outcomes (calls : List (Token × SymbolSort)) :
    (outcomes calls).length = calls.length := by
  rw [outcomes_eq, List.length_map]

theorem exists_call_of_outcome {outcome : Except Error Unit} (h : outcome ∈ outcomes calls) :
    ∃ (position : Nat) (token : Token) (sort : SymbolSort), calls[position]? = some (token, sort) ∧
      (outcomes calls)[position]? = some outcome := by
  obtain ⟨position, hposition⟩ := List.mem_iff_getElem?.mp h
  obtain ⟨hlength, _⟩ := List.getElem?_eq_some_iff.mp hposition
  rw [length_outcomes] at hlength
  exact ⟨position, calls[position].1, calls[position].2, List.getElem?_eq_getElem hlength,
    hposition⟩

/-- A call succeeds exactly if the first call on its token has the same sort. -/
theorem getElem?_outcomes {position : Nat} (h : calls[position]? = some (token, sort)) :
    (outcomes calls)[position]? = some (if firstSort calls token = some sort then .ok ()
      else .error (.conflictingSort token)) := by
  rw [outcomes_eq, List.getElem?_map, h, Option.map_some, outcomeIn, sortOf_tableAfter]

theorem succeeds_iff {position : Nat} (h : calls[position]? = some (token, sort)) :
    (outcomes calls)[position]? = some (.ok ()) ↔ firstSort calls token = some sort := by
  rw [getElem?_outcomes h]
  split
  · rename_i hfirst
    exact iff_of_true rfl hfirst
  · rename_i hfirst
    exact iff_of_false (fun heq => by cases heq) hfirst

theorem refused_iff {position : Nat} (h : calls[position]? = some (token, sort)) :
    (outcomes calls)[position]? = some (.error (.conflictingSort token)) ↔
      firstSort calls token ≠ some sort := by
  rw [getElem?_outcomes h]
  split
  · rename_i hfirst
    exact iff_of_false (fun heq => by cases heq) (fun hne => hne hfirst)
  · rename_i hfirst
    exact iff_of_true rfl hfirst

/-- A call is refused exactly if an earlier call has given its token the other sort. -/
theorem refused_iff_earlier {position : Nat} (h : calls[position]? = some (token, sort)) :
    (outcomes calls)[position]? = some (.error (.conflictingSort token)) ↔
      ∃ earlier other, earlier < position ∧ other ≠ sort ∧
        calls[earlier]? = some (token, other) ∧ (outcomes calls)[earlier]? = some (.ok ()) := by
  rw [refused_iff h]
  constructor
  · intro hne
    obtain ⟨first, hfirst⟩ := exists_firstSort_of_mem (List.mem_of_getElem? h)
    obtain ⟨earlier, hearlier, hleast⟩ := exists_position_of_firstSort hfirst
    have hother : first ≠ sort := fun heq => hne (by rw [hfirst, heq])
    have hpositions : earlier ≠ position := by
      rintro rfl
      rw [h] at hearlier
      cases hearlier
      exact hother rfl
    exact ⟨earlier, first, Nat.lt_of_le_of_ne (hleast position sort h) hpositions, hother,
      hearlier, (succeeds_iff hearlier).mpr hfirst⟩
  · rintro ⟨earlier, other, _, hother, hearlier, hsucceeds⟩ hsort
    rw [(succeeds_iff hearlier).mp hsucceeds] at hsort
    exact hother (Option.some.inj hsort)

/-- A call of a run is a call on the table that the calls before it have left. -/
theorem outcome_of_call {position : Nat} (h : calls[position]? = some (token, sort)) :
    (outcomes calls)[position]? = some (.ok ()) ∧
        (tableAfter (calls.take position)).classify token sort =
          .ok (tableAfter (calls.take (position + 1))) ∨
      (outcomes calls)[position]? = some (.error (.conflictingSort token)) ∧
        (tableAfter (calls.take position)).classify token sort =
          .error (.conflictingSort token) ∧
        tableAfter (calls.take (position + 1)) = tableAfter (calls.take position) := by
  have htake : calls.take (position + 1) = calls.take position ++ [(token, sort)] := by
    rw [List.take_add_one, h]
    rfl
  obtain ⟨after, hcall, ⟨known, hknown⟩, _, hclassify⟩ :=
    exists_classifyInPlace (tableAfter (calls.take position)) token sort
  have hafter : tableAfter (calls.take (position + 1)) = after := by
    rw [htake, tableAfter, run_classifyEach_append, run_classifyEach_cons]
    show ((classifyInPlace token sort).run.run (tableAfter (calls.take position))).2 = after
    rw [hcall]
  -- What follows the call does not change the sort of its token.
  have hfirst : firstSort calls token = after.sortOf token := by
    rw [hknown, ← List.take_append_drop (position + 1) calls, firstSort_append,
      ← sortOf_tableAfter, hafter, hknown, Option.some_or]
  have houtcome : (outcomes calls)[position]? = some (after.outcomeIn (token, sort)) := by
    rw [getElem?_outcomes h, hfirst, outcomeIn]
  rw [houtcome, hafter]
  rcases hclassify with ⟨hsucceeds, hclassify⟩ | ⟨hrefused, hclassify, hsame⟩
  · exact .inl ⟨congrArg some hsucceeds, hclassify⟩
  · exact .inr ⟨congrArg some hrefused, hclassify, hsame⟩

/-! ### Runs without a refusal -/

/-- No token is called with both sorts. -/
def Consistent (calls : List (Token × SymbolSort)) : Prop :=
  ∀ token sort other, (token, sort) ∈ calls → (token, other) ∈ calls → sort = other

theorem Consistent.congr (h : Consistent calls) (hsame : ∀ call, call ∈ calls ↔ call ∈ calls') :
    Consistent calls' := by
  intro token sort other hsort hother
  exact h token sort other ((hsame _).mpr hsort) ((hsame _).mpr hother)

theorem Consistent.firstSort_eq_some_iff (h : Consistent calls) :
    firstSort calls token = some sort ↔ (token, sort) ∈ calls := by
  constructor
  · exact mem_of_firstSort
  · intro hmem
    obtain ⟨first, hfirst⟩ := exists_firstSort_of_mem hmem
    rw [hfirst, h token first sort (mem_of_firstSort hfirst) hmem]

/-- All calls of a run succeed exactly if no token is called with both sorts. -/
theorem all_succeed_iff_consistent :
    (∀ outcome ∈ outcomes calls, outcome = .ok ()) ↔ Consistent calls := by
  constructor
  · intro hall
    have hfirst : ∀ token sort, (token, sort) ∈ calls → firstSort calls token = some sort := by
      intro token sort hmem
      obtain ⟨position, hposition⟩ := List.mem_iff_getElem?.mp hmem
      have houtcome := getElem?_outcomes hposition
      rw [hall _ (List.mem_of_getElem? houtcome)] at houtcome
      exact (succeeds_iff hposition).mp houtcome
    intro token sort other hsort hother
    have heq := hfirst token sort hsort
    rw [hfirst token other hother] at heq
    exact (Option.some.inj heq).symm
  · intro h outcome hmem
    obtain ⟨position, token, sort, hcall, houtcome⟩ := exists_call_of_outcome hmem
    have hfirst := h.firstSort_eq_some_iff.mpr (List.mem_of_getElem? hcall)
    rw [(succeeds_iff hcall).mpr hfirst] at houtcome
    exact (Option.some.inj houtcome).symm

/-- A refusal names a token that was called with both sorts. -/
theorem exists_clash_of_refused {error : Error} (h : .error error ∈ outcomes calls) :
    ∃ token sort other, error = .conflictingSort token ∧ sort ≠ other ∧ (token, sort) ∈ calls ∧
      (token, other) ∈ calls := by
  obtain ⟨position, token, sort, hcall, houtcome⟩ := exists_call_of_outcome h
  have hmem := List.mem_of_getElem? hcall
  obtain ⟨first, hfirst⟩ := exists_firstSort_of_mem hmem
  rw [getElem?_outcomes hcall] at houtcome
  split at houtcome
  · cases houtcome
  · rename_i hne
    cases houtcome
    exact ⟨token, first, sort, rfl, fun heq => hne (by rw [hfirst, heq]),
      mem_of_firstSort hfirst, hmem⟩

/-- Without a refusal only the set of calls matters. -/
theorem Consistent.tableAfter_eq (h : Consistent calls)
    (hsame : ∀ call, call ∈ calls ↔ call ∈ calls') : tableAfter calls = tableAfter calls' := by
  apply ext_sortOf
  intro token
  apply Option.ext
  intro sort
  rw [sortOf_tableAfter, sortOf_tableAfter, h.firstSort_eq_some_iff,
    (h.congr hsame).firstSort_eq_some_iff, hsame]

end SortTable
end PhraseStructure
