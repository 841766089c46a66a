import PhraseStructure.Proofs.Phrase
import PhraseStructure.Proofs.SortTable.Runs

/-!
# Classifying listed tokens

A sort table is built from two lists by the run that classifies the non-terminals and then the
terminals, except that this run ends at its first refusal.  Texts that are tokens are therefore
refused only if one of them is in both lists, and the refusal names such a token.  Repetitions
within one list do no harm.

`first_call_decides` collects what runs of calls come to.
-/

namespace PhraseStructure
namespace SortTable

variable {token : Token} {sort : SymbolSort}

/-- The table, unless a call was refused; the first refusal otherwise. -/
def orRefusal (table : SortTable) : List (Except Error Unit) → Except Error SortTable
  | [] => .ok table
  | .ok () :: outcomes => table.orRefusal outcomes
  | .error error :: _ => .error error

/-- Outcomes of a run that goes on with the table that is kept. -/
theorem orRefusal_append (table : SortTable) (outcomes : List (Except Error Unit))
    (run : SortTable → List (Except Error Unit) × SortTable) :
    (run table).2.orRefusal (outcomes ++ (run table).1) =
      table.orRefusal outcomes >>= fun next => (run next).2.orRefusal (run next).1 := by
  induction outcomes with
  | nil => rfl
  | cons outcome outcomes ih =>
      cases outcome with
      | error error => rfl
      | ok => exact ih

theorem orRefusal_cases (table : SortTable) (outcomes : List (Except Error Unit)) :
    ((∀ outcome ∈ outcomes, outcome = .ok ()) ∧ table.orRefusal outcomes = .ok table) ∨
      ∃ error, .error error ∈ outcomes ∧ table.orRefusal outcomes = .error error := by
  induction outcomes with
  | nil => exact .inl ⟨List.forall_mem_nil _, rfl⟩
  | cons outcome outcomes ih =>
      cases outcome with
      | error error => exact .inr ⟨error, List.mem_cons_self, rfl⟩
      | ok =>
          rcases ih with ⟨hall, htable⟩ | ⟨error, hmem, herror⟩
          · exact .inl ⟨List.forall_mem_cons.mpr ⟨rfl, hall⟩, htable⟩
          · exact .inr ⟨error, List.mem_cons_of_mem _ hmem, herror⟩

/-- Listed texts are classified by a run that does not go on after a refusal. -/
theorem classifyTexts_eq_orRefusal (table : SortTable) (sort : SymbolSort) (tokens : List Token) :
    table.classifyTexts sort (tokens.map Token.text) =
      ((classifyEach (tokens.map fun token => (token, sort))).run table).2.orRefusal
        ((classifyEach (tokens.map fun token => (token, sort))).run table).1 := by
  induction tokens generalizing table with
  | nil => rfl
  | cons token tokens ih =>
      have hcons : table.classifyTexts sort ((token :: tokens).map Token.text) =
          table.classify token sort >>= fun next =>
            next.classifyTexts sort (tokens.map Token.text) := by
        rw [List.map_cons, classifyTexts, List.foldlM_cons, token.read_text]
        rfl
      rw [hcons, List.map_cons, run_classifyEach_cons, run_classifyInPlace]
      cases table.classify token sort with
      | error error => rfl
      | ok next => exact ih next

/-- The calls that classify listed non-terminals and terminals. -/
def listedCalls (nonTerminals terminals : List Token) : List (Token × SymbolSort) :=
  nonTerminals.map (fun token => (token, .nonTerminal)) ++
    terminals.map fun token => (token, .terminal)

/-- A table of listed tokens is what the run of their calls leaves. -/
theorem ofTexts_eq_orRefusal (nonTerminals terminals : List Token) :
    ofTexts (nonTerminals.map Token.text) (terminals.map Token.text) =
      (tableAfter (listedCalls nonTerminals terminals)).orRefusal
        (outcomes (listedCalls nonTerminals terminals)) := by
  have hterminals := fun table => classifyTexts_eq_orRefusal table .terminal terminals
  rw [ofTexts, classifyTexts_eq_orRefusal, outcomes, tableAfter, listedCalls,
    run_classifyEach_append, orRefusal_append _ _ (classifyEach _).run]
  simp only [hterminals]

theorem mem_listedCalls {nonTerminals terminals : List Token} :
    (token, sort) ∈ listedCalls nonTerminals terminals ↔
      token ∈ nonTerminals ∧ sort = .nonTerminal ∨ token ∈ terminals ∧ sort = .terminal := by
  simp [listedCalls, eq_comm]

/-- Calls with different sorts come from different lists. -/
theorem mem_of_mem_listedCalls {nonTerminals terminals : List Token} {other : SymbolSort}
    (hne : sort ≠ other) (hsort : (token, sort) ∈ listedCalls nonTerminals terminals)
    (hother : (token, other) ∈ listedCalls nonTerminals terminals) :
    token ∈ nonTerminals ∧ token ∈ terminals := by
  rcases mem_listedCalls.mp hsort with ⟨htoken, rfl⟩ | ⟨htoken, rfl⟩ <;>
    rcases mem_listedCalls.mp hother with ⟨htoken', rfl⟩ | ⟨htoken', rfl⟩
  · exact absurd rfl hne
  · exact ⟨htoken, htoken'⟩
  · exact ⟨htoken', htoken⟩
  · exact absurd rfl hne

theorem consistent_listedCalls_iff {nonTerminals terminals : List Token} :
    Consistent (listedCalls nonTerminals terminals) ↔ nonTerminals.Disjoint terminals := by
  constructor
  · intro h token hnonTerminal hterminal
    cases h token .nonTerminal .terminal (mem_listedCalls.mpr (.inl ⟨hnonTerminal, rfl⟩))
      (mem_listedCalls.mpr (.inr ⟨hterminal, rfl⟩))
  · intro h token sort other hsort hother
    by_contra hne
    obtain ⟨hnonTerminal, hterminal⟩ := mem_of_mem_listedCalls hne hsort hother
    exact h hnonTerminal hterminal

/-- A list of tokens is classified, or a token is found that is in both lists. -/
theorem ofTexts_cases (nonTerminals terminals : List Token) :
    (nonTerminals.Disjoint terminals ∧
        ofTexts (nonTerminals.map Token.text) (terminals.map Token.text) =
          .ok (tableAfter (listedCalls nonTerminals terminals))) ∨
      ∃ token, token ∈ nonTerminals ∧ token ∈ terminals ∧
        ofTexts (nonTerminals.map Token.text) (terminals.map Token.text) =
          .error (.conflictingSort token) := by
  rw [ofTexts_eq_orRefusal]
  rcases orRefusal_cases (tableAfter (listedCalls nonTerminals terminals))
      (outcomes (listedCalls nonTerminals terminals)) with ⟨hall, htable⟩ | ⟨error, hmem, herror⟩
  · exact .inl ⟨consistent_listedCalls_iff.mp (all_succeed_iff_consistent.mp hall), htable⟩
  · obtain ⟨token, sort, other, rfl, hne, hsort, hother⟩ := exists_clash_of_refused hmem
    obtain ⟨hnonTerminal, hterminal⟩ := mem_of_mem_listedCalls hne hsort hother
    exact .inr ⟨token, hnonTerminal, hterminal, herror⟩

/-- Texts without flaws are classified exactly if none of them is in both lists, and a refusal
names a text that is. -/
theorem ofTexts_spec {nonTerminals terminals : List Text}
    (h : ∀ text ∈ nonTerminals ++ terminals, text.flaw? = none) :
    ((∃ table, ofTexts nonTerminals terminals = .ok table) ↔ nonTerminals.Disjoint terminals) ∧
      ∀ error, ofTexts nonTerminals terminals = .error error →
        ∃ token : Token, error = .conflictingSort token ∧ token.text ∈ nonTerminals ∧
          token.text ∈ terminals := by
  obtain ⟨hnonTerminals, hterminals⟩ := List.forall_mem_append.mp h
  obtain ⟨nonTerminals, rfl⟩ := Token.exists_map_text_iff.mpr hnonTerminals
  obtain ⟨terminals, rfl⟩ := Token.exists_map_text_iff.mpr hterminals
  have htext : Function.Injective Token.text := fun _ _ => Token.ext
  rcases ofTexts_cases nonTerminals terminals with
    ⟨hdisjoint, htable⟩ | ⟨token, hnonTerminal, hterminal, herror⟩
  · rw [htable]
    exact ⟨iff_of_true ⟨_, rfl⟩ (List.disjoint_map htext hdisjoint), fun error heq => by cases heq⟩
  · rw [herror]
    have hfirst : token.text ∈ nonTerminals.map Token.text := List.mem_map_of_mem hnonTerminal
    have hsecond : token.text ∈ terminals.map Token.text := List.mem_map_of_mem hterminal
    refine ⟨iff_of_false ?_ fun hdisjoint => hdisjoint hfirst hsecond, ?_⟩
    · rintro ⟨table, heq⟩
      cases heq
    · intro error heq
      cases heq
      exact ⟨token, rfl, hfirst, hsecond⟩

/-! ### What a run comes to -/

/-- In a run a call is refused exactly if an earlier call has given its token the other sort; the
refusal names the token and leaves the table as it was.  At the end a token has the sort of its
first call, and the non-terminals and terminals, each in ascending order, are the tokens that were
called.  If no call of a run is refused, every run of the same calls leaves the same table, and no
call of it is refused either.  Listed texts without flaws are classified exactly if none of them
is in both lists. -/
theorem first_call_decides :
    (∀ calls : List (Token × SymbolSort),
      (outcomes calls).length = calls.length ∧
        (∀ position token sort, calls[position]? = some (token, sort) →
          ((outcomes calls)[position]? = some (.error (.conflictingSort token)) ↔
            ∃ earlier other, earlier < position ∧ other ≠ sort ∧
              calls[earlier]? = some (token, other) ∧
              (outcomes calls)[earlier]? = some (.ok ())) ∧
          ((outcomes calls)[position]? = some (.ok ()) ∧
              (tableAfter (calls.take position)).classify token sort =
                .ok (tableAfter (calls.take (position + 1))) ∨
            (outcomes calls)[position]? = some (.error (.conflictingSort token)) ∧
              (tableAfter (calls.take position)).classify token sort =
                .error (.conflictingSort token) ∧
              tableAfter (calls.take (position + 1)) = tableAfter (calls.take position))) ∧
        (∀ token, (tableAfter calls).sortOf token = firstSort calls token) ∧
        (tableAfter calls).nonTerminals.Pairwise (· < ·) ∧
        (tableAfter calls).terminals.Pairwise (· < ·) ∧
        (tableAfter calls).nonTerminals.Disjoint (tableAfter calls).terminals ∧
        ∀ token, token ∈ (tableAfter calls).nonTerminals ++ (tableAfter calls).terminals ↔
          ∃ sort, (token, sort) ∈ calls) ∧
      (∀ calls calls' : List (Token × SymbolSort), (∀ call, call ∈ calls ↔ call ∈ calls') →
        (∀ outcome ∈ outcomes calls, outcome = .ok ()) →
          (∀ outcome ∈ outcomes calls', outcome = .ok ()) ∧ tableAfter calls = tableAfter calls') ∧
      ∀ nonTerminals terminals : List Text,
        (∀ text ∈ nonTerminals ++ terminals, text.flaw? = none) →
          ((∃ table, ofTexts nonTerminals terminals = .ok table) ↔
            nonTerminals.Disjoint terminals) ∧
          ∀ error, ofTexts nonTerminals terminals = .error error →
            ∃ token : Token, error = .conflictingSort token ∧ token.text ∈ nonTerminals ∧
              token.text ∈ terminals := by
  refine ⟨fun calls => ?_, ?_, fun _ _ => ofTexts_spec⟩
  · refine ⟨length_outcomes calls, fun position token sort h =>
      ⟨refused_iff_earlier h, outcome_of_call h⟩, sortOf_tableAfter calls,
      pairwise_withSort _ _, pairwise_withSort _ _, disjoint_nonTerminals_terminals _, ?_⟩
    intro token
    rw [mem_nonTerminals_append_terminals, contains_tableAfter_iff]
  · intro calls calls' hsame hall
    have hconsistent := all_succeed_iff_consistent.mp hall
    exact ⟨all_succeed_iff_consistent.mpr (hconsistent.congr hsame),
      hconsistent.tableAfter_eq hsame⟩

/-- A run with a refusal in it, a run in another order, and lists that share a token. -/
theorem first_call_decides_refused :
    ∃ s a : Token, s.text = ['S'] ∧ a.text = ['a'] ∧
      (outcomes [(s, .nonTerminal), (s, .terminal), (a, .terminal), (s, .nonTerminal)])[1]? =
        some (.error (.conflictingSort s)) ∧
      tableAfter [(s, .nonTerminal), (s, .terminal)] = tableAfter [(s, .nonTerminal)] ∧
      tableAfter [(s, .nonTerminal), (a, .terminal), (s, .nonTerminal)] =
        tableAfter [(a, .terminal), (s, .nonTerminal)] ∧
      (∃ table, ofTexts [['S'], ['S']] [['a']] = .ok table) ∧
      ¬ ∃ table, ofTexts [['S'], ['a']] [['a']] = .ok table := by
  let s : Token := ⟨['S'], rfl⟩
  let a : Token := ⟨['a'], rfl⟩
  obtain ⟨hruns, hsame, hlists⟩ := first_call_decides
  obtain ⟨_, hcalls, _⟩ :=
    hruns [(s, .nonTerminal), (s, .terminal), (a, .terminal), (s, .nonTerminal)]
  obtain ⟨hrefused, hcall⟩ := hcalls 1 s .terminal rfl
  have hsecond := hrefused.mpr ⟨0, .nonTerminal, by decide, by decide, rfl, rfl⟩
  refine ⟨s, a, rfl, rfl, hsecond, ?_, ?_, ?_, ?_⟩
  · rcases hcall with ⟨hsucceeds, _⟩ | ⟨_, _, htable⟩
    · rw [hsecond] at hsucceeds
      cases hsucceeds
    · exact htable
  · refine (hsame _ _ (fun call => ?_) (by decide)).2
    simp [or_comm]
  · exact (hlists [['S'], ['S']] [['a']] (by decide)).1.mpr (by simp)
  · rw [(hlists [['S'], ['a']] [['a']] (by decide)).1]
    simp

end SortTable
end PhraseStructure
