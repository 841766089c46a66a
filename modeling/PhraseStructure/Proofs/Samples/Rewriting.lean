import Mathlib.Data.List.Chain
import PhraseStructure.Proofs.Samples

/-!
# Rewriting with the context-sensitive sample

With all its productions the context-sensitive sample derives the words of one or more `a`, as
many `b` and as many `c`, and no other words.

Every such word is found.  The start symbol grows to as many `a`, `B` and `C`; each `C` that
comes to stand before a `B` trades places with it in four steps, through `W` and `Z`; then the
letters spread to the right, first `b` from the last `a` and then `c` from the last `b`.

No other word is found, in whatever order the steps are taken.  Two things are kept by every
step.  A letter stands only behind the letters that may come before it.  And if each token is
read as the letter that it stands for, there are as many `b` and as many `c` as there are `a`.
What a token stands for depends on its neighbour: in the middle of a trade `W` stands for a `c`
while a `Z` follows it, and for a `b` afterwards.

A derivation need NOT lead to a word: a trade that is begun in the wrong place is never
finished.
-/

namespace PhraseStructure
namespace Sample

/-- The words of one or more `a`, as many `b` and as many `c`. -/
def anbncnWords : Language Token :=
  {word | ∃ n, 1 ≤ n ∧
    word = List.replicate n a ++ List.replicate n b ++ List.replicate n c}

/-! ### Every word is found -/

section Growth

variable {production : Phrase → Phrase → Prop}

/-- A letter behind which a token becomes another letter, and which that letter can replace in
this, turns a whole block of such tokens. -/
theorem derives_spread {first token letter : Token}
    (hfirst : production [first, token] [first, letter])
    (hletter : production [letter, token] [letter, letter]) (n : Nat) :
    Derives production (first :: List.replicate n token)
      (first :: List.replicate n letter) := by
  induction n generalizing first with
  | zero => exact .refl _
  | succ n ih =>
      have hstep := (Derives.single hfirst).within [] (List.replicate n token)
      have hmore := (ih hletter).within [first] []
      simp only [List.append_nil] at hmore
      exact hstep.trans hmore

/-- A token that trades places with another one passes a whole block of them. -/
theorem derives_pass {token other : Token} (h : Derives production [token, other] [other, token])
    (n : Nat) :
    Derives production (token :: List.replicate n other) (List.replicate n other ++ [token]) := by
  induction n with
  | zero => exact .refl _
  | succ n ih =>
      have htrade := h.within [] (List.replicate n other)
      have hmore := ih.within [other] []
      simp only [List.append_nil] at hmore
      exact htrade.trans hmore

end Growth

section Words

variable {grammar : Grammar} (houtline : grammar.outline = anbncn.outline)

include houtline

theorem production_iff_mem_outline {lhs alternative : Phrase} :
    grammar.Production lhs alternative ↔ (lhs, alternative) ∈ anbncn.outline.productions := by
  rw [← houtline]
  exact Rule.mem_productions.symm

theorem derives_of_mem {lhs alternative : Phrase}
    (h : (lhs, alternative) ∈ anbncn.outline.productions) :
    Derives grammar.Production lhs alternative :=
  .single ((production_iff_mem_outline houtline).mpr h)

/-- A `C` trades places with the `B` behind it. -/
theorem derives_trade : Derives grammar.Production [C, B] [B, C] := by
  have hCB : Derives grammar.Production [C, B] [C, Z] := derives_of_mem houtline (by decide)
  have hCZ : Derives grammar.Production [C, Z] [W, Z] := derives_of_mem houtline (by decide)
  have hWZ : Derives grammar.Production [W, Z] [W, C] := derives_of_mem houtline (by decide)
  have hWC : Derives grammar.Production [W, C] [B, C] := derives_of_mem houtline (by decide)
  exact hCB.trans (hCZ.trans (hWZ.trans hWC))

/-- The start symbol among `n` letters, `n` of `B` and `n` of `C` makes them one more each, and
stays or goes. -/
theorem derives_grown (core : Phrase)
    (h : ([S], [a] ++ core ++ [B, C]) ∈ anbncn.outline.productions) (n : Nat) :
    Derives grammar.Production
      (List.replicate n a ++ [S] ++ (List.replicate n B ++ List.replicate n C))
      (List.replicate (n + 1) a ++ core ++
        (List.replicate (n + 1) B ++ List.replicate (n + 1) C)) := by
  have hgrow := (derives_of_mem houtline h).within (List.replicate n a)
    (List.replicate n B ++ List.replicate n C)
  have hpass := (derives_pass (derives_trade houtline) n).within
    (List.replicate n a ++ [a] ++ core ++ [B]) (List.replicate n C)
  have hleft : List.replicate (n + 1) a = List.replicate n a ++ [a] := List.replicate_succ'
  have hmiddle : List.replicate (n + 1) B = [B] ++ List.replicate n B := List.replicate_succ
  have hright : List.replicate (n + 1) C = [C] ++ List.replicate n C := List.replicate_succ
  rw [hleft, hmiddle, hright]
  simp only [List.append_assoc, List.cons_append, List.nil_append] at hgrow hpass ⊢
  exact hgrow.trans hpass

theorem derives_start (n : Nat) :
    Derives grammar.Production [S]
      (List.replicate n a ++ [S] ++ (List.replicate n B ++ List.replicate n C)) := by
  induction n with
  | zero => exact .refl _
  | succ n ih => exact ih.trans (derives_grown houtline [S] (by decide) n)

/-- Behind the letters `a` the tokens turn into the letters they stand for. -/
theorem derives_spelled (n : Nat) :
    Derives grammar.Production
      (List.replicate (n + 1) a ++ (List.replicate (n + 1) B ++ List.replicate (n + 1) C))
      (List.replicate (n + 1) a ++ List.replicate (n + 1) b ++ List.replicate (n + 1) c) := by
  have hproduction {lhs alternative : Phrase}
      (h : (lhs, alternative) ∈ anbncn.outline.productions) :
      grammar.Production lhs alternative := (production_iff_mem_outline houtline).mpr h
  have hb := derives_spread (hproduction (by decide : ([a, B], [a, b]) ∈ _))
    (hproduction (by decide)) (n + 1)
  have hc := derives_spread (hproduction (by decide : ([b, C], [b, c]) ∈ _))
    (hproduction (by decide)) (n + 1)
  have hfirst := hb.within (List.replicate n a) (List.replicate (n + 1) C)
  have hsecond := hc.within (List.replicate (n + 1) a ++ List.replicate n b) []
  have hblock (letter : Token) (rest : Phrase) :
      List.replicate n letter ++ letter :: rest = List.replicate (n + 1) letter ++ rest := by
    rw [List.replicate_succ', List.append_assoc, List.singleton_append]
  simp only [List.append_assoc, List.append_nil, hblock] at hfirst hsecond ⊢
  exact hfirst.trans hsecond

theorem derives_of_mem_anbncnWords {word : Phrase} (h : word ∈ anbncnWords) :
    Derives grammar.Production [S] word := by
  obtain ⟨n, hn, rfl⟩ := h
  obtain ⟨n, rfl⟩ := Nat.exists_eq_add_of_le' hn
  have hlast := derives_grown houtline [] (by decide) n
  rw [List.append_nil] at hlast
  exact (derives_start houtline n).trans (hlast.trans (derives_spelled houtline n))

end Words

/-! ### What tokens stand for -/

/-- The letter that a token stands for, if it is known whether a `Z` follows the token.  The
letter `a` and the start symbol stand for themselves. -/
def letterOf (token : Token) (beforeZ : Bool) : Token :=
  if token = B ∨ token = Z then b
  else if token = C then c
  else if token = W then if beforeZ then c else b
  else token

/-- The letters that the tokens of a form stand for. -/
def letters : Phrase → Phrase
  | [] => []
  | token :: rest => letterOf token (rest.head? == some Z) :: letters rest

theorem letterOf_congr {token : Token} (h : token ≠ W) (beforeZ beforeZ' : Bool) :
    letterOf token beforeZ = letterOf token beforeZ' := by
  simp only [letterOf, if_neg h]

/-- Where no `W` stands before a `Z`, a form can be read in two parts. -/
theorem letters_append {first second : Phrase}
    (h : W ∉ first.getLast? ∨ Z ∉ second.head?) :
    letters (first ++ second) = letters first ++ letters second := by
  induction first with
  | nil => rfl
  | cons token first ih =>
      cases first with
      | nil =>
          show letterOf token (second.head? == some Z) :: letters second =
            letterOf token false :: letters second
          congr 1
          rcases h with hW | hZ
          · exact letterOf_congr (fun heq => hW (congrArg some heq)) _ _
          · rw [beq_eq_false_iff_ne.mpr hZ]
      | cons next first =>
          have hmore := ih (by rwa [List.getLast?_cons_cons] at h)
          show letterOf token (some next == some Z) :: letters (next :: first ++ second) = _
          rw [hmore]
          rfl

/-- The letters stand for themselves. -/
theorem letters_eq_self {word : Phrase} (h : ∀ token ∈ word, token ∈ [a, b, c]) :
    letters word = word := by
  induction word with
  | nil => rfl
  | cons token word ih =>
      obtain ⟨htoken, hword⟩ := List.forall_mem_cons.mp h
      have hself : ∀ letter ∈ [a, b, c], letterOf letter false = letter := by decide
      have hne : ∀ letter ∈ [a, b, c], letter ≠ W := by decide
      rw [letters, letterOf_congr (hne token htoken) _ false, hself token htoken, ih hword]

/-! ### Which letters stand behind which -/

/-- The token may stand directly behind the other one.  Before a letter and before the start
symbol there are letters only. -/
def MayFollow (left right : Token) : Prop :=
  right ∈ [B, C, W, Z] ∨ (left, right) ∈ [(a, a), (a, S), (a, b), (b, b), (b, c), (c, c)]

instance : DecidableRel MayFollow :=
  fun _ _ => inferInstanceAs (Decidable (_ ∨ _))

theorem mayFollow_of_not_letter {left left' right : Token} (hleft : left ∉ [a, b, c])
    (h : MayFollow left right) : MayFollow left' right := by
  rcases h with hright | hpair
  · exact .inl hright
  · have hletter : ∀ pair ∈ [(a, a), (a, S), (a, b), (b, b), (b, c), (c, c)],
        pair.1 ∈ [a, b, c] := by decide
    exact absurd (hletter _ hpair) hleft

/-- The letter `a` may stand wherever the start symbol may. -/
theorem mayFollow_a {left : Token} (h : MayFollow left S) : MayFollow left a := by
  rcases h with hright | hpair
  · exact absurd hright (by decide)
  · have hboth : ∀ pair ∈ [(a, a), (a, S), (a, b), (b, b), (b, c), (c, c)],
        pair.2 = S → MayFollow pair.1 a := by decide
    exact hboth _ hpair rfl

/-! ### Letters in order -/

section Blocks

variable {word : Phrase} (hletters : ∀ token ∈ word, token ∈ [a, b, c])

include hletters

/-- Behind a letter stand more of it and then a tail, if nothing is a tail and every other letter
that may come next begins one. -/
theorem exists_replicate_append {letter : Token} {tail : Phrase → Prop}
    (h : (letter :: word).IsChain MayFollow) (hnil : tail [])
    (hcons : ∀ next ∈ [a, b, c], MayFollow letter next → next ≠ letter → ∀ rest : Phrase,
      (∀ token ∈ rest, token ∈ [a, b, c]) → (next :: rest).IsChain MayFollow →
        tail (next :: rest)) :
    ∃ n rest, word = List.replicate n letter ++ rest ∧ tail rest := by
  induction word with
  | nil => exact ⟨0, [], rfl, hnil⟩
  | cons token word ih =>
      obtain ⟨htoken, hword⟩ := List.forall_mem_cons.mp hletters
      obtain ⟨hfollow, hchain⟩ := List.isChain_cons_cons.mp h
      by_cases hsame : token = letter
      · obtain rfl := hsame
        obtain ⟨n, rest, rfl, htail⟩ := ih hword hchain
        exact ⟨n + 1, rest, rfl, htail⟩
      · exact ⟨0, token :: word, rfl, hcons token htoken hfollow hsame word hword hchain⟩

theorem exists_replicate_c (h : (c :: word).IsChain MayFollow) :
    ∃ k, word = List.replicate k c := by
  obtain ⟨k, rest, rfl, rfl⟩ :
      ∃ k rest, word = List.replicate k c ++ rest ∧ rest = [] := by
    refine exists_replicate_append hletters h rfl ?_
    intro next hnext hfollow hne
    have honly : ∀ letter ∈ [a, b, c], MayFollow c letter → letter = c := by decide
    exact absurd (honly next hnext hfollow) hne
  exact ⟨k, List.append_nil _⟩

theorem exists_replicate_b (h : (b :: word).IsChain MayFollow) :
    ∃ j k, word = List.replicate j b ++ List.replicate k c := by
  obtain ⟨j, rest, rfl, k, rfl⟩ :
      ∃ j rest, word = List.replicate j b ++ rest ∧ ∃ k, rest = List.replicate k c := by
    refine exists_replicate_append hletters h ⟨0, rfl⟩ ?_
    intro next hnext hfollow hne rest hrest hchain
    have honly : ∀ letter ∈ [a, b, c], MayFollow b letter → letter ≠ b → letter = c := by decide
    obtain rfl := honly next hnext hfollow hne
    obtain ⟨k, rfl⟩ := exists_replicate_c hrest hchain
    exact ⟨k + 1, rfl⟩
  exact ⟨j, k, rfl⟩

/-- Letters that stand in order behind an `a` are three blocks. -/
theorem exists_replicate_a (h : (a :: word).IsChain MayFollow) :
    ∃ i j k, word = List.replicate i a ++ List.replicate j b ++ List.replicate k c := by
  obtain ⟨i, rest, rfl, j, k, rfl⟩ :
      ∃ i rest, word = List.replicate i a ++ rest ∧
        ∃ j k, rest = List.replicate j b ++ List.replicate k c := by
    refine exists_replicate_append hletters h ⟨0, 0, rfl⟩ ?_
    intro next hnext hfollow hne rest hrest hchain
    have honly : ∀ letter ∈ [a, b, c], MayFollow a letter → letter ≠ a → letter = b := by decide
    obtain rfl := honly next hnext hfollow hne
    obtain ⟨j, k, rfl⟩ := exists_replicate_b hrest hchain
    exact ⟨j + 1, k, rfl⟩
  exact ⟨i, j, k, (List.append_assoc ..).symm⟩

end Blocks

/-! ### No other word is found -/

/-- What every form that comes up in a derivation is like. -/
structure Balanced (form : Phrase) : Prop where
  ne_nil : form ≠ []
  ordered : (a :: form).IsChain MayFollow
  count_b : (letters form).count b = (letters form).count a
  count_c : (letters form).count c = (letters form).count a

/-- The alternative can take the place of the left-hand phrase in a balanced form. -/
@[mk_iff]
structure Exchangeable (lhs alternative : Phrase) : Prop where
  ne_nil : lhs ≠ [] ∧ alternative ≠ []
  ordered : alternative.IsChain MayFollow
  head : ∀ right ∈ lhs.head?, ∀ right' ∈ alternative.head?,
    right' ∈ [B, C, W, Z] ∨ right = right' ∨ (right = S ∧ right' = a)
  getLast : ∀ left ∈ lhs.getLast?, left ∉ [a, b, c]
  apart_left : Z ∉ lhs.head? ∧ Z ∉ alternative.head?
  apart_right : W ∉ lhs.getLast? ∧ W ∉ alternative.getLast?
  count_b : (letters alternative).count b + (letters lhs).count a =
    (letters lhs).count b + (letters alternative).count a
  count_c : (letters alternative).count c + (letters lhs).count a =
    (letters lhs).count c + (letters alternative).count a

instance (lhs alternative : Phrase) : Decidable (Exchangeable lhs alternative) :=
  decidable_of_iff' _ (exchangeable_iff lhs alternative)

theorem exchangeable_of_mem :
    ∀ production ∈ anbncn.outline.productions, Exchangeable production.1 production.2 := by
  decide

section Steps

variable {before lhs alternative after : Phrase}

/-- The letters of a form in which neither end of a part is involved with what stands beside it. -/
theorem letters_replace (hne : lhs ≠ []) (hleft : Z ∉ lhs.head?) (hright : W ∉ lhs.getLast?) :
    letters (before ++ lhs ++ after) = letters before ++ letters lhs ++ letters after := by
  have hhead : (lhs ++ after).head? = lhs.head? := List.head?_append_of_ne_nil lhs hne
  rw [List.append_assoc, letters_append (.inr (by rwa [hhead])), letters_append (.inl hright),
    List.append_assoc]

theorem Exchangeable.ordered_replace (h : Exchangeable lhs alternative)
    (hchain : (before ++ lhs ++ after).IsChain MayFollow) :
    (before ++ alternative ++ after).IsChain MayFollow := by
  obtain ⟨hlhs, halternative⟩ := h.ne_nil
  rw [List.append_assoc, List.isChain_append, List.isChain_append] at hchain ⊢
  obtain ⟨hbefore, ⟨_, hafter, hlast⟩, hfirst⟩ := hchain
  refine ⟨hbefore, ⟨h.ordered, hafter, ?_⟩, ?_⟩
  · intro left' _ right hright
    have hmem : lhs.getLast hlhs ∈ lhs.getLast? := List.getLast?_eq_some_getLast hlhs
    exact mayFollow_of_not_letter (h.getLast _ hmem) (hlast _ hmem right hright)
  · intro left hleft right' hright'
    rw [List.head?_append_of_ne_nil _ halternative] at hright'
    have hmem : lhs.head hlhs ∈ lhs.head? := List.head?_eq_some_head hlhs
    have hfollow := hfirst left hleft (lhs.head hlhs)
      (by rw [List.head?_append_of_ne_nil _ hlhs]; exact hmem)
    rcases h.head _ hmem right' hright' with hlater | hsame | ⟨hS, rfl⟩
    · exact .inl hlater
    · rwa [← hsame]
    · exact mayFollow_a (by rwa [← hS])

/-- A step keeps a form balanced. -/
theorem Exchangeable.balanced_replace (h : Exchangeable lhs alternative)
    (hform : Balanced (before ++ lhs ++ after)) :
    Balanced (before ++ alternative ++ after) := by
  obtain ⟨_, hordered, hcount_b, hcount_c⟩ := hform
  obtain ⟨hlhs, halternative⟩ := h.ne_nil
  have hb := h.count_b
  have hc := h.count_c
  rw [letters_replace hlhs h.apart_left.1 h.apart_right.1] at hcount_b hcount_c
  simp only [List.count_append] at hcount_b hcount_c
  refine ⟨?_, ?_, ?_, ?_⟩
  · exact List.append_ne_nil_of_left_ne_nil
      (List.append_ne_nil_of_right_ne_nil before halternative) after
  · have hordered' : (a :: before ++ lhs ++ after).IsChain MayFollow := hordered
    exact h.ordered_replace hordered'
  · rw [letters_replace halternative h.apart_left.2 h.apart_right.2]
    simp only [List.count_append]
    omega
  · rw [letters_replace halternative h.apart_left.2 h.apart_right.2]
    simp only [List.count_append]
    omega

end Steps

/-- A derivation keeps a form balanced. -/
theorem Balanced.of_derives {production : Phrase → Phrase → Prop}
    (hproduction : ∀ lhs alternative, production lhs alternative → Exchangeable lhs alternative)
    {first last : Phrase} (h : Derives production first last) (hfirst : Balanced first) :
    Balanced last := by
  induction h with
  | refl => exact hfirst
  | head hstep _ ih =>
      obtain ⟨before, after, hreplaced⟩ := hstep
      exact ih ((hproduction _ _ hreplaced).balanced_replace hfirst)

theorem balanced_start : Balanced [S] where
  ne_nil := List.cons_ne_nil S []
  ordered := by decide
  count_b := by decide
  count_c := by decide

/-- A balanced form of letters only is a word of the language. -/
theorem Balanced.mem_anbncnWords {word : Phrase} (h : Balanced word)
    (hletters : ∀ token ∈ word, token ∈ [a, b, c]) : word ∈ anbncnWords := by
  obtain ⟨hne, hordered, hcount_b, hcount_c⟩ := h
  rw [letters_eq_self hletters] at hcount_b hcount_c
  obtain ⟨i, j, k, rfl⟩ := exists_replicate_a hletters hordered
  have hab : a ≠ b := by decide
  have hac : a ≠ c := by decide
  have hbc : b ≠ c := by decide
  simp only [List.count_append, List.count_replicate, beq_iff_eq, hab, hac, hbc, hab.symm,
    hac.symm, hbc.symm, if_true, if_false, Nat.add_zero, Nat.zero_add] at hcount_b hcount_c
  subst hcount_b
  subst hcount_c
  refine ⟨_, ?_, rfl⟩
  rw [Nat.one_le_iff_ne_zero]
  rintro rfl
  exact hne rfl

/-- The context-sensitive sample derives, with all its productions, exactly the words of one or
more `a`, as many `b` and as many `c`. -/
theorem anbncn_derives_words :
    ∃ grammar, anbncn.grammar = .ok grammar ∧
      ∀ word, (grammar.IsWord word ∧ Derives grammar.Production [grammar.start] word) ↔
        ∃ n, 1 ≤ n ∧
          word = List.replicate n a ++ List.replicate n b ++ List.replicate n c := by
  obtain ⟨grammar, hgrammar, houtline⟩ := exists_grammar anbncn
  have hstart : grammar.start = S := congrArg Outline.start houtline
  have hterminal {token : Token} : grammar.isTerminal token = true ↔ token ∈ [a, b, c] := by
    rw [Grammar.isTerminal_iff_mem_outline, houtline]
    rfl
  refine ⟨grammar, hgrammar, ?_⟩
  intro word
  rw [hstart]
  constructor
  · rintro ⟨hword, hderives⟩
    have hbalanced := balanced_start.of_derives (fun lhs alternative hproduction =>
      exchangeable_of_mem _ ((production_iff_mem_outline houtline).mp hproduction)) hderives
    exact hbalanced.mem_anbncnWords fun token htoken => hterminal.mp (hword token htoken)
  · intro hword
    refine ⟨?_, derives_of_mem_anbncnWords houtline hword⟩
    obtain ⟨n, _, rfl⟩ := hword
    intro token htoken
    simp only [List.mem_append, List.mem_replicate] at htoken
    rw [hterminal]
    rcases htoken with (⟨_, rfl⟩ | ⟨_, rfl⟩) | ⟨_, rfl⟩ <;> decide

end Sample
end PhraseStructure
