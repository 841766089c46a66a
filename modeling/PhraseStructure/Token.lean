import PhraseStructure.Text.Blank

/-!
# Tokens

A token is a non-empty text without blanks and without quotation marks.  Those
are exactly the texts that can stand inside quotation marks in grammar text and
that survive being written between blanks.  A text that is no token has one of
three flaws; of several flaws the first in the order of `Flaw` is reported.

Tokens are ordered by their code points.
-/

namespace PhraseStructure

namespace Text

/-- The order of texts by their code points, a text before its continuations. -/
def precedes : Text → Text → Bool
  | _, [] => false
  | [], _ :: _ => true
  | a :: as, b :: bs => a.toNat < b.toNat || (a = b && precedes as bs)

theorem precedes_irrefl (text : Text) : precedes text text = false := by
  induction text with
  | nil => rfl
  | cons c rest ih => simp [precedes, ih]

theorem precedes_trans {a b c : Text} (hab : precedes a b = true) (hbc : precedes b c = true) :
    precedes a c = true := by
  induction a generalizing b c with
  | nil =>
      cases c with
      | nil => cases b <;> simp [precedes] at hbc
      | cons => rfl
  | cons x a ih =>
      cases b with
      | nil => simp [precedes] at hab
      | cons y b =>
          cases c with
          | nil => simp [precedes] at hbc
          | cons z c =>
              simp only [precedes, Bool.or_eq_true, Bool.and_eq_true, decide_eq_true_eq] at *
              rcases hab with hab | ⟨rfl, hab⟩
              · rcases hbc with hbc | ⟨rfl, hbc⟩
                · exact .inl (Nat.lt_trans hab hbc)
                · exact .inl hab
              · rcases hbc with hbc | ⟨rfl, hbc⟩
                · exact .inl hbc
                · exact .inr ⟨rfl, ih hab hbc⟩

theorem precedes_of_not_precedes {a b : Text} (hne : a ≠ b) (h : ¬ precedes a b = true) :
    precedes b a = true := by
  induction a generalizing b with
  | nil =>
      cases b with
      | nil => exact absurd rfl hne
      | cons => exact absurd rfl h
  | cons x a ih =>
      cases b with
      | nil => rfl
      | cons y b =>
          simp only [precedes, Bool.or_eq_true, Bool.and_eq_true, decide_eq_true_eq, not_or,
            not_and] at h ⊢
          obtain ⟨hlt, htail⟩ := h
          by_cases hxy : x = y
          · subst hxy
            exact .inr ⟨rfl, ih (fun heq => hne (by rw [heq])) (htail rfl)⟩
          · have hval : x.toNat ≠ y.toNat := fun heq => hxy (Char.toNat_inj.mp heq)
            exact .inl (by omega)

end Text

/-- Why a text is no token. -/
inductive Flaw where
  | empty
  | blank
  | quotation
deriving DecidableEq, Repr

namespace Flaw

/-- The wording of a flaw. -/
def reason : Flaw → String
  | empty => "token is empty"
  | blank => "token contains whitespace"
  | quotation => "token contains a quotation character"

end Flaw

/-- The character is a single or a double quotation mark. -/
def Text.isQuotation (c : Char) : Bool :=
  c == '\x22' || c == '\x27'

/-- The first flaw that keeps a text from being a token. -/
def Text.flaw? (text : Text) : Option Flaw :=
  if text.isEmpty then
    some .empty
  else if text.any Text.isBlank then
    some .blank
  else if text.any Text.isQuotation then
    some .quotation
  else
    none

theorem Text.flaw?_eq_none_iff {text : Text} :
    text.flaw? = none ↔
      text ≠ [] ∧ ∀ c ∈ text, isBlank c = false ∧ isQuotation c = false := by
  unfold flaw?
  split
  · simp_all
  · split
    · simp_all
      grind
    · split <;> simp_all

/-- A non-empty text without blanks and quotation marks. -/
structure Token where
  text : Text
  flawless : text.flaw? = none
deriving DecidableEq

namespace Token

/-- The token of a text, or the text's flaw. -/
def ofText (text : Text) : Except Flaw Token :=
  match h : text.flaw? with
  | none => .ok ⟨text, h⟩
  | some flaw => .error flaw

/-- The token comes before another in the order of code points. -/
def precedes (a b : Token) : Bool :=
  Text.precedes a.text b.text

instance : LT Token := ⟨fun a b => a.precedes b = true⟩

instance (a b : Token) : Decidable (a < b) :=
  inferInstanceAs (Decidable (a.precedes b = true))

/-- The order of tokens. -/
def order (a b : Token) : Ordering :=
  if a < b then .lt else if a = b then .eq else .gt

@[ext] theorem ext {a b : Token} (h : a.text = b.text) : a = b := by
  cases a
  cases b
  simpa using h

theorem ofText_eq_ok_iff {text : Text} {token : Token} :
    ofText text = .ok token ↔ token.text = text := by
  unfold ofText
  split
  · rename_i h
    constructor
    · intro heq
      cases heq
      rfl
    · intro heq
      exact congrArg Except.ok (ext heq.symm)
  · rename_i flaw h
    simp only [reduceCtorEq, false_iff]
    rintro rfl
    rw [token.flawless] at h
    cases h

theorem text_ne_nil (token : Token) : token.text ≠ [] :=
  (Text.flaw?_eq_none_iff.mp token.flawless).1

theorem lt_irrefl (a : Token) : ¬ a < a := by
  show ¬ Text.precedes a.text a.text = true
  simp [Text.precedes_irrefl]

theorem lt_trans {a b c : Token} (hab : a < b) (hbc : b < c) : a < c :=
  Text.precedes_trans hab hbc

theorem lt_of_not_lt {a b : Token} (hne : a ≠ b) (h : ¬ a < b) : b < a := by
  have htext : a.text ≠ b.text := fun heq => hne (ext heq)
  exact Text.precedes_of_not_precedes htext h

/-- Put a token at its place in a strictly ascending list that may hold it
already. -/
def insertAscending (token : Token) : List Token → List Token
  | [] => [token]
  | first :: rest =>
      if token < first then
        token :: first :: rest
      else if token = first then
        first :: rest
      else
        first :: insertAscending token rest

/-- The distinct tokens of a list, strictly ascending. -/
def ascending (tokens : List Token) : List Token :=
  tokens.foldr insertAscending []

@[simp] theorem mem_insertAscending {a token : Token} {tokens : List Token} :
    a ∈ insertAscending token tokens ↔ a = token ∨ a ∈ tokens := by
  induction tokens with
  | nil => simp [insertAscending]
  | cons first rest ih =>
      simp only [insertAscending]
      split
      · simp
      · split <;> simp_all
        grind

@[simp] theorem mem_ascending {a : Token} {tokens : List Token} :
    a ∈ ascending tokens ↔ a ∈ tokens := by
  unfold ascending
  induction tokens with
  | nil => simp
  | cons token rest ih => simp [ih]

theorem pairwise_insertAscending (token : Token) {tokens : List Token}
    (h : tokens.Pairwise (· < ·)) :
    (insertAscending token tokens).Pairwise (· < ·) := by
  induction tokens with
  | nil => simp [insertAscending]
  | cons first rest ih =>
      obtain ⟨hfirst, hrest⟩ := List.pairwise_cons.mp h
      simp only [insertAscending]
      split
      · rename_i hlt
        refine List.pairwise_cons.mpr ⟨?_, h⟩
        intro b hb
        rcases List.mem_cons.mp hb with rfl | hb
        · exact hlt
        · exact lt_trans hlt (hfirst b hb)
      · split
        · exact h
        · rename_i hnlt hne
          refine List.pairwise_cons.mpr ⟨?_, ih hrest⟩
          intro b hb
          rcases mem_insertAscending.mp hb with rfl | hb
          · exact lt_of_not_lt hne hnlt
          · exact hfirst b hb

theorem pairwise_ascending (tokens : List Token) :
    (ascending tokens).Pairwise (· < ·) := by
  unfold ascending
  induction tokens with
  | nil => simp
  | cons token rest ih => exact pairwise_insertAscending token ih

end Token
end PhraseStructure
