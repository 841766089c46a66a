import PhraseStructure.Phrase

/-!
# Errors

The causes for which tokens, sort tables, rules and grammars are refused, and
the wording of each cause.  The wording of a cause is a function of the cause
alone.
-/

namespace PhraseStructure

/-- Why a token, a rule or a grammar is refused. -/
inductive Error where
  | invalidToken (text : Text) (flaw : Flaw)
  | emptyLhs
  | noAlternatives (lhs : Phrase)
  | unclassified (tokens : List Token)
  | unclassifiedStart (token : Token)
  | conflictingSort (token : Token)
  | mismatchedMerge (left right : Phrase)
  | unreadable (reason : String)
  | unwritable (token : Token)
deriving DecidableEq

namespace Error

/-- A token as it stands in a message. -/
def shown (token : Token) : String :=
  "'" ++ String.ofList token.text ++ "'"

/-- A phrase as it stands in a message. -/
def shownPhrase (phrase : Phrase) : String :=
  "'" ++ String.ofList phrase.render ++ "'"

/-- The wording of an error. -/
def message : Error → String
  | invalidToken text flaw =>
      "invalid token '" ++ String.ofList text ++ "': " ++ flaw.reason
  | emptyLhs => "production rule has an empty lhs"
  | noAlternatives lhs =>
      "production rule for " ++ shownPhrase lhs ++ " has no alternatives"
  | unclassified tokens =>
      "tokens missing from the sort table:" ++
        String.join (tokens.map fun token => " " ++ shown token)
  | unclassifiedStart token =>
      "start symbol " ++ shown token ++ " missing from the sort table"
  | conflictingSort token =>
      "token " ++ shown token ++ " is classified as both terminal and non-terminal"
  | mismatchedMerge left right =>
      "cannot merge rules with different lhs, left: " ++ shownPhrase left ++
        ", right: " ++ shownPhrase right
  | unreadable reason => "failed to parse: " ++ reason
  | unwritable token =>
      "token " ++ shown token ++ " can't be written as a bare non-terminal"

end Error

/-- The token of a text. -/
def Token.read (text : Text) : Except Error Token :=
  (Token.ofText text).mapError (Error.invalidToken text)

theorem Token.read_eq_ok_iff {text : Text} {token : Token} :
    read text = .ok token ↔ token.text = text := by
  rw [← ofText_eq_ok_iff, read]
  cases ofText text with
  | error flaw =>
      constructor
      · intro h
        cases h
      · intro h
        cases h
  | ok other =>
      constructor
      · intro h
        cases h
        rfl
      · intro h
        cases h
        rfl

/-- The phrase of a text: one token per word. -/
def Phrase.read (text : Text) : Except Error Phrase :=
  text.words.mapM Token.read

end PhraseStructure
