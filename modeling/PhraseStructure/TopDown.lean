import PhraseStructure.Grammar.Nullable
import PhraseStructure.Partition.Splits

/-!
# Top-down recognition

A form of `k` tokens matches a part of the input when some split of the part into
`k` groups lets every token of the form match its group.  A terminal matches the
group that is just this token.  Any other token matches a group when some
alternative of its rule matches the group; a token without a rule of its own
matches nothing.  Only rules whose left-hand phrase is a single token are used.

* A goal is a token to be matched against a part of the input.  The goals that
  are being worked on are active, and a goal that is active already fails, so
  that rules leading back to themselves do no harm.  A goal stays active until
  its alternatives are done.
* Before a part is split, a form is rejected when it is too long for the part or
  when its leading terminals, its trailing terminals or the numbers of its
  terminals do not fit.
* The general variant allows empty groups.  The ε-free variant never does, and
  so it finds only derivations without ε productions.

Goals nest no deeper than there are different goals, and one.
-/

namespace PhraseStructure

/-- A top-down recognizer. -/
structure TopDown where
  grammar : Grammar
  allowEmpty : Bool
  nullable : List Token

/-- A token to be matched against the part of the input from `start` to `stop`. -/
structure Goal where
  token : Token
  start : Nat
  stop : Nat
deriving DecidableEq

/-- A search that keeps track of the active goals. -/
abbrev Search := StateT (List Goal) (Except Fault)

namespace TopDown

/-- The variant that allows empty groups. -/
def general (grammar : Grammar) : TopDown :=
  ⟨grammar, true, grammar.nullable⟩

/-- The variant that never splits off an empty group. -/
def epsilonFree (grammar : Grammar) : TopDown :=
  ⟨grammar, false, []⟩

/-! ### Early rejection -/

/-- A number of tokens below which a form matches nothing. -/
def leastLength (recognizer : TopDown) (form : Phrase) : Nat :=
  if recognizer.allowEmpty then
    form.countP fun token => !recognizer.nullable.contains token
  else
    form.length

/-- The terminals at the beginning of a form. -/
def leading (recognizer : TopDown) (form : Phrase) : Phrase :=
  form.takeWhile recognizer.grammar.isTerminal

/-- The terminals at the end of a form. -/
def trailing (recognizer : TopDown) (form : Phrase) : Phrase :=
  (form.reverse.takeWhile recognizer.grammar.isTerminal).reverse

/-- No terminal occurs more often in the form than in the part. -/
def affords (recognizer : TopDown) (form part : Phrase) : Bool :=
  form.all fun token =>
    !recognizer.grammar.isTerminal token || form.count token ≤ part.count token

/-- A form is rejected without a look at its splits. -/
def rejects (recognizer : TopDown) (form part : Phrase) : Bool :=
  part.length < recognizer.leastLength form ||
    !part.startsWith (recognizer.leading form) ||
    !part.endsWith (recognizer.trailing form) ||
    !recognizer.affords form part

/-! ### The search -/

/-- Every token matches its group; the first group begins at `start`. -/
def matchGroups (matchToken : Token → Nat → Nat → Search Bool) :
    Nat → Phrase → List Phrase → Search Bool
  | start, token :: form, group :: groups => do
      if ← matchToken token start (start + group.length) then
        matchGroups matchToken (start + group.length) form groups
      else
        return false
  | _, _, _ => pure true

/-- Some split of a part lets every token of a form match its group. -/
def matchSplits (recognizer : TopDown) (matchToken : Token → Nat → Nat → Search Bool)
    (form part : Phrase) (start : Nat) : Search Bool := do
  let splits ← Splits.trusted part form.length recognizer.allowEmpty
  splits.anyM (matchGroups matchToken start form)

/-- A form matches the part of the input from `start` to `stop`. -/
def matchForm (recognizer : TopDown) (input : Phrase)
    (matchToken : Token → Nat → Nat → Search Bool) (form : Phrase) (start stop : Nat) :
    Search Bool := do
  let part ← input.slice start stop
  if form.isEmpty then
    return part.isEmpty
  else if recognizer.rejects form part then
    return false
  else
    recognizer.matchSplits matchToken form part start

/-- A token matches the part of the input from `start` to `stop`, with at most
`depth` goals nested. -/
def matchToken (recognizer : TopDown) (input : Phrase) :
    Nat → Token → Nat → Nat → Search Bool
  | 0, _, _, _ => throw .depth
  | depth + 1, token, start, stop => do
      let group ← input.slice start stop
      if recognizer.grammar.isTerminal token then
        return group = [token]
      else
        match recognizer.grammar.ruleFor? token with
        | none => return false
        | some rule =>
            let goal : Goal := ⟨token, start, stop⟩
            if (← get).contains goal then
              return false
            else
              modify fun active => goal :: active
              let matched ← rule.alternatives.anyM fun alternative =>
                recognizer.matchForm input (matchToken recognizer input depth)
                  alternative start stop
              modify fun active => active.erase goal
              return matched

/-- How deeply goals can nest: once per context-free rule and part of the input,
and once more for a goal that is settled at once. -/
def depthBound (recognizer : TopDown) (input : Phrase) : Nat :=
  recognizer.grammar.contextFreeRules.length * ((input.length + 1) * (input.length + 2) / 2) + 1

/-- A sentential form derives the input. -/
def matchesForm (recognizer : TopDown) (form input : Phrase) : Except Fault Bool :=
  (recognizer.matchForm input
    (recognizer.matchToken input (recognizer.depthBound input)) form 0 input.length).run' []

/-- A token derives the input. -/
def matchesToken (recognizer : TopDown) (token : Token) (input : Phrase) : Except Fault Bool :=
  (recognizer.matchToken input (recognizer.depthBound input) token 0 input.length).run' []

/-- The start symbol derives the input. -/
def recognizes (recognizer : TopDown) (input : Phrase) : Except Fault Bool :=
  recognizer.matchesForm [recognizer.grammar.start] input

end TopDown
end PhraseStructure
