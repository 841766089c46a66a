import PhraseStructure.Chart.Basic
import PhraseStructure.Grammar.Kind
import PhraseStructure.Grammar.Nullable
import PhraseStructure.Partition.Splits

/-!
# Bottom-up recognition

The recognizer fills the chart of an input by increasing length.  Row 0 holds the
nullable non-terminals at every position.  A longer cell gains the left-hand
non-terminal of a rule when some alternative can be laid over some split of the
cell's tokens: a terminal over a group that is just this token, a non-terminal
over a group whose cell has its mark.  Groups may be empty, so an alternative can
reach back to the cell itself; the cell is therefore filled by passes over the
rules until a pass adds nothing.  Every pass but the last adds the mark of one
more rule, so there are at most as many passes as rules, and one; more of them
would be a fault.

Only context-free grammars have such a recognizer.
-/

namespace PhraseStructure

/-- The kind of a grammar that is not context-free. -/
structure NotContextFree where
  kind : Kind
deriving DecidableEq

namespace NotContextFree

/-- The wording of the refusal. -/
def message (refusal : NotContextFree) : String :=
  "grammar must be context-free, found " ++ refusal.kind.render

end NotContextFree

/-- One symbol of an alternative, non-terminals by number. -/
inductive Part where
  | terminal (token : Token)
  | nonTerminal (number : Nat)
deriving DecidableEq

/-- A context-free rule, non-terminals by number. -/
structure NumberedRule where
  lhs : Nat
  alternatives : List (List Part)
deriving DecidableEq

/-- The bottom-up recognizer of a grammar. -/
structure BottomUp where
  grammar : Grammar
  names : List Token
  rules : List NumberedRule
  nullable : List Nat

namespace BottomUp

/-- A token as a symbol: by number if it has one. -/
def numbered (names : List Token) (token : Token) : Part :=
  match names.idxOf? token with
  | some number => .nonTerminal number
  | none => .terminal token

/-- A rule with its non-terminals by number. -/
def numberedRule? (names : List Token) (rule : Rule) : Option NumberedRule :=
  match rule.lhs with
  | [] => none
  | token :: _ =>
      (names.idxOf? token).map fun lhs =>
        ⟨lhs, rule.alternatives.map fun alternative => alternative.map (numbered names)⟩

/-- The recognizer of a context-free grammar. -/
def make (grammar : Grammar) : Except NotContextFree BottomUp :=
  let kind := grammar.kind
  if kind.rank < Kind.contextFree.rank then
    .error ⟨kind⟩
  else
    let names := grammar.sorts.nonTerminals
    .ok {
      grammar := grammar
      names := names
      rules := grammar.rules.filterMap (numberedRule? names)
      nullable := grammar.nullable.filterMap fun token => names.idxOf? token }

/-- A symbol fits over a group that begins at `start`. -/
def fits (chart : Chart) (start : Nat) (group : Phrase) : Part → Except Fault Bool
  | .terminal token => .ok (group = [token])
  | .nonTerminal number => chart.marked group.length start number

/-- Every symbol fits over its group; the first group begins at `start`. -/
def fitsAll (chart : Chart) : Nat → List Part → List Phrase → Except Fault Bool
  | start, part :: parts, group :: groups => do
      if ← fits chart start group part then
        fitsAll chart (start + group.length) parts groups
      else
        return false
  | _, _, _ => .ok true

/-- An alternative can be laid over the `length` tokens at `start`.  Empty
alternatives are the business of row 0. -/
def derives (chart : Chart) (input : Phrase) (length start : Nat) (alternative : List Part) :
    Except Fault Bool := do
  if alternative.isEmpty then
    return false
  else
    let tokens ← input.slice start (start + length)
    let splits ← Splits.trusted tokens alternative.length true
    splits.anyM (fitsAll chart start alternative)

/-- Mark a rule's non-terminal in a cell if an alternative allows it, and note
whether anything was added. -/
def fillRule (input : Phrase) (length start : Nat) (state : Chart × Bool)
    (rule : NumberedRule) : Except Fault (Chart × Bool) := do
  let (chart, changed) := state
  if ← chart.marked length start rule.lhs then
    return (chart, changed)
  else if ← rule.alternatives.anyM (derives chart input length start) then
    let (chart, _) ← chart.mark length start rule.lhs
    return (chart, true)
  else
    return (chart, changed)

/-- One pass over the rules for a cell. -/
def fillPass (recognizer : BottomUp) (input : Phrase) (length start : Nat) (chart : Chart) :
    Except Fault (Chart × Bool) :=
  recognizer.rules.foldlM (fillRule input length start) (chart, false)

/-- Passes for a cell until one adds nothing, with at most `limit` of them. -/
def fillPasses (recognizer : BottomUp) (input : Phrase) (length start : Nat) :
    Nat → Chart → Except Fault Chart
  | 0, _ => .error .passes
  | limit + 1, chart => do
      let (chart, changed) ← recognizer.fillPass input length start chart
      if changed then
        fillPasses recognizer input length start limit chart
      else
        return chart

/-- Fill a cell completely. -/
def fillCell (recognizer : BottomUp) (input : Phrase) (length : Nat) (chart : Chart)
    (start : Nat) : Except Fault Chart :=
  recognizer.fillPasses input length start (recognizer.rules.length + 1) chart

/-- Mark the nullable non-terminals at a position. -/
def fillEmpty (recognizer : BottomUp) (chart : Chart) (start : Nat) : Except Fault Chart :=
  recognizer.nullable.foldlM
    (fun chart number => do
      let (chart, _) ← chart.mark 0 start number
      return chart)
    chart

/-- Fill the cells of one length. -/
def fillRow (recognizer : BottomUp) (input : Phrase) (chart : Chart) (length : Nat) :
    Except Fault Chart :=
  (List.range (input.length - length + 1)).foldlM (recognizer.fillCell input length) chart

/-- The chart of an input. -/
def chart (recognizer : BottomUp) (input : Phrase) : Except Fault Chart := do
  let chart := Chart.blank input.length recognizer.names
  let chart ← (List.range (input.length + 1)).foldlM recognizer.fillEmpty chart
  (List.range' 1 input.length).foldlM (recognizer.fillRow input) chart

/-- The start symbol derives the input. -/
def recognizes (recognizer : BottomUp) (input : Phrase) : Except Fault Bool := do
  let chart ← recognizer.chart input
  chart.contains input.length 0 recognizer.grammar.start

end BottomUp
end PhraseStructure
