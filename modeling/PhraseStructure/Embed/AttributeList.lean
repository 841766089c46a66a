import PhraseStructure.Embed.Piece

/-!
# Argument lists of attributes

The arguments of an attribute stand between round brackets with commas between
them; a comma may follow the last one.  An argument is a literal, or a name alone,
with a literal after an equals sign, or with an argument list of its own.  A name
is one or more words with two colons between them, and two colons may stand in
front.

A list is read from left to right, and the first fault is the one that counts.
Brackets are taken to be balanced: a closing bracket ends the list that it is in.
-/

namespace PhraseStructure

/-- What an attribute has to have at some place. -/
inductive AttributePart where
  | literal
  | argument
  | comma
  | segment
deriving DecidableEq

/-- A part of an attribute that is not where it has to be; the text may end there. -/
structure AttributeFault where
  part : AttributePart
  atEnd : Bool
deriving DecidableEq

namespace AttributeFault

/-- The wording of what has to be there. -/
def expectation : AttributePart → String
  | .literal => "expected literal"
  | .argument => "expected identifier or literal"
  | .comma => "expected `,`"
  | .segment => "expected path segment"

/-- The wording of a fault. -/
def message (fault : AttributeFault) : String :=
  (if fault.atEnd then "unexpected end of input, " else "") ++ expectation fault.part

end AttributeFault

namespace AttributeList

/-- How far the reading of an argument has come. -/
inductive Stage where
  /-- An argument can begin. -/
  | start
  /-- Two colons have been read, and a word has to follow. -/
  | colons
  /-- A name has been read. -/
  | name
  /-- An equals sign has been read. -/
  | equals
  /-- The argument is complete. -/
  | done
deriving DecidableEq

/-- What is missing when a list ends at a stage. -/
def close : Stage → Except AttributeFault Unit
  | .colons => .error ⟨.segment, true⟩
  | .equals => .error ⟨.literal, true⟩
  | _ => .ok ()

/-- The stage after the first piece of an argument. -/
def afterStart (piece : Piece) (next : Option Piece) : Except AttributeFault Stage :=
  if piece.isWord && next.any fun other => other.isMark ['='] then
    .ok .name
  else if piece.isLiteral then
    .ok .done
  else if piece.isWord then
    .ok .name
  else if piece.isMark [':', ':'] && next.any Piece.isWord then
    .ok .colons
  else
    .error ⟨.argument, false⟩

/-- The stage after a piece that does not close the list. -/
def advance (stage : Stage) (piece : Piece) (next : Option Piece) :
    Except AttributeFault Stage :=
  match stage with
  | .start => afterStart piece next
  | .colons => if piece.isWord then .ok .name else .error ⟨.segment, false⟩
  | .equals => if piece.isLiteral then .ok .done else .error ⟨.literal, false⟩
  | .name =>
      if piece.isMark [':', ':'] then .ok .colons
      else if piece.isMark ['='] then .ok .equals
      else if piece.isMark ['('] || piece.isMark [','] then .ok .start
      else .error ⟨.comma, false⟩
  | .done => if piece.isMark [','] then .ok .start else .error ⟨.comma, false⟩

/-- Read the pieces of a list from a stage on. -/
def checkFrom (stage : Stage) : List Piece → Except AttributeFault Unit
  | [] => close stage
  | piece :: rest => do
      if piece.isMark [')'] then
        close stage
        checkFrom .done rest
      else
        checkFrom (← advance stage piece rest.head?) rest

/-- The text of an argument list is well formed. -/
def check (arguments : Text) : Except AttributeFault Unit :=
  checkFrom .start (Piece.split arguments)

end AttributeList
end PhraseStructure
