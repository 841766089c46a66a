import PhraseStructure.Embed.Arguments
import PhraseStructure.Embed.Piece
import PhraseStructure.Embed.Source
import PhraseStructure.Text.Literal

/-!
# Generated code

A declaration that names a grammar gets a constructor for it: a block of code
that hands the grammar's construction arguments to the grammar builder.  The
block repeats the declaration's parameters and conditions; default types of
parameters are left out.  If there is no grammar to embed, the code is a
compile-time error with the reason.

Pieces of code stand one space apart, also in the names and bounds that the
declaration brings along.  A parameter without bounds has no colon; a condition
has one in any case.
-/

namespace PhraseStructure

/-- A name with the bounds put on it, each written as code. -/
structure Bounded where
  name : String
  bounds : List String
deriving DecidableEq

/-- A type parameter of a declaration. -/
structure TypeParameter extends Bounded where
  default : Option String
deriving DecidableEq

/-- A declaration for which code is generated. -/
structure Declaration where
  name : String
  attributes : List Attribute
  lifetimes : List String
  types : List TypeParameter
  conditions : List Bounded
deriving DecidableEq

namespace Code

/-- A text literal. -/
def literal (text : Text) : String :=
  String.ofList text.literal

/-- Items with commas between them. -/
def listed (items : List String) : String :=
  " , ".intercalate items

/-- A reference to a list of items. -/
def reference (items : List String) : String :=
  "& [" ++ listed items ++ "]"

/-- A rule's texts. -/
def rule (rule : Text × List Text) : String :=
  "(" ++ literal rule.1 ++ " , " ++ reference (rule.2.map literal) ++ ")"

/-- The arguments handed to the grammar builder. -/
def arguments (arguments : Arguments) : String :=
  "(" ++ listed
    [reference (arguments.nonTerminals.map literal),
      reference (arguments.terminals.map literal),
      reference (arguments.rules.map rule),
      literal arguments.start] ++ " ,)"

/-- Code with its pieces one space apart. -/
def spaced (code : String) : String :=
  String.ofList (Piece.spaced (Piece.split code.toList))

/-- Bounds with plus signs between them. -/
def bounds (items : List String) : String :=
  " + ".intercalate (items.map spaced)

/-- A parameter and, after a colon, its bounds if it has any. -/
def parameter (item : Bounded) : String :=
  if item.bounds.isEmpty then
    spaced item.name
  else
    spaced item.name ++ " : " ++ bounds item.bounds

/-- A condition: what it is about and, after a colon, the bounds. -/
def condition (item : Bounded) : String :=
  if item.bounds.isEmpty then
    spaced item.name ++ " :"
  else
    spaced item.name ++ " : " ++ bounds item.bounds

/-- The name by which a parameter is used: its first piece, after the word that
makes it a constant. -/
def parameterName (code : String) : String :=
  match Piece.split code.toList with
  | [] => ""
  | [piece] => String.ofList piece.text
  | first :: second :: _ =>
      String.ofList (if first.text = "const".toList then second.text else first.text)

/-- Parameters between angle brackets, or nothing. -/
def parameters (items : List String) : String :=
  if items.isEmpty then "" else "< " ++ listed items ++ " > "

/-- A lifetime parameter. -/
def lifetime (name : String) : String :=
  "'" ++ name

/-- The conditions of a declaration, or nothing. -/
def conditions (items : List Bounded) : String :=
  if items.isEmpty then "" else "where " ++ listed (items.map condition) ++ " "

/-- The head of the block for a declaration. -/
def head (declaration : Declaration) : String :=
  let lifetimes := declaration.lifetimes.map lifetime
  let binders := declaration.types.map fun given => parameter given.toBounded
  let names := declaration.types.map fun given => given.name
  "impl " ++ parameters (lifetimes.map spaced ++ binders) ++ declaration.name ++ " " ++
    parameters ((lifetimes ++ names).map parameterName) ++ conditions declaration.conditions

/-- The block that builds a grammar. -/
def constructor (declaration : Declaration) (grammar : Grammar) : String :=
  head declaration ++
    "\x7b pub fn grammar () -> :: grammar :: Grammar \x7b :: grammar :: Grammar :: from_strings " ++
    arguments grammar.arguments ++
    " . expect (\x22grammar validated at compile time\x22) \x7d \x7d"

/-- A compile-time error. -/
def compileError (message : String) : String :=
  "compile_error ! \x7b " ++ literal message.toList ++ " \x7d"

end Code

/-- The code generated for a declaration. -/
def Surroundings.code (surroundings : Surroundings) (declaration : Declaration) : String :=
  match surroundings.grammar declaration.attributes with
  | .ok grammar => Code.constructor declaration grammar
  | .error error => Code.compileError error.message

end PhraseStructure
