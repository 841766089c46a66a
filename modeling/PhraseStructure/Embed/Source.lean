import PhraseStructure.Embed.AttributeList
import PhraseStructure.Embed.Files
import PhraseStructure.Script.Meaning

/-!
# The source of an embedded grammar

A declaration names the grammar to embed by exactly one of two attributes: one
holds the grammar text itself, the other the path of a file with the text.  The
number of such attributes is checked before the form of any of them.  Other
attributes do not matter.

The words `true` and `false` are literals.  A list of arguments has to be well
formed before it is refused for being a list.
-/

namespace PhraseStructure

/-- What follows the name of an attribute. -/
inductive AttributeForm where
  /-- A text literal after an equals sign. -/
  | text (value : Text)
  /-- A literal after an equals sign that is no text. -/
  | otherLiteral
  /-- A word after an equals sign. -/
  | word (name : Text)
  /-- An equals sign and nothing after it. -/
  | missing
  /-- A list of arguments between round brackets. -/
  | list (arguments : Text)
  /-- Nothing. -/
  | bare
deriving DecidableEq

/-- An attribute of a declaration. -/
structure Attribute where
  name : Text
  form : AttributeForm
deriving DecidableEq

/-- Why no grammar can be embedded. -/
inductive EmbedError where
  | noSource
  | severalSources
  | notText
  | noValue
  | malformed (fault : AttributeFault)
  | file (path : Text) (error : FileError)
  | grammar (error : Error)
deriving DecidableEq

namespace EmbedError

/-- The wording of an embedding error. -/
def message : EmbedError → String
  | noSource =>
      "no grammar source provided, expected `grammar_inline` or `grammar_file`"
  | severalSources => "at most one grammar source can be provided"
  | notText => "grammar source must be a string literal"
  | noValue => "grammar source must be written as `name = \x22value\x22`"
  | malformed fault => "syn error: " ++ fault.message
  | file path error =>
      "read grammar file: " ++ String.ofList path ++ ", " ++ error.message
  | grammar error => "invalid grammar: " ++ error.message

end EmbedError

namespace Attribute

/-- The name of the attribute that holds grammar text. -/
def inlineName : Text := "grammar_inline".toList

/-- The name of the attribute that holds the path of a grammar file. -/
def fileName : Text := "grammar_file".toList

/-- The attribute names a grammar. -/
def isSource (given : Attribute) : Bool :=
  given.name = inlineName || given.name = fileName

/-- The text of an attribute's literal. -/
def value (given : Attribute) : Except EmbedError Text :=
  match given.form with
  | .text value => .ok value
  | .otherLiteral => .error .notText
  | .word name =>
      .error (if (Piece.word name).isLiteral then .notText else .malformed ⟨.literal, false⟩)
  | .missing => .error (.malformed ⟨.literal, true⟩)
  | .list arguments =>
      match AttributeList.check arguments with
      | .ok _ => .error .noValue
      | .error fault => .error (.malformed fault)
  | .bare => .error .noValue

/-- The only attribute that names a grammar. -/
def source (attributes : List Attribute) : Except EmbedError Attribute :=
  match attributes.filter isSource with
  | [] => .error .noSource
  | [given] => .ok given
  | _ => .error .severalSources

end Attribute

/-- The files and the root directory from which a path is taken. -/
structure Surroundings where
  files : Files
  root : Option Text

namespace Surroundings

/-- The root directory, or the working directory without one. -/
def rootPath (surroundings : Surroundings) : Text :=
  surroundings.root.getD ['.']

/-- The grammar text that an attribute stands for. -/
def sourceText (surroundings : Surroundings) (given : Attribute) :
    Except EmbedError Text := do
  let value ← given.value
  if given.name = Attribute.fileName then
    let path := Files.joinPath surroundings.rootPath value
    (surroundings.files.read path).mapError (EmbedError.file path)
  else
    return value

/-- The grammar that attributes name. -/
def grammar (surroundings : Surroundings) (attributes : List Attribute) :
    Except EmbedError Grammar := do
  let given ← Attribute.source attributes
  let text ← surroundings.sourceText given
  (Grammar.read text).mapError EmbedError.grammar

end Surroundings
end PhraseStructure
