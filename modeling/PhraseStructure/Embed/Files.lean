import PhraseStructure.Text.Blank

/-!
# Reading grammar files

The files below the working directory are given as a list of paths with their
contents; a directory exists when some file lies in it, and the working directory
always does.  A path is followed name by name: one dot stays, two dots go up, and
every name but the last has to be a directory.  What lies outside the working
directory is a directory if it can be reached by going up, and nothing else is
known of it.

A name has at most 255 bytes and a path at most 4095.  The length of a name is
looked at when the name is followed, so a missing directory before it is noticed
first.

A relative path is taken from a root directory.  A file is read as text, so its
bytes have to be UTF-8.
-/

namespace PhraseStructure

/-- Why a file cannot be read. -/
inductive FileError where
  | containsNul
  | nameTooLong
  | notFound
  | notDirectory
  | isDirectory
  | notText
deriving DecidableEq

namespace FileError

/-- The wording of a read failure. -/
def message : FileError → String
  | containsNul => "file name contained an unexpected NUL byte"
  | nameTooLong => "File name too long (os error 36)"
  | notFound => "No such file or directory (os error 2)"
  | notDirectory => "Not a directory (os error 20)"
  | isDirectory => "Is a directory (os error 21)"
  | notText => "stream did not contain valid UTF-8"

end FileError

/-- What a file holds. -/
inductive Content where
  | text (chars : Text)
  | bytes (octets : List UInt8)

namespace Content

/-- The text of a file. -/
def decode : Content → Except FileError Text
  | text chars => .ok chars
  | bytes octets =>
      match String.fromUTF8? ⟨octets.toArray⟩ with
      | some string => .ok string.toList
      | none => .error .notText

end Content

/-- The files below the working directory. -/
abbrev Files := List (Text × Content)

namespace Files

/-- The names of a path, split at every stroke. -/
def names : Text → List Text
  | [] => [[]]
  | c :: rest =>
      if c = '/' then
        [] :: names rest
      else
        match names rest with
        | [] => [[c]]
        | name :: more => (c :: name) :: more

/-- The name says to stay: it is empty or one dot. -/
def isStay (name : Text) : Bool :=
  name.isEmpty || name = ['.']

/-- The names of a file's own path. -/
def location (path : Text) : List Text :=
  (names path).filter fun name => !isStay name

/-- The number of bytes that a text takes up. -/
def byteSize : Text → Nat
  | [] => 0
  | c :: rest => c.utf8Size + byteSize rest

/-- The greatest number of bytes in a name. -/
def nameLimit : Nat := 255

/-- The greatest number of bytes in a path. -/
def pathLimit : Nat := 4095

/-- Where a path leads. -/
inductive Place where
  | outside
  | directory (location : List Text)
  | file (content : Content)

/-- What stands at a location below the working directory. -/
def lookup (files : Files) (here : List Text) : Except FileError Place :=
  match files.find? fun file => location file.1 = here with
  | some file => .ok (.file file.2)
  | none =>
      if files.any fun file => here.isPrefixOf (location file.1) then
        .ok (.directory here)
      else
        .error .notFound

/-- Follow one name of a path. -/
def step (files : Files) (place : Place) (name : Text) : Except FileError Place :=
  match place with
  | .file _ => .error .notDirectory
  | .outside =>
      if isStay name || name = ['.', '.'] then
        .ok .outside
      else if nameLimit < byteSize name then
        .error .nameTooLong
      else
        .error .notFound
  | .directory here =>
      if isStay name then
        .ok (.directory here)
      else if name = ['.', '.'] then
        .ok (if here.isEmpty then .outside else .directory here.dropLast)
      else if nameLimit < byteSize name then
        .error .nameTooLong
      else
        files.lookup (here ++ [name])

/-- Follow a path from the working directory, or from outside it if the path
begins with a stroke. -/
def resolve (files : Files) (path : Text) : Except FileError Place :=
  match path with
  | [] => .error .notFound
  | c :: _ =>
      (names path).foldlM files.step (if c = '/' then .outside else .directory [])

/-- The text of the file at a path. -/
def read (files : Files) (path : Text) : Except FileError Text := do
  if path.contains '\x00' then
    throw .containsNul
  if pathLimit < byteSize path then
    throw .nameTooLong
  match ← files.resolve path with
  | .file content => content.decode
  | _ => throw .isDirectory

/-- A path as seen from a root directory. -/
def joinPath (root path : Text) : Text :=
  if path.head? = some '/' || root.isEmpty then
    path
  else if root.getLast? = some '/' then
    root ++ path
  else
    root ++ ['/'] ++ path

end Files
end PhraseStructure
