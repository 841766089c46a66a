import PhraseStructure.Embed.Arguments
import PhraseStructure.Script.Meaning

/-!
# Sample grammars

Four grammars written as texts: one context-free, one context-free with ε
productions, one with a start symbol that leads back to itself, and one
context-sensitive.  Each is read from its text and then built from its
construction arguments, as an embedded grammar is.
-/

namespace PhraseStructure

/-- The names of the sample grammars. -/
inductive Sample where
  | anbn
  | numbers
  | cyclic
  | anbncn
deriving DecidableEq

namespace Sample

/-- The words of one or more `a` and as many `b`. -/
def anbnText : Text :=
  "S -> 'a' S 'b' | 'a' 'b' ;".toList

/-- Unsigned decimal numbers, one token per character, with an optional fraction
and an optional signed exponent. -/
def numbersText : Text :=
  ("# Unsigned decimal numbers, one token per character, with an optional\n" ++
    "# fraction and an optional signed exponent.\n" ++
    "\n" ++
    "Number   -> Integer Fraction Scale ;\n" ++
    "Integer  -> Digit | Integer Digit ;\n" ++
    "Fraction -> '.' Integer | Empty ;\n" ++
    "Scale    -> 'e' Sign Integer | Empty ;\n" ++
    "Sign     -> '+' | '-' ;\n" ++
    "Digit    -> '0' | '1' | '2' | '3' | '4'\n" ++
    "          | '5' | '6' | '7' | '8' | '9' ;\n" ++
    "Empty    -> '' ;\n").toList

/-- A start symbol that leads back to itself, directly and through `A`. -/
def cyclicText : Text :=
  "S -> S | A 'a' | 'a' ; A -> S ;".toList

/-- The words of one or more `a`, as many `b` and as many `c`. -/
def anbncnText : Text :=
  ("\n" ++
    "    S -> 'a' S B C | 'a' B C ;\n" ++
    "    C B -> C Z ;\n" ++
    "    C Z -> W Z ;\n" ++
    "    W Z -> W C ;\n" ++
    "    W C -> B C ;\n" ++
    "    'a' B -> 'a' 'b' ;\n" ++
    "    'b' B -> 'b' 'b' ;\n" ++
    "    'b' C -> 'b' 'c' ;\n" ++
    "    'c' C -> 'c' 'c' ;\n").toList

/-- The text of a sample. -/
def text : Sample → Text
  | anbn => anbnText
  | numbers => numbersText
  | cyclic => cyclicText
  | anbncn => anbncnText

/-- The grammar of a sample. -/
def grammar (sample : Sample) : Except Error Grammar := do
  let written ← Grammar.read sample.text
  written.arguments.build

end Sample
end PhraseStructure
