import PhraseStructure.Fault

/-!
# The number of splits

Without empty groups `n` elements have `C(n - 1, k - 1)` splits into `k` groups,
with empty groups they have `C(n + k - 1, k - 1)`.

The sizes are 64-bit words and the sum `n + k` is formed first, so it can exceed
a word.  The binomial coefficient is a running product, divided after every
factor; each product has to stay below `2 ^ 128`, even if the quotient would.
-/

namespace PhraseStructure
namespace Splits

/-- The first number that is not a 64-bit word. -/
def wordLimit : Nat := Nat.pow 2 64

/-- The first number that a running product may not reach. -/
def productLimit : Nat := Nat.pow 2 128

/-- Multiply a product by `remaining` further factors, counting down from
`n - done`, and divide by `done + 1` and so on upwards. -/
def multiplyFactors (n : Nat) : Nat → Nat → Nat → Option Nat
  | 0, _, product => some product
  | remaining + 1, done, product =>
      if product * (n - done) < productLimit then
        multiplyFactors n remaining (done + 1) (product * (n - done) / (done + 1))
      else
        none

/-- The binomial coefficient, if its running product stays below the limit. -/
def binomial? (n k : Nat) : Option Nat :=
  if n < k then some 0 else multiplyFactors n (min k (n - k)) 0 1

/-- The number of splits of `count` elements into `groups` groups. -/
def count? (count groups : Nat) (allowEmpty : Bool) : Except Fault (Option Nat) :=
  if groups = 0 then
    .ok (some 0)
  else if allowEmpty then
    if count + groups < wordLimit then
      .ok (binomial? (count + groups - 1) (groups - 1))
    else
      .error .addition
  else if count = 0 then
    .ok (some 0)
  else
    .ok (binomial? (count - 1) (groups - 1))

end Splits
end PhraseStructure
