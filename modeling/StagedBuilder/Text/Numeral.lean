/-
This file reads numbers with a sign, a fraction and an exponent, and tells which of
them are too large for a binary number of double precision. Such numbers are never
computed with; what counts is only whether there is a finite one to stand for them.

There are two ways to round. A number can be rounded as a whole, once. It can also
be rounded stepwise: as many digits as fit 64 bits are rounded first, a power of ten
is rounded by itself, and their product is rounded again. Close to the largest
finite number the two do not agree.
-/

import StagedBuilder.Text.Decimal

namespace StagedBuilder

/-- A number as it is written: sign, digits before and after the point, exponent. -/
structure Numeral where
  negative : Bool
  whole : List Char
  fraction : List Char
  /-- The digits of the exponent with its sign, `true` for minus. -/
  exponent : Option (Bool × List Char)
deriving DecidableEq, Inhabited

namespace Numeral

/-! ### Reading -/

/-- Splits off the digits at the front. -/
def digits (characters : List Char) : List Char × List Char :=
  (characters.takeWhile Decimal.isDigit, characters.dropWhile Decimal.isDigit)

/-- The digits after a point, of which there is at least one; none without a point. -/
def fraction? : List Char → Option (List Char × List Char)
  | '.' :: rest =>
    let (found, after) := digits rest
    if found.isEmpty then none else some (found, after)
  | unpointed => some ([], unpointed)

/-- The exponent, if one is written; its digits must not be missing. -/
def exponent? : List Char → Option (Option (Bool × List Char) × List Char)
  | mark :: rest =>
    if mark = 'e' ∨ mark = 'E' then
      let (negative, unsigned) := match rest with
        | '+' :: after => (false, after)
        | '-' :: after => (true, after)
        | unsigned => (false, unsigned)
      let (found, after) := digits unsigned
      if found.isEmpty then none else some (some (negative, found), after)
    else some (none, mark :: rest)
  | [] => some (none, [])

/-- Reads a number. Only a lone zero may begin with a zero. -/
def read? (characters : List Char) : Option (Numeral × List Char) := do
  let (negative, unsigned) := match characters with
    | '-' :: rest => (true, rest)
    | unsigned => (false, unsigned)
  let (whole, afterWhole) := digits unsigned
  if whole.isEmpty ∨ (1 < whole.length ∧ whole.head? = some '0') then none
  else do
    let (fraction, afterFraction) ← fraction? afterWhole
    let (exponent, rest) ← exponent? afterFraction
    return (⟨negative, whole, fraction, exponent⟩, rest)

/-- The power of ten that the exponent stands for. -/
def power (numeral : Numeral) : Int :=
  match numeral.exponent with
  | none => 0
  | some (true, digits) => -(Decimal.valueOf digits : Int)
  | some (false, digits) => (Decimal.valueOf digits : Int)

/-! ### Rounding as a whole -/

/-- The least magnitude that is beyond every finite number of double precision. -/
def infinite : Nat := Nat.pow 2 1024

/-- The least magnitude that rounds to an infinite one: halfway from the largest finite
number to the next that there would be. -/
def roundsToInfinite : Nat := infinite - Nat.pow 2 970

/-- Whether the number itself rounds to an infinite one. -/
def isHuge (numeral : Numeral) : Bool :=
  let significant := (numeral.whole ++ numeral.fraction).dropWhile (· = '0')
  let lowest : Int := numeral.power - numeral.fraction.length
  let highest : Int := lowest + significant.length
  if significant.isEmpty ∨ highest < 300 then false
  else if 400 < highest then true
  else
    let value := Decimal.valueOf significant
    if 0 ≤ lowest then roundsToInfinite ≤ value * Nat.pow 10 lowest.toNat
    else roundsToInfinite * Nat.pow 10 (-lowest).toNat ≤ value

/-! ### Rounding stepwise -/

/-- A natural number rounded to 53 binary digits; halfway it goes to the even neighbour. -/
def rounded (value : Nat) : Nat :=
  let unit := Nat.pow 2 (value.log2 - 52)
  let below := value / unit
  let rest := value % unit
  if unit < 2 * rest ∨ (2 * rest = unit ∧ below % 2 = 1) then (below + 1) * unit
  else below * unit

/-- Takes up digits as long as the number they write fits 64 bits: that number and the digits
that are left. -/
def fitting (value : Nat) : List Char → Nat × List Char
  | [] => (value, [])
  | digit :: rest =>
    let next := value * 10 + Decimal.digitValue digit
    if next < 0x10000000000000000 then fitting next rest else (value, digit :: rest)

/-- The digits that are taken up, as a number, and the power of ten that belongs to it. Digits
of the whole that do not fit count for the power, those of the fraction for nothing. -/
def scaled (numeral : Numeral) : Nat × Int :=
  let (whole, surplus) := fitting 0 numeral.whole
  let (value, unused) := fitting whole numeral.fraction
  (value, surplus.length - (numeral.fraction.length - unused.length : Nat) + numeral.power)

/-- Whether stepwise rounding leads to an infinite number. -/
def isHugeStepwise (numeral : Numeral) : Bool :=
  let (value, power) := numeral.scaled
  if value = 0 ∨ power < 0 then false
  else if 308 < power then true
  else infinite ≤ rounded (rounded value * rounded (Nat.pow 10 power.toNat))

end Numeral

end StagedBuilder
