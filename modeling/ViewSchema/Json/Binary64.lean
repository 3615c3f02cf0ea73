/-! Finite binary64 numbers as a sign, a mantissa and a power of two, with correctly rounded
operations and the shortest decimal digits that read back. Everything is exact arithmetic on natural
numbers; rounding goes to the nearest number and a tie to the even mantissa. -/

namespace ViewSchema.Json

/-- The finite number `±mantissa · 2 ^ exponent`. Zero has a sign. -/
structure Binary64 where
  negative : Bool
  mantissa : Nat
  exponent : Int
deriving DecidableEq

namespace Binary64

/-- The natural number nearest to `num / den`; of two that are equally near, the even one. -/
def roundRatio (num den : Nat) : Nat :=
  let q := num / den
  let r := num % den
  if 2 * r < den then q else if den < 2 * r then q + 1 else q + q % 2

/-- The ratio `num / den` divided by `2 ^ e`. -/
def dividePower (num den : Nat) (e : Int) : Nat × Nat :=
  if 0 ≤ e then (num, den * Nat.pow 2 e.toNat) else (num * Nat.pow 2 (-e).toNat, den)

/-- The least exponent: below `2 ^ 52` the mantissa loses digits instead. -/
def minExponent : Int := -1074

/-- The greatest exponent of a mantissa below `2 ^ 53`. -/
def maxExponent : Int := 971

/-- The mantissa and exponent nearest to `num / den`, unless that is beyond every finite number. -/
def nearest (num den : Nat) : Option (Nat × Int) :=
  if num = 0 then some (0, 0)
  else
    let guess : Int := (num.log2 : Int) - den.log2 - 52
    let scaled := dividePower num den guess
    let exponent := max minExponent (if scaled.1 < Nat.pow 2 52 * scaled.2 then guess - 1 else guess)
    let (n, d) := dividePower num den exponent
    let mantissa := roundRatio n d
    let (mantissa, exponent) :=
      if mantissa = Nat.pow 2 53 then (Nat.pow 2 52, exponent + 1) else (mantissa, exponent)
    if maxExponent < exponent then none else some (mantissa, exponent)

/-- The product of two magnitudes, rounded once. -/
def product (x y : Nat × Int) : Option (Nat × Int) :=
  let (n, d) := dividePower (x.1 * y.1) 1 (-(x.2 + y.2))
  nearest n d

/-- The quotient of two magnitudes, rounded once. -/
def quotient (x y : Nat × Int) : Option (Nat × Int) :=
  let (n, d) := dividePower x.1 y.1 (-(x.2 - y.2))
  nearest n d

/-- The greatest power of ten that is a finite number. -/
def maxTenPower : Nat := 308

/-- `magnitude · 10 ^ exponent`, rounded after each multiplication or division by a power of ten.
Fails beyond the greatest finite number; a magnitude too small becomes zero. `steps` bounds the
number of whole divisions by the greatest power of ten. -/
def scaleTen (steps : Nat) (magnitude : Nat × Int) (exponent : Int) : Option (Nat × Int) :=
  if exponent.natAbs ≤ maxTenPower then do
    let power ← nearest (Nat.pow 10 exponent.natAbs) 1
    if 0 ≤ exponent then product magnitude power else quotient magnitude power
  else if magnitude.1 = 0 then some magnitude
  else if 0 ≤ exponent then none
  else
    match steps with
    | 0 => some (0, 0)
    | steps + 1 => do
      let power ← nearest (Nat.pow 10 maxTenPower) 1
      scaleTen steps (← quotient magnitude power) (exponent + maxTenPower)

/-- The number written as `±significand · 10 ^ exponent`. -/
def ofDecimal? (negative : Bool) (significand : Nat) (exponent : Int) : Option Binary64 := do
  let (mantissa, power) ← scaleTen (exponent.natAbs / maxTenPower) (← nearest significand 1) exponent
  return ⟨negative, mantissa, power⟩

/-- The number of decimal digits, none for zero. -/
def digitCount (n : Nat) : Nat := if n = 0 then 0 else (Nat.toDigits 10 n).length

/-- The power of ten of the first significant digit of `num / den`. -/
def leadingPower (num den : Nat) : Int :=
  if den ≤ num then (digitCount (num / den) : Int) - 1
  else -(digitCount ((den + num - 1) / num - 1) : Int)

/-- Among the decimals with `precision` digits, the one nearest to the positive magnitude that still
rounds to it. The digits come with the power of ten of the last of them. -/
def digitsAt (magnitude : Nat × Int) (precision : Nat) : Option (Nat × Int) :=
  let (num, den) := dividePower magnitude.1 1 (-magnitude.2)
  let unit : Int := leadingPower num den - precision + 1
  let (n, d) :=
    if 0 ≤ unit then (num, den * Nat.pow 10 unit.toNat) else (num * Nat.pow 10 (-unit).toNat, den)
  let readsBack (digits : Nat) : Bool :=
    (if 0 ≤ unit then nearest (digits * Nat.pow 10 unit.toNat) 1
      else nearest digits (Nat.pow 10 (-unit).toNat)) == nearest num den
  let near := roundRatio n d
  let far := if near = n / d then near + 1 else near - 1
  if readsBack near then some (near, unit) else if readsBack far then some (far, unit) else none

/-- The shortest digits that read back as the positive magnitude; seventeen always do. -/
def shortestDigits (magnitude : Nat × Int) : Nat × Int :=
  ((List.range 17).findSome? fun p => digitsAt magnitude (p + 1)).getD (0, 0)

/-- A magnitude in text. A point is written while the number has at most sixteen digits before it
and at most four zeros behind it; otherwise one digit stands before the point and a power of ten
follows. -/
def renderMagnitude (magnitude : Nat × Int) : String :=
  if magnitude.1 = 0 then "0.0"
  else
    let (digits, unit) := shortestDigits magnitude
    let written := Nat.toDigits 10 digits
    let text := (written.reverse.dropWhile (· == '0')).reverse
    let point : Int := written.length + unit
    let power : Int := point - text.length
    let zeros (n : Int) := List.replicate n.toNat '0'
    .ofList <|
      if 0 ≤ power ∧ point ≤ 16 then text ++ zeros power ++ ['.', '0']
      else if 0 < point ∧ point ≤ 16 then text.take point.toNat ++ '.' :: text.drop point.toNat
      else if -5 < point ∧ point ≤ 0 then '0' :: '.' :: zeros (-point) ++ text
      else
        let tail := if text.length = 1 then [] else '.' :: text.drop 1
        text.take 1 ++ tail ++ 'e' :: (toString (point - 1)).toList

/-- The number in text: the shortest digits that read back. -/
def render (x : Binary64) : String :=
  (if x.negative then "-" else "") ++ renderMagnitude (x.mantissa, x.exponent)

end Binary64

end ViewSchema.Json
