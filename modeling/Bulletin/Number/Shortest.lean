import Bulletin.Number.Binary64
import Bulletin.Text.Decimal

/-!
# The shortest text of a double

Of all decimals that round to a double, the one with the fewest digits is written, and of those the
one nearest to it. Positional notation is used from 10⁻⁵ up to below 10¹⁶:

    render false 1.5 = "1.5"      render false 1000 = "1000.0"
    render false 2⁶⁴ = "1.8446744073709552e+19"
-/

namespace Bulletin.Binary64

/-- A decimal `digits * 10 ^ exponent`. -/
structure Digits where
  digits : Nat
  exponent : Int
  deriving DecidableEq, Repr, Inhabited

/-- `num / den * 10 ^ k` as a quotient. -/
def tenfold (num den : Nat) (k : Int) : Nat × Nat :=
  if 0 ≤ k then (num * Nat.pow 10 k.toNat, den) else (num, den * Nat.pow 10 (-k).toNat)

/-- The largest `e` with `10 ^ e ≤ num / den`, searched downwards from a value too large. -/
def decimalLog (num den : Nat) : Nat → Int → Int
  | 0, e => e
  | fuel + 1, e =>
    let (n, d) := tenfold num den (-e)
    if d ≤ n then e else decimalLog num den fuel (e - 1)

/-- Whether `digits * 10 ^ exponent` rounds to `x`. Quarters of a unit in the last place are
counted, since below a power of two the doubles are twice as close. -/
def roundsTo (x : Binary64) (c : Digits) : Bool :=
  let low := if x.mantissa = Nat.pow 2 (precision - 1) ∧ minExponent < x.exponent then 1 else 2
  let (n, d) := tenfold c.digits 1 c.exponent
  let (n, d) := scaled n d (2 - x.exponent)
  let below := (4 * x.mantissa - low) * d
  let above := (4 * x.mantissa + 2) * d
  if x.mantissa % 2 = 0 then below ≤ n && n ≤ above else below < n && n < above

/-- The decimal of `count` digits to be written for `x`, if one rounds to it; `log` is the decimal
logarithm of `x`. -/
def candidate? (x : Binary64) (log : Int) (count : Nat) : Option Digits :=
  let exponent := log - (count : Int) + 1
  let (num, den) := x.quotient
  let (n, d) := tenfold num den (-exponent)
  let lower : Digits := ⟨n / d, exponent⟩
  let upper : Digits := ⟨n / d + 1, exponent⟩
  match x.roundsTo lower, x.roundsTo upper with
  | true, true =>
    let r := n % d
    if 2 * r < d || (2 * r == d && n / d % 2 == 0) then some lower else some upper
  | true, false => some lower
  | false, true => some upper
  | false, false => none

/-- The first candidate with `count` digits or more. -/
def search (x : Binary64) (log : Int) : Nat → Nat → Digits
  | 0, _ => ⟨x.mantissa, 0⟩
  | fuel + 1, count =>
    match x.candidate? log count with
    | some c => c
    | none => search x log fuel (count + 1)

/-- The shortest decimal of a double that is not zero. -/
def shortest (x : Binary64) : Digits :=
  let (num, den) := x.quotient
  let log : Int := (Nat.log2 num : Int) - Nat.log2 den
  -- a binary logarithm over 3 or 4 is above the decimal one, by its sign
  let start := if 0 ≤ log then log / 3 + 2 else log / 4 + 2
  search x (decimalLog num den 700 start) 18 1

/-- The digits as text, with a point and an exponent where the format wants them. -/
def layOut (c : Digits) : List Char :=
  let ds := Decimal.digits c.digits
  -- zeros at the end belong to the exponent
  let zeros := (ds.reverse.takeWhile (· == '0')).length
  let ds := ds.take (ds.length - zeros)
  let exponent := c.exponent + zeros
  -- the value is `0.ds * 10 ^ point`
  let point : Int := ds.length + exponent
  if 0 ≤ exponent && point ≤ 16 then
    ds ++ List.replicate exponent.toNat '0' ++ ['.', '0']
  else if 0 < point && point ≤ 16 then
    ds.take point.toNat ++ '.' :: ds.drop point.toNat
  else if -5 < point && point ≤ 0 then
    ['0', '.'] ++ List.replicate (-point).toNat '0' ++ ds
  else
    let mark := if 0 < point then ['e', '+'] else ['e', '-']
    let tail := if ds.length ≤ 1 then [] else '.' :: ds.drop 1
    ds.take 1 ++ tail ++ mark ++ Decimal.digits (point - 1).natAbs

/-- A double as text. -/
def render (negative : Bool) (x : Binary64) : String :=
  let sign := if negative then ['-'] else []
  let body := if x.mantissa = 0 then ['0', '.', '0'] else layOut x.shortest
  String.ofList (sign ++ body)

end Bulletin.Binary64
