/-!
# Double-precision numbers

A finite double without its sign is a number `mantissa * 2 ^ exponent`. Here it is computed with
in exact integer arithmetic: `nearest` rounds a quotient to the nearest double, a tie going to the
even one, and gives none where the quotient is too large for a double.

    nearest 1 3 = some ⟨6004799503160661, -54⟩
-/

namespace Bulletin

/-- A finite double, its sign apart. -/
structure Binary64 where
  mantissa : Nat
  exponent : Int
  deriving DecidableEq, Repr, Inhabited

namespace Binary64

/-- Doubles have this many binary digits. -/
def precision : Nat := 53

def minExponent : Int := -1074

def maxExponent : Int := 971

def zero : Binary64 := ⟨0, minExponent⟩

/-- `num / den * 2 ^ k` as a quotient. -/
def scaled (num den : Nat) (k : Int) : Nat × Nat :=
  if 0 ≤ k then (num * Nat.pow 2 k.toNat, den) else (num, den * Nat.pow 2 (-k).toNat)

/-- A quotient to the nearest integer, a tie to the even one. -/
def roundEven (num den : Nat) : Nat :=
  let q := num / den
  let r := num % den
  if 2 * r < den then q
  else if den < 2 * r then q + 1
  else if q % 2 = 0 then q
  else q + 1

/-- The double nearest to `num / den`. -/
def nearest (num den : Nat) : Option Binary64 :=
  if num = 0 then some zero
  else
    -- the binary logarithm of the quotient, too small by one at most
    let guess : Int := (Nat.log2 num : Int) - Nat.log2 den - 1
    let (n, d) := scaled num den (-(guess + 1))
    let log := if d ≤ n then guess + 1 else guess
    let exponent := max (log - (precision - 1 : Nat)) minExponent
    let (n, d) := scaled num den (-exponent)
    let m := roundEven n d
    let (m, exponent) := if m = Nat.pow 2 precision then (Nat.pow 2 (precision - 1), exponent + 1)
      else (m, exponent)
    if maxExponent < exponent then none else some ⟨m, exponent⟩

def quotient (x : Binary64) : Nat × Nat := scaled x.mantissa 1 x.exponent

/-- The rounded product of a double and a power of ten, which is itself rounded first. -/
def timesPower (x : Binary64) (e : Nat) : Option Binary64 := do
  let p ← nearest (Nat.pow 10 e) 1
  let (a, b) := x.quotient
  let (c, d) := p.quotient
  nearest (a * c) (b * d)

/-- The rounded quotient of a double and a power of ten, which is itself rounded first. -/
def overPower (x : Binary64) (e : Nat) : Option Binary64 := do
  let p ← nearest (Nat.pow 10 e) 1
  let (a, b) := x.quotient
  let (c, d) := p.quotient
  nearest (a * d) (b * c)

/-- The powers of ten go this far. -/
def maxPower : Nat := 308

/-- The double read for `significand * 10 ^ exponent`: one rounded factor or quotient, several
where the exponent is below all powers of ten. -/
def ofParts (significand : Nat) (exponent : Int) : Option Binary64 := do
  let x ← nearest significand 1
  if 0 ≤ exponent then
    if exponent ≤ maxPower then x.timesPower exponent.toNat
    else if x.mantissa = 0 then some x
    else none
  else
    let e := (-exponent).toNat
    if e ≤ maxPower then x.overPower e
    else
      let y ← x.overPower maxPower
      if e ≤ 2 * maxPower then y.overPower (e - maxPower)
      else
        -- two such quotients leave nothing but what rounds to zero
        (← y.overPower maxPower).overPower (min (e - 2 * maxPower) maxPower)

end Binary64

end Bulletin
