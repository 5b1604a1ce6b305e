import ReleaseJob.Decimal.Binary

namespace ReleaseJob

/-- `digits * 10 ^ exponent`. -/
structure Decimal where
  digits : Nat
  exponent : Int

namespace Decimal

def ratio (d : Decimal) : Nat × Nat :=
  if d.exponent < 0 then (d.digits, Nat.pow 10 d.exponent.natAbs)
  else (d.digits * Nat.pow 10 d.exponent.natAbs, 1)

/-- The least `k ≤ fuel` for which `num * 10 ^ k` reaches `den`. -/
def leadingZeros (den : Nat) : Nat → Nat → Nat
  | 0, _ => 0
  | fuel + 1, num => if den ≤ num then 0 else 1 + leadingZeros den fuel (num * 10)

/-- The `p` with `10 ^ (p - 1) ≤ num / den < 10 ^ p`. -/
def magnitude (num den : Nat) : Int :=
  if den ≤ num then ((toString (num / den)).length : Int)
  else 1 - (leadingZeros den 400 num : Int)

/-- Whether `x` lies among the decimals that round to `b`; the ends of their interval do if the
mantissa is even. The gap below a power of two is half as wide. -/
def roundsTo (b : Binary) (x : Decimal) : Bool :=
  let (xn, xd) := x.ratio
  let low := if b.mantissa = Nat.pow 2 52 && Binary.leastExponent < b.exponent
    then 4 * b.mantissa - 1 else 4 * b.mantissa - 2
  let (ln, ld) := Binary.ratio ⟨low, b.exponent - 2⟩
  let (hn, hd) := Binary.ratio ⟨4 * b.mantissa + 2, b.exponent - 2⟩
  if b.mantissa % 2 = 0 then ln * xd ≤ xn * ld && xn * hd ≤ hn * xd
  else ln * xd < xn * ld && xn * hd < hn * xd

/-- Tries the two neighbours of `num / den` on the grid of `10 ^ (p - count)`, finer grids after. -/
def search (b : Binary) (num den : Nat) (p : Int) : Nat → Nat → Decimal
  | 0, _ => ⟨0, 0⟩
  | fuel + 1, count =>
    let e := p - count
    let (n, d) := if e < 0 then (num * Nat.pow 10 e.natAbs, den) else (num, den * Nat.pow 10 e.natAbs)
    let below : Decimal := ⟨n / d, e⟩
    let above : Decimal := ⟨n / d + 1, e⟩
    let nearer := if 2 * (n % d) < d then below
      else if d < 2 * (n % d) then above
      else if (n / d) % 2 = 0 then below else above
    let farther := if nearer.digits = below.digits then above else below
    if roundsTo b nearer then nearer
    else if roundsTo b farther then farther
    else search b num den p fuel (count + 1)

/-- Of the decimals that round to the number, those with the fewest digits, and of these the
nearest. -/
def ofBinary (b : Binary) : Decimal :=
  if b.mantissa = 0 then ⟨0, 0⟩
  else
    let (n, d) := b.ratio
    search b n d (magnitude n d) 17 1

/-- Digits around a point, at least one after it. -/
def text (d : Decimal) : String :=
  if d.exponent < 0 then
    let places := d.exponent.natAbs
    let ds := (toString d.digits).toList
    let padded := List.replicate (places + 1 - ds.length) '0' ++ ds
    let whole := padded.length - places
    let fraction := ((padded.drop whole).reverse.dropWhile (· = '0')).reverse
    String.ofList (padded.take whole) ++ "." ++
      (if fraction.isEmpty then "0" else String.ofList fraction)
  else toString (d.digits * Nat.pow 10 d.exponent.natAbs) ++ ".0"

end Decimal

end ReleaseJob
