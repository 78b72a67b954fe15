/-!
# Shortest decimals

A binary floating-point number stands for all reals that round to it. Its shortest decimal is the
point of the coarsest decimal grid that lies among them, the nearest one if there are two. All
arithmetic is exact.
-/

namespace ScriptGlue.Decimal

/-- The sizes of a binary interchange format. -/
structure Format where
  fractionBits : Nat
  exponentBits : Nat
deriving Repr, DecidableEq, Inhabited

def single : Format := ⟨23, 8⟩

def double : Format := ⟨52, 11⟩

/-- A finite positive number `mantissa * 2 ^ exponent`. Below it the neighbour is nearer if the
mantissa is the least of its exponent. -/
structure Binary where
  mantissa : Nat
  exponent : Int
  leastMantissa : Bool
deriving Repr, DecidableEq, Inhabited

/-- What a bit pattern stands for, its sign apart. -/
inductive Magnitude
  | notANumber
  | infinite
  | zero
  | finite (value : Binary)
deriving Repr, DecidableEq, Inhabited

def isNegative (f : Format) (bits : Nat) : Bool := bits.testBit (f.fractionBits + f.exponentBits)

def magnitude (f : Format) (bits : Nat) : Magnitude :=
  let fraction := bits % Nat.pow 2 f.fractionBits
  let exponent := bits / Nat.pow 2 f.fractionBits % Nat.pow 2 f.exponentBits
  let bias : Int := Nat.pow 2 (f.exponentBits - 1) - 1 + f.fractionBits
  if exponent = Nat.pow 2 f.exponentBits - 1 then
    if fraction = 0 then .infinite else .notANumber
  else if exponent = 0 then
    if fraction = 0 then .zero else .finite ⟨fraction, 1 - bias, false⟩
  else .finite ⟨Nat.pow 2 f.fractionBits + fraction, exponent - bias, fraction = 0 && exponent ≠ 1⟩

/-- A number and the ends of the reals that round to it, over one denominator. -/
structure Interval where
  low : Nat
  value : Nat
  high : Nat
  denominator : Nat
  /-- Whether the ends themselves round to the number. -/
  closed : Bool
deriving Repr, DecidableEq, Inhabited

/-- The reals that round to a number: up to half of the way to each neighbour, and the ends too if
the mantissa is even. -/
def Binary.interval (b : Binary) : Interval :=
  let numerator := Nat.pow 2 b.exponent.toNat
  let denominator := 4 * Nat.pow 2 (-b.exponent).toNat
  let below := if b.leastMantissa then 1 else 2
  ⟨(4 * b.mantissa - below) * numerator, 4 * b.mantissa * numerator,
    (4 * b.mantissa + 2) * numerator, denominator, b.mantissa % 2 = 0⟩

def Interval.contains (i : Interval) (x : Nat) : Bool :=
  if i.closed then i.low ≤ x && x ≤ i.high else i.low < x && x < i.high

def Interval.scale (i : Interval) (n : Nat) : Interval :=
  let factor := Nat.pow 10 n
  { i with low := i.low * factor, value := i.value * factor, high := i.high * factor }

/-- The grid point next to the value that lies in the interval, on the grid of multiples of
`10 ^ n`; of two the nearer, and the greater if they are equally near. -/
def Interval.gridPoint? (i : Interval) (n : Nat) : Option Nat :=
  let step := i.denominator * Nat.pow 10 n
  let below := i.value / step
  match i.contains (below * step), i.contains ((below + 1) * step) with
  | true, true => if 2 * (i.value % step) < step then some below else some (below + 1)
  | true, false => some below
  | false, true => some (below + 1)
  | false, false => none

def Interval.coarsest (i : Interval) : Nat → Nat × Nat
  | 0 => ((i.gridPoint? 0).getD 0, 0)
  | n + 1 =>
    match i.gridPoint? (n + 1) with
    | some digits => (digits, n + 1)
    | none => i.coarsest n

/-- A decimal `digits * 10 ^ exponent`. -/
structure Numeral where
  digits : Nat
  exponent : Int
deriving Repr, DecidableEq, Inhabited

def finest : Nat := 330

def coarsest : Nat := 310

def Binary.shortest (b : Binary) : Numeral :=
  let (digits, n) := (b.interval.scale finest).coarsest (finest + coarsest)
  ⟨digits, (n : Int) - finest⟩

/-- A decimal without exponent, and without a point if it is whole. -/
def Numeral.positional (d : Numeral) : String :=
  let digits := Nat.toDigits 10 d.digits
  let places := (-d.exponent).toNat
  if places = 0 then String.ofList (digits ++ List.replicate d.exponent.toNat '0')
  else
    let padded := List.replicate (places + 1 - digits.length) '0' ++ digits
    let whole := padded.length - places
    String.ofList (padded.take whole ++ '.' :: padded.drop whole)

/-- The text of a bit pattern: the shortest decimal that reads back. -/
def text (f : Format) (bits : Nat) : String :=
  let sign := if isNegative f bits then "-" else ""
  match magnitude f bits with
  | .notANumber => "NaN"
  | .infinite => sign ++ "inf"
  | .zero => sign ++ "0"
  | .finite b => sign ++ b.shortest.positional

end ScriptGlue.Decimal
