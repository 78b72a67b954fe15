/-!
# TOML numbers and moments

Only whether a text spells one is told here.
-/

namespace ScriptGlue.Toml.Quantity

def value (base : Nat) (digits : List Nat) : Nat := digits.foldl (base * · + ·) 0

/-- The digits of a number, which underscores may group. -/
def digits? (base : Nat) (text : List Char) : Option (List Nat) :=
  let groups := text.splitOn '_'
  if groups.any (·.isEmpty) then none
  else groups.flatten.mapM fun c =>
    let digit :=
      if '0' ≤ c ∧ c ≤ '9' then c.toNat - 48
      else if 'a' ≤ c ∧ c ≤ 'z' then c.toNat - 87
      else if 'A' ≤ c ∧ c ≤ 'Z' then c.toNat - 55
      else base
    if digit < base then some digit else none

/-- A number without its sign, and whether the sign is a minus. -/
def unsigned : List Char → List Char × Bool
  | '+' :: rest => (rest, false)
  | '-' :: rest => (rest, true)
  | text => (text, false)

/-- The digits of a decimal integer without its sign. It has no zero in front. -/
def decimal? (text : List Char) : Option (List Nat) :=
  if text.head? = some '0' ∧ text.length ≠ 1 then none else digits? 10 text

def isInteger (text : List Char) : Bool :=
  let fits (base : Nat) (text : List Char) :=
    match digits? base text with
    | some ds => value base ds < Nat.pow 2 63
    | none => false
  match text with
  | '0' :: 'x' :: rest => fits 16 rest
  | '0' :: 'o' :: rest => fits 8 rest
  | '0' :: 'b' :: rest => fits 2 rest
  | _ =>
    let (rest, negative) := unsigned text
    match decimal? rest with
    | some ds => if negative then value 10 ds ≤ Nat.pow 2 63 else value 10 ds < Nat.pow 2 63
    | none => false

/-- Whether some digits times `10 ^ exponent` are beyond the reals of 64 bits: at least as near to
`2 ^ 1024` as to the largest of them, `2 ^ 1024 - 2 ^ 971`. The bound is a whole number of 309 digits,
so of a number with as many only these count. -/
def isBeyondReals (digits : List Nat) (exponent : Int) : Bool :=
  let digits := digits.dropWhile (· = 0)
  let size := digits.length + exponent
  let whole := digits.take 309
  !digits.isEmpty && (309 < size
    || size = 309 && Nat.pow 2 1024 - Nat.pow 2 970 ≤ value 10 whole * Nat.pow 10 (309 - whole.length))

/-- Whether a text is a number with a fraction or an exponent, or no number. A number may be too far
below zero to be told from minus infinity, but not too far above. -/
def isReal (text : List Char) : Bool :=
  let (rest, negative) := unsigned text
  if rest = "inf".toList ∨ rest = "nan".toList then true
  else
    let isMark (c : Char) : Bool := c == 'e' || c == 'E'
    let mantissa := rest.takeWhile (!isMark ·)
    let whole := mantissa.takeWhile (· != '.')
    let fraction := mantissa.dropWhile (· != '.')
    let power := rest.dropWhile (!isMark ·)
    let (shift, down) := unsigned (power.drop 1)
    let places? := if fraction.isEmpty then some [] else digits? 10 (fraction.drop 1)
    let shift? := if power.isEmpty then some [] else digits? 10 shift
    match decimal? whole, places?, shift? with
    | some ds, some places, some shift =>
      let shift : Int := if down then -(value 10 shift) else value 10 shift
      !(fraction.isEmpty && power.isEmpty)
        && (negative || !isBeyondReals (ds ++ places) (shift - places.length))
    | _, _, _ => false

/-- The number that exactly these digits make. -/
def fixed? (count : Nat) (text : List Char) : Option Nat :=
  if text.length = count ∧ text.all (·.isDigit) then (digits? 10 text).map (value 10) else none

def days (year month : Nat) : Nat :=
  if month = 2 then
    if year % 4 = 0 ∧ (year % 100 ≠ 0 ∨ year % 400 = 0) then 29 else 28
  else if month = 4 ∨ month = 6 ∨ month = 9 ∨ month = 11 then 30
  else 31

def isDate (text : List Char) : Bool :=
  match text.splitOn '-' with
  | [year, month, day] =>
    match fixed? 4 year, fixed? 2 month, fixed? 2 day with
    | some y, some m, some d => 1 ≤ m && m ≤ 12 && 1 ≤ d && d ≤ days y m
    | _, _, _ => false
  | _ => false

def isHourMinute (text : List Char) : Bool :=
  match text.splitOn ':' with
  | [hour, minute] =>
    match fixed? 2 hour, fixed? 2 minute with
    | some h, some m => h ≤ 23 && m ≤ 59
    | _, _ => false
  | _ => false

def isTime (text : List Char) : Bool :=
  let seconds := text.drop 6
  let fraction := seconds.drop 2
  isHourMinute (text.take 5) && text[5]? == some ':'
    && ((fixed? 2 (seconds.take 2)).any (· ≤ 60))
    && (fraction.isEmpty
      || (fraction.head? == some '.' && fraction.length ≠ 1 && (fraction.drop 1).all (·.isDigit)))

/-- Whether a text is a time of day, with or without its distance from universal time. -/
def isZonedTime (text : List Char) : Bool :=
  let isSign (c : Char) : Bool := c == '+' || c == '-'
  let time := text.takeWhile (!isSign ·)
  let distance := (text.dropWhile (!isSign ·)).drop 1
  if text.any isSign then isTime time && isHourMinute distance
  else isTime text || (text.getLast?.any fun c => c == 'Z' || c == 'z') && isTime text.dropLast

/-- Whether a text is a moment: a date, a time of day, or both. -/
def isMoment (text : List Char) : Bool :=
  let separator := text[10]?
  isTime text || isDate text
    || (separator == some 'T' || separator == some 't' || separator == some ' ')
      && isDate (text.take 10) && isZonedTime (text.drop 11)

def isPart (c : Char) : Bool :=
  c.isAlphanum || c == '+' || c == '-' || c == '_' || c == '.' || c == ':'

/-- What of a text can be a number or a moment. A blank can stand between a date and a time. -/
def extent (s : List Char) : List Char :=
  let first := s.takeWhile isPart
  match s.dropWhile isPart with
  | ' ' :: rest =>
    if isDate first ∧ (rest.head?.any (·.isDigit)) then first ++ ' ' :: rest.takeWhile isPart
    else first
  | _ => first

def isQuantity (text : List Char) : Bool := isInteger text || isReal text || isMoment text

end ScriptGlue.Toml.Quantity
