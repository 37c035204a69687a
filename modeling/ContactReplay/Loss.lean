import ContactReplay.Decimal.Shortest
import ContactReplay.Text.Numeral

/-!
# Link loss

The loss of a link is a percentage in single precision.  A link that loses everything is down, and
any smaller loss means that it is up.  A loss is written with the fewest digits that read back as
the same number: with a point and at least one digit after it while its first digit stands between
the sixth place after the point and the thirteenth place before it, and with an exponent otherwise.
What is not finite has no digits and is written `null`.
-/

namespace ContactReplay

abbrev Loss := Float32

namespace Loss

def up : Loss := 0

/-- The loss of a link that is there and carries nothing. -/
def down : Loss := 100

def isUp (loss : Loss) : Bool := loss < down

/-! ## Writing -/

/-- The number of fractions that share an exponent, which is 2^23. -/
def fractions : Nat := 8388608

/-- The number of exponents, which is 2^8. -/
def exponents : Nat := 256

/-- The magnitude of a finite number other than zero, from the bits of its exponent and fraction. -/
def binary (exponentBits fraction : Nat) : Binary :=
  if exponentBits = 0 then ⟨fraction, -149, false⟩
  else ⟨fractions + fraction, (exponentBits : Int) - 150, fraction = 0 && exponentBits ≠ 1⟩

def decimalText (decimal : Decimal) : String :=
  let digits := Nat.toDigits 10 decimal.digits
  let count : Int := digits.length
  /- The number of digits before the point, negative for zeros after it. -/
  let point : Int := count + decimal.exponent
  if 1 ≤ point ∧ point ≤ 13 then
    if count ≤ point then
      String.ofList (digits ++ List.replicate (point - count).toNat '0') ++ ".0"
    else
      String.ofList (digits.take point.toNat) ++ "." ++ String.ofList (digits.drop point.toNat)
  else if -5 ≤ point ∧ point ≤ 0 then
    "0." ++ String.ofList (List.replicate (-point).toNat '0' ++ digits)
  else
    let fraction := String.ofList (digits.drop 1)
    String.ofList (digits.take 1) ++ (if fraction.isEmpty then "" else "." ++ fraction)
      ++ "e" ++ (if point ≥ 1 then "+" else "") ++ toString (point - 1)

def text (loss : Loss) : String :=
  let bits := loss.toBits.toNat
  let exponentBits := bits / fractions % exponents
  let fraction := bits % fractions
  let magnitude :=
    if exponentBits = 0 ∧ fraction = 0 then "0.0"
    else (((binary exponentBits fraction).shortest 38 84).map decimalText).getD ""
  if exponentBits = 255 then "null"
  else (if bits / (exponents * fractions) = 1 then "-" else "") ++ magnitude

/-! ## Reading -/

/-- The largest exponent of a power of ten in double precision. -/
def largestExponent : Nat := 308

/-- A power of ten in double precision, infinite when there is none. -/
def powerOfTen (exponent : Nat) : Float := Float.ofScientific 1 false (min exponent 309)

/-- A whole number times a power of ten in double precision.  Where no power of ten is large enough
for the division, the number is divided twice. -/
def scale (number : Nat) (exponent : Int) : Float :=
  let significand := Float.ofNat number
  let places := (-exponent).toNat
  if number = 0 then significand
  else if 0 ≤ exponent then significand * powerOfTen exponent.toNat
  else if places ≤ largestExponent then significand / powerOfTen places
  else significand / powerOfTen largestExponent / powerOfTen (places - largestExponent)

/-- The number that a decimal literal writes: an optional sign, digits, an optional fraction and an
optional exponent.  It is worked out in double precision, the digits as one whole number that is
scaled by a power of ten, and then rounded to single precision. -/
def read? (text : List Char) : Option Loss := do
  let (negative, unsigned) := match text with
    | '-' :: rest => (true, rest)
    | rest => (false, rest)
  let isMark (character : Char) : Bool := character = 'e' || character = 'E'
  let significand := unsigned.takeWhile fun character => !isMark character
  let exponent ← match unsigned.dropWhile (fun character => !isMark character) with
    | [] => some 0
    | _ :: '-' :: digits => (Text.digitsValue? digits).map fun value => -(value : Int)
    | _ :: digits => (Text.natural? digits).map fun value => (value : Int)
  let whole := significand.takeWhile (· ≠ '.')
  let fraction := (significand.dropWhile (· ≠ '.')).drop 1
  let digits ← Text.digitsValue? (whole ++ fraction)
  let power := exponent - fraction.length
  let magnitude := (scale digits power).toFloat32
  return if negative then -magnitude else magnitude

end Loss

end ContactReplay
