import PrattFrontEnd.Text.Number
import PrattFrontEnd.Text.Space

/-!
Numerals. The strict form is a run of ASCII digits; the lenient form, for values given by a
person, admits white space around it, a sign, single underscores between digits and the decimal
digits of any script. Either is worked out only up to a number of digits.
-/
namespace PrattFrontEnd.Text

/-- The most digits that a numeral may have to be worked out, leading zeros included. -/
def digitLimit : Nat := 4300

structure TooManyDigits where
  count : Nat
  deriving DecidableEq, Repr

def TooManyDigits.message (t : TooManyDigits) : String :=
  "Exceeds the limit (" ++ toString digitLimit ++ " digits) for integer string conversion: " ++
    "value has " ++ toString t.count ++ " digits; " ++
    "use sys.set_int_max_str_digits() to increase the limit"

def tooMany? (count : Nat) : Option TooManyDigits :=
  if digitLimit < count then some ⟨count⟩ else none

def digitsValue (digits : List Char) : Nat :=
  digits.foldl (fun n c => 10 * n + (c.toNat - 48)) 0

def natural? (text : List Char) : Option Nat :=
  if text ≠ [] ∧ text.all Char.isDigit then some (digitsValue text) else none

/-- Digits with single underscores between them, after those that make up a number so far. -/
def groupedDigits (n : Nat) : List Char → Option Nat
  | [] => some n
  | '_' :: c :: rest => if c.isDigit then groupedDigits (10 * n + (c.toNat - 48)) rest else none
  | c :: rest => if c.isDigit then groupedDigits (10 * n + (c.toNat - 48)) rest else none

def unsigned? : List Char → Option Nat
  | [] => none
  | c :: rest => if c.isDigit then groupedDigits 0 (c :: rest) else none

/-- A character of a lenient numeral in ASCII. The last ASCII character and all that is neither
white space nor a decimal digit has no such form. -/
def plainChar? (c : Char) : Option Char :=
  if c.toNat < 127 then some c
  else if isSpace c then some ' '
  else (decimalValue? c).map fun n => Char.ofNat (48 + n)

def countDigits (counted : Nat) : Bool → List Char → Option Nat
  | behindUnderscore, [] => if behindUnderscore then none else some counted
  | behindUnderscore, c :: rest =>
    if c.isDigit then countDigits (counted + 1) false rest
    else if behindUnderscore then none
    else if c = '_' then countDigits counted true rest
    else some counted

def digitCount (text : List Char) : Nat :=
  let plain := (text.takeWhile fun c => (plainChar? c).isSome).filterMap plainChar?
  match plain.dropWhile isAsciiSpace with
  | '+' :: rest | '-' :: rest => (countDigits 0 true rest).getD 0
  | rest => (countDigits 0 true rest).getD 0

def signed? : List Char → Option Int
  | '+' :: rest => (unsigned? rest).map Int.ofNat
  | '-' :: rest => (unsigned? rest).map fun n => -Int.ofNat n
  | text => (unsigned? text).map Int.ofNat

/-- The value of a lenient numeral. -/
def integer? (text : List Char) : Option Int :=
  (text.mapM plainChar?).bind fun plain => signed? (trim isAsciiSpace plain)

end PrattFrontEnd.Text
