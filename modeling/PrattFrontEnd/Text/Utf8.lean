import PrattFrontEnd.Text.Quoted

/-!
Reading UTF-8, and line ends. A fault names the bytes that cannot be read: a byte that starts no
character, a character broken off by a wrong byte, or one broken off by the end.
-/
namespace PrattFrontEnd.Text

inductive Utf8Problem where
  | invalidStart | invalidContinuation | unexpectedEnd
  deriving DecidableEq, Repr

def Utf8Problem.message : Utf8Problem → String
  | invalidStart => "invalid start byte"
  | invalidContinuation => "invalid continuation byte"
  | unexpectedEnd => "unexpected end of data"

structure Utf8Fault where
  problem : Utf8Problem
  first : UInt8
  position : Nat
  count : Nat
  deriving DecidableEq, Repr

def Utf8Fault.message (f : Utf8Fault) : String :=
  let span :=
    if f.count = 1 then
      "byte 0x" ++ String.ofList (hex 2 f.first.toNat) ++ " in position " ++ toString f.position
    else
      "bytes in position " ++ toString f.position ++ "-" ++ toString (f.position + f.count - 1)
  "'utf-8' codec can't decode " ++ span ++ ": " ++ f.problem.message

/-- A character of which some bytes have been read: where it starts, its value so far, the range of
the next byte, and how many bytes come after that one. -/
structure PartialChar where
  first : UInt8
  position : Nat
  count : Nat
  value : Nat
  low : UInt8
  high : UInt8
  later : Nat

def leadByte? (b : UInt8) (position : Nat) : Option PartialChar :=
  let lead (bits : UInt8) (low high : UInt8) (later : Nat) : PartialChar :=
    ⟨b, position, 1, (b &&& bits).toNat, low, high, later⟩
  if 0xC2 ≤ b ∧ b ≤ 0xDF then some (lead 0x1F 0x80 0xBF 0)
  else if b = 0xE0 then some (lead 0x0F 0xA0 0xBF 1)
  else if b = 0xED then some (lead 0x0F 0x80 0x9F 1)
  else if 0xE1 ≤ b ∧ b ≤ 0xEF then some (lead 0x0F 0x80 0xBF 1)
  else if b = 0xF0 then some (lead 0x07 0x90 0xBF 2)
  else if b = 0xF4 then some (lead 0x07 0x80 0x8F 2)
  else if 0xF1 ≤ b ∧ b ≤ 0xF3 then some (lead 0x07 0x80 0xBF 2)
  else none

def decodeFrom (position : Nat) : Option PartialChar → List UInt8 → Except Utf8Fault (List Char)
  | none, [] => .ok []
  | some c, [] => .error ⟨.unexpectedEnd, c.first, c.position, c.count⟩
  | none, b :: bytes =>
    if b < 0x80 then
      (decodeFrom (position + 1) none bytes).map (Char.ofNat b.toNat :: ·)
    else match leadByte? b position with
      | none => .error ⟨.invalidStart, b, position, 1⟩
      | some c => decodeFrom (position + 1) (some c) bytes
  | some c, b :: bytes =>
    if c.low ≤ b ∧ b ≤ c.high then
      let value := c.value * 64 + (b &&& 0x3F).toNat
      match c.later with
      | 0 => (decodeFrom (position + 1) none bytes).map (Char.ofNat value :: ·)
      | later + 1 =>
        decodeFrom (position + 1)
          (some { c with count := c.count + 1, value, low := 0x80, high := 0xBF, later }) bytes
    else .error ⟨.invalidContinuation, c.first, c.position, c.count⟩

def decodeUtf8 (bytes : List UInt8) : Except Utf8Fault (List Char) := decodeFrom 0 none bytes

/-- A text with every line end, of whichever convention, as a line feed. -/
def unifyLineEnds : List Char → List Char
  | [] => []
  | '\r' :: '\n' :: rest => '\n' :: unifyLineEnds rest
  | '\r' :: rest => '\n' :: unifyLineEnds rest
  | c :: rest => c :: unifyLineEnds rest

end PrattFrontEnd.Text
