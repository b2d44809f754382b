/-!
Sets of characters written as inclusive ranges of code points, the form in which Unicode publishes its
properties, and white space as the first of them. Three sets of white space occur: the four characters
that separate tokens belong to the scanner, the set here is the wide one of Unicode with the ASCII
separators 0x1C to 0x1F, and numerals admit the ASCII part of it without those separators.
-/
namespace PrattFrontEnd.Text

/-- A set of characters; each pair is the first and the last code point of a range. -/
abbrev Ranges := List (Nat × Nat)

def Ranges.covers (ranges : Ranges) (c : Char) : Bool :=
  ranges.any fun (first, last) => first ≤ c.toNat && c.toNat ≤ last

def isAscii (c : Char) : Bool := c.toNat < 128

def spaceRanges : Ranges :=
  [(0x85, 0x85), (0xA0, 0xA0), (0x1680, 0x1680), (0x2000, 0x200A), (0x2028, 0x2029),
   (0x202F, 0x202F), (0x205F, 0x205F), (0x3000, 0x3000)]

def isAsciiSpace (c : Char) : Bool :=
  c.toNat = 32 || (9 ≤ c.toNat && c.toNat ≤ 13)

def isSpace (c : Char) : Bool :=
  if isAscii c then isAsciiSpace c || (28 ≤ c.toNat && c.toNat ≤ 31) else spaceRanges.covers c

def trim (blank : Char → Bool) (text : List Char) : List Char :=
  ((text.dropWhile blank).reverse.dropWhile blank).reverse

def strip (text : String) : String := String.ofList (trim isSpace text.toList)

end PrattFrontEnd.Text
