/-!
Layout between tokens: blanks, and comments from `#` to the end of the line.
-/
namespace PrattFrontEnd.Layout

def isBlank (c : Char) : Bool := c = ' ' || c = '\t' || c = '\r' || c = '\n'

/-- Divides a text into the layout it starts with and the rest. The flag tells whether the text
starts inside a comment, which reaches up to a line feed and leaves that to the blanks. -/
def divide : Bool → List Char → List Char × List Char
  | _, [] => ([], [])
  | inComment, c :: cs =>
    if (inComment && c ≠ '\n') || isBlank c || c = '#' then
      let (gap, rest) := divide ((inComment && c ≠ '\n') || c = '#') cs
      (c :: gap, rest)
    else
      ([], c :: cs)

def line (text : List Char) : List Char := text.takeWhile (· ≠ '\n')

theorem divide_hash (inComment : Bool) (cs : List Char) :
    divide inComment ('#' :: cs) = ('#' :: (divide true cs).1, (divide true cs).2) := by
  cases inComment <;> simp [divide]

theorem divide_feed (inComment : Bool) (cs : List Char) :
    divide inComment ('\n' :: cs) = ('\n' :: (divide false cs).1, (divide false cs).2) := by
  cases inComment <;> simp [divide, isBlank]

theorem divide_comment {c : Char} (inside : c ≠ '\n') (cs : List Char) :
    divide true (c :: cs) = (c :: (divide true cs).1, (divide true cs).2) := by
  simp [divide, inside]

theorem divide_blank {c : Char} (blank : isBlank c = true) (cs : List Char) :
    divide false (c :: cs) = (c :: (divide false cs).1, (divide false cs).2) := by
  have hash : c ≠ '#' := by
    rintro rfl
    cases blank
  simp [divide, blank, hash]

theorem divide_bare {c : Char} (bare : isBlank c = false) (noComment : c ≠ '#')
    (cs : List Char) : divide false (c :: cs) = ([], c :: cs) := by
  simp [divide, bare, noComment]

theorem divide_append (inComment : Bool) (text : List Char) :
    (divide inComment text).1 ++ (divide inComment text).2 = text := by
  induction text generalizing inComment with
  | nil => rfl
  | cons c cs ih =>
    unfold divide
    split
    · simp [ih]
    · rfl

theorem divide_rest_length_le (inComment : Bool) (text : List Char) :
    (divide inComment text).2.length ≤ text.length := by
  have whole := congrArg List.length (divide_append inComment text)
  simp only [List.length_append] at whole
  omega

end PrattFrontEnd.Layout
