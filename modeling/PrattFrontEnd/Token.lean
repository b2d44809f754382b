import PrattFrontEnd.Kind

/-!
Tokens and the places they start at.
-/
namespace PrattFrontEnd

structure Place where
  line : Int
  column : Int
  deriving DecidableEq, Repr

namespace Place

def step (p : Place) (c : Char) : Place :=
  if c = '\n' then ⟨p.line + 1, 1⟩ else ⟨p.line, p.column + 1⟩

def past (p : Place) (text : List Char) : Place := text.foldl step p

@[simp] theorem past_nil (p : Place) : p.past [] = p := rfl

@[simp] theorem past_cons (p : Place) (c : Char) (text : List Char) :
    p.past (c :: text) = (p.step c).past text := rfl

theorem past_append (p : Place) (text more : List Char) :
    p.past (text ++ more) = (p.past text).past more := by
  simp [past]

end Place

structure Token where
  kind : Kind
  text : String
  place : Place
  deriving DecidableEq, Repr

namespace Token

def endAt (place : Place) : Token := ⟨.eof, "EOF", place⟩

/-- How a token is shown in messages, without quoting and without its place. -/
def describe (t : Token) : String := "Token(" ++ t.kind.name ++ ", " ++ t.text ++ ")"

end Token

end PrattFrontEnd
