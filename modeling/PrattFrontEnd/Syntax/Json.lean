import PrattFrontEnd.Syntax.Slots

/-!
Records as JSON in ASCII, two spaces of indentation a level. A record that nests deeper than there is
room for has no JSON form.
-/
namespace PrattFrontEnd

namespace Json

def unitEscape (n : Nat) : List Char := '\\' :: 'u' :: Text.hex 4 n

/-- One character as it stands inside a JSON string. Characters beyond sixteen bits become two
surrogates. -/
def escapedChar (c : Char) : List Char :=
  if c = '"' || c = '\\' then ['\\', c]
  else if c = '\n' then ['\\', 'n']
  else if c = '\r' then ['\\', 'r']
  else if c = '\t' then ['\\', 't']
  else if c.toNat = 8 then ['\\', 'b']
  else if c.toNat = 12 then ['\\', 'f']
  else if 32 ≤ c.toNat && c.toNat < 127 then [c]
  else if c.toNat < 0x10000 then unitEscape c.toNat
  else
    unitEscape (0xD800 + (c.toNat - 0x10000) / 0x400) ++
      unitEscape (0xDC00 + (c.toNat - 0x10000) % 0x400)

def string (text : String) : String :=
  String.ofList ('"' :: text.toList.flatMap escapedChar ++ ['"'])

def newline (level : Nat) : String := "\n" ++ String.ofList (List.replicate (2 * level) ' ')

def bracketed (opening closing : String) (level : Nat) : List String → String
  | [] => opening ++ closing
  | items =>
    opening ++ newline (level + 1) ++ ("," ++ newline (level + 1)).intercalate items ++
      newline level ++ closing

/-- How deep brackets may nest in what a run on a source writes. That depends on what stands on the
stack by then; a session has a little less room. -/
def commandRoom : Nat := 992

def sessionRoom : Nat := 991

inductive Fault where
  | tooDeep
  deriving DecidableEq, Repr

def Fault.message : Fault → String
  | tooDeep => "program nests too deeply to serialise as JSON"

end Json

mutual

def Record.json (level : Nat) : Record → String
  | .text value => Json.string value
  | .number value => toString value
  | .truth value => if value then "true" else "false"
  | .absent => "null"
  | .list items => Json.bracketed "[" "]" level (Record.jsonItems (level + 1) items)
  | .record kind fields =>
    Json.bracketed "\x7b" "\x7d" level
      (("\"kind\": " ++ Json.string kind) :: Record.jsonMembers (level + 1) fields)
termination_by structural r => r

def Record.jsonItems (level : Nat) : List Record → List String
  | [] => []
  | r :: rs => r.json level :: Record.jsonItems level rs
termination_by structural rs => rs

def Record.jsonMembers (level : Nat) : List (String × Record) → List String
  | [] => []
  | (name, r) :: fields =>
    (Json.string name ++ ": " ++ r.json level) :: Record.jsonMembers level fields
termination_by structural fields => fields

end

mutual

/-- How deep the brackets of a record's JSON nest. -/
def Record.nesting : Record → Nat
  | .list items => Record.nestingItems items + 1
  | .record _ fields => Record.nestingFields fields + 1
  | _ => 0
termination_by structural r => r

def Record.nestingItems : List Record → Nat
  | [] => 0
  | r :: rs => max r.nesting (Record.nestingItems rs)
termination_by structural rs => rs

def Record.nestingFields : List (String × Record) → Nat
  | [] => 0
  | (_, r) :: fields => max r.nesting (Record.nestingFields fields)
termination_by structural fields => fields

end

/-- The JSON text of a record that is not nested deeper than there is room for. -/
def Record.toJsonWithin (room : Nat) (r : Record) : Except Json.Fault String :=
  if r.nesting ≤ room then .ok (r.json 0) else .error .tooDeep

def Record.toJson (r : Record) : Except Json.Fault String := r.toJsonWithin Json.commandRoom

def Program.toJsonWithin (room : Nat) (p : Program) : Except Json.Fault String :=
  p.toRecord.toJsonWithin room

def Program.toJson (p : Program) : Except Json.Fault String := p.toJsonWithin Json.commandRoom

end PrattFrontEnd
