import PrattFrontEnd.Syntax.Json
import PrattFrontEnd.Parser.Parse
import PrattFrontEnd.Proofs.Syntax.Structure
import PrattFrontEnd.Proofs.Text.Reading

/-!
JSON read back. A string shows its characters one by one, and the first character of a value tells
which form of plain data it has. Main statements: `Record.json_reads_back` and
`json_identifies_program`.
-/
namespace PrattFrontEnd

namespace Json

open Text

section Strings

def unit? : List Char → Option (Nat × List Char)
  | '\\' :: 'u' :: rest => some (hexNumber (rest.take 4), rest.drop 4)
  | _ => none

theorem unit?_unitEscape {n : Nat} (fits : n < 0x10000) (s : List Char) :
    unit? (unitEscape n ++ s) = some (n, s) := by
  rw [unitEscape, List.cons_append, List.cons_append, unit?, take_hex, drop_hex,
    hexNumber_hex fits]

def shortEscape (c : Char) : Char :=
  match c with
  | 'n' => '\n'
  | 'r' => '\r'
  | 't' => '\t'
  | 'b' => Char.ofNat 8
  | 'f' => Char.ofNat 12
  | c => c

/-- The character at the front of the inside of a string, and what is behind it. A unit that is the
first half of a pair of surrogates waits for the second half. -/
def readChar? (text : List Char) : Option (Char × List Char) :=
  match unit? text, text with
  | some (high, rest), _ =>
    if 0xD800 ≤ high && high < 0xDC00 then
      (unit? rest).map fun (low, rest) =>
        (Char.ofNat (0x10000 + (high - 0xD800) * 0x400 + (low - 0xDC00)), rest)
    else some (Char.ofNat high, rest)
  | none, '\\' :: c :: rest => some (shortEscape c, rest)
  | none, c :: rest => some (c, rest)
  | none, [] => none

theorem readChar?_plain {c : Char} (plain : c ≠ '\\') (s : List Char) :
    readChar? (c :: s) = some (c, s) := by
  have none : unit? (c :: s) = none := by
    unfold unit?
    split <;> simp_all
  unfold readChar?
  rw [none]
  split <;> simp_all

theorem readChar?_unit {c : Char} (fits : c.toNat < 0x10000) (s : List Char) :
    readChar? (unitEscape c.toNat ++ s) = some (c, s) := by
  have whole : (0xD800 ≤ c.toNat && c.toNat < 0xDC00) = false := by
    rcases c.valid with below | ⟨above, _⟩
    · have below : c.toNat < 0xD800 := below
      simp; omega
    · have above : 0xDFFF < c.toNat := above
      simp; omega
  unfold readChar?
  rw [unit?_unitEscape fits]
  simp [whole, Char.ofNat_toNat]

theorem readChar?_pair {c : Char} (beyond : 0x10000 ≤ c.toNat) (s : List Char) :
    readChar? (unitEscape (0xD800 + (c.toNat - 0x10000) / 0x400) ++
      unitEscape (0xDC00 + (c.toNat - 0x10000) % 0x400) ++ s) = some (c, s) := by
  have bound : c.toNat < 0x110000 := by
    rcases c.valid with below | ⟨_, below⟩
    · exact Nat.lt_trans below (by decide)
    · exact below
  obtain ⟨high, first⟩ : ∃ high, 0xD800 + (c.toNat - 0x10000) / 0x400 = high := ⟨_, rfl⟩
  obtain ⟨low, second⟩ : ∃ low, 0xDC00 + (c.toNat - 0x10000) % 0x400 = low := ⟨_, rfl⟩
  have half : 0xD800 ≤ high ∧ high < 0xDC00 := by omega
  have whole : 0x10000 + (high - 0xD800) * 0x400 + (low - 0xDC00) = c.toNat := by omega
  unfold readChar?
  rw [first, second, List.append_assoc, unit?_unitEscape (by omega)]
  simp only [half.1, half.2, decide_true, Bool.and_self, if_true, Option.map_some, whole,
    unit?_unitEscape (n := low) (by omega), Char.ofNat_toNat]

theorem readChar?_escapedChar (c : Char) (s : List Char) :
    readChar? (escapedChar c ++ s) = some (c, s) := by
  have named {n : Nat} (same : c.toNat = n) : Char.ofNat n = c := by
    rw [← same, Char.ofNat_toNat]
  unfold escapedChar
  split
  next special =>
    rw [Bool.or_eq_true, decide_eq_true_eq, decide_eq_true_eq] at special
    rcases special with rfl | rfl <;> rfl
  next ordinary =>
    rw [Bool.or_eq_true, decide_eq_true_eq, decide_eq_true_eq, not_or] at ordinary
    split
    next feed => rw [feed]; rfl
    split
    next feed => rw [feed]; rfl
    split
    next tab => rw [tab]; rfl
    split
    next back => rw [← named back]; rfl
    split
    next feed => rw [← named feed]; rfl
    split
    · exact readChar?_plain ordinary.2 s
    split
    next fits => exact readChar?_unit fits s
    next beyond => exact readChar?_pair (Nat.not_lt.1 beyond) s

theorem escapedChar_apart (c : Char) (s t : List Char) : escapedChar c ++ s ≠ '"' :: t := by
  have escaped (more : List Char) : '\\' :: more ++ s ≠ '"' :: t := by
    intro same
    cases same
  unfold escapedChar
  split
  · exact escaped _
  next ordinary =>
    rw [Bool.or_eq_true, decide_eq_true_eq, decide_eq_true_eq, not_or] at ordinary
    split
    · exact escaped _
    split
    · exact escaped _
    split
    · exact escaped _
    split
    · exact escaped _
    split
    · exact escaped _
    split
    · exact fun same => ordinary.1 (List.cons.inj same).1
    split <;> exact escaped _

theorem string_reads {a b : String} {s t : List Char}
    (same : (string a).toList ++ s = (string b).toList ++ t) : a = b ∧ s = t := by
  have free : PrefixFree escapedChar := .of_reader readChar?_escapedChar
  simp only [string, String.toList_ofList, List.cons_append, List.append_assoc, List.nil_append,
    List.cons.injEq, true_and] at same
  obtain ⟨texts, behind⟩ := free.flatMap escapedChar_apart same
  exact ⟨String.toList_inj.1 texts, behind⟩

end Strings

/-- Texts that do not carry on a number. -/
def Ends (text : List Char) : Prop := ∀ c ∈ text.head?, decimal c = false

section Rows

variable {α : Type} {shown : α → String} {level : Nat}

/-- What is shown at the front of a text can be read there, unless it is a number that is carried
on. -/
def ReadsBack (shown : α → String) (a : α) : Prop :=
  ∀ b s t, Ends s → Ends t → (shown a).toList ++ s = (shown b).toList ++ t → a = b ∧ s = t

def row (shown : α → String) (level : Nat) (a : α) : List Char :=
  ',' :: ((newline level).toList ++ (shown a).toList)

theorem newline_toList (level : Nat) :
    (newline level).toList = '\n' :: List.replicate (2 * level) ' ' := by
  simp [newline]

theorem intercalate_toList (a : α) (as : List α) :
    (("," ++ newline level).intercalate ((a :: as).map shown)).toList =
      (shown a).toList ++ as.flatMap (row shown level) := by
  induction as generalizing a with
  | nil => simp
  | cons b bs ih =>
    rw [List.map_cons, List.map_cons, String.intercalate_cons_cons, ← List.map_cons,
      String.toList_append, ih]
    simp [row]

theorem ends_rows (as : List α) (s : List Char) :
    Ends (as.flatMap (row shown level) ++ '\n' :: s) := by
  cases as with
  | nil => exact head_stops rfl _
  | cons a as => exact head_stops rfl _

theorem rows_read {as bs : List α} (readable : ∀ a ∈ as, ReadsBack shown a) {s t : List Char}
    (same : as.flatMap (row shown level) ++ '\n' :: s = bs.flatMap (row shown level) ++ '\n' :: t) :
    as = bs ∧ s = t := by
  induction as generalizing bs with
  | nil =>
    cases bs with
    | nil => exact ⟨rfl, (List.cons.inj same).2⟩
    | cons b bs => cases same
  | cons a as ih =>
    cases bs with
    | nil => cases same
    | cons b bs =>
      rw [List.forall_mem_cons] at readable
      simp only [List.flatMap_cons, row, List.cons_append, List.append_assoc, List.cons.injEq,
        true_and, List.append_cancel_left_eq] at same
      obtain ⟨first, others⟩ := readable.1 b _ _ (ends_rows as s) (ends_rows bs t) same
      obtain ⟨rest, behind⟩ := ih readable.2 others
      exact ⟨by rw [first, rest], behind⟩

theorem bare_toList (opening closing : String) :
    (bracketed opening closing level ([].map shown)).toList = opening.toList ++ closing.toList :=
  String.toList_append

theorem bracketed_toList (opening closing : String) (a : α) (as : List α) :
    (bracketed opening closing level ((a :: as).map shown)).toList =
      opening.toList ++ ((newline (level + 1)).toList ++ ((shown a).toList ++
        (as.flatMap (row shown (level + 1)) ++
          '\n' :: (List.replicate (2 * level) ' ' ++ closing.toList)))) := by
  rw [List.map_cons, bracketed, ← List.map_cons]
  simp only [String.toList_append, intercalate_toList, newline_toList level, List.append_assoc,
    List.cons_append]
  exact List.cons_ne_nil _ _

theorem bracket_apart (s t : List Char) : "]".toList ++ s ≠ '\n' :: t := by
  simp

theorem brace_apart (s t : List Char) : "\x7d".toList ++ s ≠ '\n' :: t := by
  simp

theorem bracketed_reads {opening closing : String}
    (apart : ∀ s t, closing.toList ++ s ≠ '\n' :: t) {as bs : List α}
    (readable : ∀ a ∈ as, ReadsBack shown a) {s t : List Char}
    (same : (bracketed opening closing level (as.map shown)).toList ++ s =
      (bracketed opening closing level (bs.map shown)).toList ++ t) :
    as = bs ∧ s = t := by
  cases as with
  | nil =>
    cases bs with
    | nil => exact ⟨rfl, List.append_cancel_left same⟩
    | cons b bs =>
      simp only [bare_toList, bracketed_toList, newline_toList (level + 1), List.append_assoc,
        List.cons_append, List.append_cancel_left_eq] at same
      exact absurd same (apart _ _)
  | cons a as =>
    cases bs with
    | nil =>
      simp only [bare_toList, bracketed_toList, newline_toList (level + 1), List.append_assoc,
        List.cons_append, List.append_cancel_left_eq] at same
      exact absurd same.symm (apart _ _)
    | cons b bs =>
      rw [List.forall_mem_cons] at readable
      simp only [bracketed_toList, List.append_assoc, List.cons_append,
        List.append_cancel_left_eq] at same
      obtain ⟨first, others⟩ := readable.1 b _ _ (ends_rows as _) (ends_rows bs _) same
      obtain ⟨rest, behind⟩ := rows_read readable.2 others
      exact ⟨by rw [first, rest], by simpa only [List.append_cancel_left_eq] using behind⟩

end Rows

end Json

namespace Record

open Json

theorem jsonItems_eq_map (level : Nat) (rs : List Record) :
    jsonItems level rs = rs.map (json level) := by
  induction rs with
  | nil => rfl
  | cons r rs ih => rw [jsonItems, ih, List.map_cons]

def member (level : Nat) (field : String × Record) : String :=
  Json.string field.1 ++ ": " ++ field.2.json level

theorem jsonMembers_eq_map (level : Nat) (fields : List (String × Record)) :
    jsonMembers level fields = fields.map (member level) := by
  induction fields with
  | nil => rfl
  | cons field fields ih =>
    obtain ⟨name, r⟩ := field
    rw [jsonMembers, ih, List.map_cons, member]

theorem json_record (level : Nat) (kind : String) (fields : List (String × Record)) :
    (record kind fields).json level =
      bracketed "\x7b" "\x7d" level ((("kind", text kind) :: fields).map (member (level + 1))) := by
  have first : "\"kind\": " ++ string kind = member (level + 1) ("kind", text kind) := by
    have name : "\"kind\": " = string "kind" ++ ": " := by decide
    rw [member, json, name]
  rw [json, jsonMembers_eq_map, first, List.map_cons]

def sortOf (c : Char) : Nat :=
  if c = '"' then 0
  else if Text.decimal c then 1
  else if c = 't' || c = 'f' then 2
  else if c = 'n' then 3
  else if c = '\x7b' then 4
  else 5

theorem sortOf_decimal {c : Char} (number : Text.decimal c = true) : sortOf c = 1 := by
  have bare : c ≠ '"' := by
    rintro rfl
    exact absurd number (by decide)
  rw [sortOf, if_neg bare, if_pos number]

theorem sort_of_json (level : Nat) (r : Record) :
    (r.json level).toList.head?.map sortOf = some r.sort := by
  cases r with
  | text value =>
    rw [json, Json.string, String.toList_ofList]
    rfl
  | number value =>
    obtain ⟨c, cs, shown, starts⟩ := Text.toString_starts value
    rw [json, shown, List.head?_cons, Option.map_some, sortOf_decimal starts]
    rfl
  | truth value =>
    rw [json]
    cases value <;> rfl
  | absent =>
    rw [json]
    rfl
  | list items =>
    rw [json, jsonItems_eq_map]
    cases items with
    | nil =>
      rw [bare_toList]
      rfl
    | cons i is =>
      rw [bracketed_toList]
      rfl
  | record kind fields =>
    rw [json_record, bracketed_toList]
    rfl

theorem member_reads_back {level : Nat} {field : String × Record}
    (readable : ReadsBack (json level) field.2) : ReadsBack (member level) field := by
  intro other s t ends endsToo same
  simp only [member, String.toList_append, List.append_assoc] at same
  obtain ⟨names, behind⟩ := string_reads same
  obtain ⟨values, rest⟩ := readable _ s t ends endsToo (List.append_cancel_left behind)
  exact ⟨Prod.ext names values, rest⟩

theorem sort_unique {level : Nat} {a b : Record} {s t : List Char}
    (same : (a.json level).toList ++ s = (b.json level).toList ++ t) : a.sort = b.sort := by
  have front (r : Record) (rest : List Char) :
      ((r.json level).toList ++ rest).head?.map sortOf = some r.sort := by
    have sorted := sort_of_json level r
    cases shown : (r.json level).toList with
    | nil =>
      rw [shown] at sorted
      cases sorted
    | cons c cs => rwa [shown] at sorted
  exact Option.some.inj ((front a s).symm.trans (same ▸ front b t))

theorem truth_reads {level : Nat} {p q : Bool} {s t : List Char}
    (same : ((truth p).json level).toList ++ s = ((truth q).json level).toList ++ t) :
    p = q ∧ s = t := by
  rw [json, json] at same
  cases p <;> cases q
  case false.false | true.true => exact ⟨rfl, List.append_cancel_left same⟩
  case false.true | true.false => simp at same

theorem text_reads_back (level : Nat) (value : String) : ReadsBack (json level) (text value) := by
  intro b s t _ _ same
  have sorts := sort_unique same
  cases b with
  | text other =>
    obtain ⟨values, behind⟩ := string_reads same
    exact ⟨by rw [values], behind⟩
  | _ => cases sorts

theorem induction_on_parts {motive : Record → Prop} (text : ∀ value, motive (text value))
    (number : ∀ value, motive (number value)) (truth : ∀ value, motive (truth value))
    (absent : motive absent) (list : ∀ items, (∀ r ∈ items, motive r) → motive (list items))
    (record : ∀ kind fields, (∀ field ∈ fields, motive field.2) → motive (record kind fields))
    (r : Record) : motive r :=
  @Record.rec motive (fun items => ∀ r ∈ items, motive r)
    (fun fields => ∀ field ∈ fields, motive field.2) (fun field => motive field.2)
    text number truth absent list record
    (List.forall_mem_nil _) (fun _ _ first others => List.forall_mem_cons.2 ⟨first, others⟩)
    (List.forall_mem_nil _) (fun _ _ first others => List.forall_mem_cons.2 ⟨first, others⟩)
    (fun _ _ value => value) r

/-- Every value is read back, with what stands behind it. The induction is on the value, for all
levels of indentation at once. -/
theorem json_reads_back (level : Nat) (a : Record) : ReadsBack (json level) a := by
  induction a using induction_on_parts generalizing level with
  | text value => exact text_reads_back level value
  | number value =>
    intro b s t ends endsToo same
    have sorts := sort_unique same
    cases b with
    | number other =>
      obtain ⟨values, behind⟩ := Text.decimal_reads ends endsToo same
      exact ⟨by rw [values], behind⟩
    | _ => cases sorts
  | truth value =>
    intro b s t _ _ same
    have sorts := sort_unique same
    cases b with
    | truth other =>
      obtain ⟨values, behind⟩ := truth_reads same
      exact ⟨by rw [values], behind⟩
    | _ => cases sorts
  | absent =>
    intro b s t _ _ same
    have sorts := sort_unique same
    cases b with
    | absent => exact ⟨rfl, List.append_cancel_left same⟩
    | _ => cases sorts
  | list items ih =>
    intro b s t _ _ same
    have sorts := sort_unique same
    cases b with
    | list others =>
      rw [json, json, jsonItems_eq_map, jsonItems_eq_map] at same
      obtain ⟨parts, behind⟩ :=
        bracketed_reads bracket_apart (fun r inside => ih r inside (level + 1)) same
      exact ⟨by rw [parts], behind⟩
    | _ => cases sorts
  | record kind fields ih =>
    intro b s t _ _ same
    have sorts := sort_unique same
    have members : ∀ field ∈ ("kind", text kind) :: fields, ReadsBack (member (level + 1)) field :=
      List.forall_mem_cons.2 ⟨member_reads_back (text_reads_back _ kind),
        fun field inside => member_reads_back (ih field inside (level + 1))⟩
    cases b with
    | record other others =>
      rw [json_record, json_record] at same
      obtain ⟨parts, behind⟩ := bracketed_reads brace_apart members same
      obtain ⟨kinds, rest⟩ := List.cons.inj parts
      cases kinds
      exact ⟨by rw [rest], behind⟩
    | _ => cases sorts

theorem json_injective {level : Nat} {a b : Record} (same : a.json level = b.json level) : a = b :=
  (json_reads_back level a b [] [] nofun nofun (by rw [same])).1

theorem json_of_toJson {room : Nat} {r : Record} {text : String}
    (shown : r.toJsonWithin room = .ok text) : r.json 0 = text := by
  unfold toJsonWithin at shown
  split at shown
  · exact Except.ok.inj shown
  · cases shown

end Record

theorem Program.json_eq_iff (p q : Program) :
    p.toRecord.json 0 = q.toRecord.json 0 ↔ p.same q = true := by
  rw [p.same_iff_record q, ← p.record_eq_iff q, ← p.toRecord_eq, ← q.toRecord_eq]
  exact ⟨Record.json_injective, congrArg (Record.json 0)⟩

/-- Two programs that can be written as JSON, in whatever room there was for each of them, have one JSON
text exactly when they are the same. The sources are Unicode text: a lone surrogate is no character. -/
theorem json_identifies_program {source other text otherText : String} {maxDepth otherDepth : Int}
    {room otherRoom : Nat}
    (written : (parse source maxDepth).program.toJsonWithin room = .ok text)
    (writtenToo : (parse other otherDepth).program.toJsonWithin otherRoom = .ok otherText) :
    text = otherText ↔
      (parse source maxDepth).program.same (parse other otherDepth).program = true := by
  rw [← Record.json_of_toJson written, ← Record.json_of_toJson writtenToo]
  exact Program.json_eq_iff _ _

/-- A name beyond ASCII in two layouts. -/
theorem accented_name_has_one_json :
    let shown := "\x7b\n  \"kind\": \"Program\",\n  \"statements\": [\n    \x7b\n" ++
      "      \"kind\": \"ExpressionStatement\",\n      \"expression\": \x7b\n" ++
      "        \"kind\": \"Identifier\",\n        \"value\": \"\\u00e9\"\n" ++
      "      \x7d\n    \x7d\n  ]\n\x7d"
    (parse "é" 3).program.toJson = .ok shown ∧
      (parse "\té ; # e" 100).program.toJson = .ok shown ∧
      (parse "é" 3).program.same (parse "\té ; # e" 100).program = true := by
  intro shown
  have first : (parse "é" 3).program.toJson = .ok shown := by
    rw [Program.toJson, Program.toJsonWithin, Program.toRecord_eq]
    decide +kernel
  have second : (parse "\té ; # e" 100).program.toJson = .ok shown := by
    rw [Program.toJson, Program.toJsonWithin, Program.toRecord_eq]
    decide +kernel
  exact ⟨first, second, (json_identifies_program first second).1 rfl⟩

end PrattFrontEnd
