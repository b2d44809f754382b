import PrattFrontEnd.Cursor
import PrattFrontEnd.Proofs.Scanning.Scans

/-!
The scanner that reads character by character and the one that divides the text at once are one. The
text ahead is a view for proofs only: a cursor that is not before the start of the text sees a rest of
it, and each loop over characters takes off the front of that rest what the list function takes.
Main statements: `Cursor.Sees.nextToken` and `Cursor.Sees.allTokens`.
-/
namespace PrattFrontEnd

namespace Layout

theorem divide_rest_of_line (text : List Char) :
    divide true text = (line text ++ (divide false (text.drop (line text).length)).1,
      (divide false (text.drop (line text).length)).2) := by
  induction text with
  | nil => rfl
  | cons c cs ih =>
    unfold line at ih ⊢
    by_cases feed : c = '\n'
    · rw [feed, divide_feed, List.takeWhile_cons_of_neg (by decide), List.length_nil, List.drop_zero,
        divide_feed]
      rfl
    · have inside : decide (c ≠ '\n') = true := decide_eq_true feed
      rw [divide_comment feed, List.takeWhile_cons, if_pos inside, List.length_cons,
        List.drop_succ_cons, ih]
      rfl

end Layout

namespace Lexeme

theorem readOperator?_take (text : List Char) :
    (readOperator? (text.take 2)).map (·.1) = (readOperator? text).map (·.1) := by
  match text with
  | [] | [_] => rfl
  | c :: d :: rest =>
    simp only [List.take_succ_cons, List.take_zero, readOperator?]
    cases Kind.ofOperator? [c, d] with
    | some kind => rfl
    | none => simp only [Option.map_map, Function.comp_def]

theorem stringBody_plain {c : Char} (plain : c ≠ '\\') (quote : c ≠ '"') (cs : List Char) :
    stringBody (c :: cs) = (stringBody cs).map fun (body, after) => (c :: body, after) := by
  rw [stringBody]
  · exact quote
  · exact fun same => absurd same plain
  · exact fun _ _ same => absurd same plain

end Lexeme

namespace Cursor

def move (c : Cursor) (text : List Char) : Cursor :=
  ⟨c.source, c.position + text.length, c.place.past text⟩

theorem move_nil (c : Cursor) : c.move [] = c := by
  simp [move]

theorem move_append (c : Cursor) (text more : List Char) :
    (c.move text).move more = c.move (text ++ more) := by
  simp only [move, Place.past_append, List.length_append, Int.natCast_add, Int.add_assoc]

/-- The cursor is not before the start, and has a rest of the text ahead. -/
structure Sees (c : Cursor) (text : List Char) : Prop where
  entered : 0 ≤ c.position
  ahead : c.source.drop c.position.toNat = text

namespace Sees

variable {c d : Cursor} {text rest : List Char} {char : Char}

theorem move (sees : c.Sees (text ++ rest)) : (c.move text).Sees rest := by
  obtain ⟨entered, ahead⟩ := sees
  refine ⟨by simp only [Cursor.move]; omega, ?_⟩
  show c.source.drop (c.position + text.length).toNat = rest
  rw [Int.toNat_add entered (Int.natCast_nonneg _), Int.toNat_natCast, ← List.drop_drop, ahead,
    List.drop_left]

theorem past (sees : c.Sees text) {passed : List Char} (whole : text = passed ++ rest) :
    (c.move passed).Sees rest := by
  rw [whole] at sees
  exact sees.move

theorem atEnd (sees : c.Sees text) : c.atEnd = text.isEmpty := by
  obtain ⟨entered, ahead⟩ := sees
  rw [Bool.eq_iff_iff, List.isEmpty_iff, ← ahead, List.drop_eq_nil_iff, Cursor.atEnd,
    decide_eq_true_eq]
  omega

theorem peek (sees : c.Sees text) (n : Nat) : c.peek n = text[n]? := by
  obtain ⟨entered, ahead⟩ := sees
  unfold Cursor.peek
  rw [if_neg (by omega), ← ahead, List.getElem?_drop]
  congr 1
  omega

theorem front (sees : c.Sees text) : c.peek 0 = text.head? := by
  rw [List.head?_eq_getElem?]
  exact sees.peek 0

theorem next (sees : c.Sees (char :: rest)) : c.next = .ok (char, c.move [char]) :=
  next_of_peek sees.front

theorem pass (sees : c.Sees (char :: rest)) : (c.move [char]).Sees rest :=
  @move c [char] rest sees

theorem of_next (sees : c.Sees text) (read : c.next = .ok (char, d)) :
    ∃ rest, text = char :: rest ∧ d = c.move [char] ∧ (c.move [char]).Sees rest := by
  cases text with
  | nil =>
    have ended : c.atEnd = true := sees.atEnd
    rw [Cursor.next, if_pos ended] at read
    cases read
  | cons a rest =>
    rw [sees.next] at read
    cases read
    exact ⟨rest, rfl, rfl, sees.pass⟩

theorem nil_of_ended (sees : c.Sees text) (ended : c.atEnd = true) : text = [] :=
  List.isEmpty_iff.1 (sees.atEnd.symm.trans ended)

theorem cons_of_more (sees : c.Sees text) (more : ¬ c.atEnd = true) : ∃ a rest, text = a :: rest := by
  rw [sees.atEnd, List.isEmpty_iff] at more
  exact List.exists_cons_of_ne_nil more

theorem no_fault (sees : c.Sees text) (more : ¬ c.atEnd = true) (fault : ReadFault) :
    c.next ≠ .error fault := by
  obtain ⟨a, rest, rfl⟩ := sees.cons_of_more more
  rw [sees.next]
  exact nofun

theorem advance (sees : c.Sees (text ++ rest)) : c.advance text.length = .ok (c.move text) := by
  induction text generalizing c with
  | nil =>
    rw [move_nil]
    rfl
  | cons a text ih =>
    rw [List.length_cons, Cursor.advance, sees.next]
    show Cursor.advance text.length (c.move [a]) = _
    rw [ih sees.pass, move_append]
    rfl

theorem readWhile (goes : Option Char → Bool) (sees : c.Sees text) :
    c.readWhile goes = .ok (text.takeWhile (goes ∘ some), c.move (text.takeWhile (goes ∘ some))) := by
  fun_induction Cursor.readWhile goes c generalizing text with
  | case1 c ended => rw [sees.nil_of_ended ended, List.takeWhile_nil, move_nil]
  | case2 c more front fault failed => exact absurd failed (sees.no_fault more fault)
  | case3 c more front char d read ih =>
    obtain ⟨rest, rfl, rfl, further⟩ := sees.of_next read
    have on : (goes ∘ some) char = true := by rwa [sees.front] at front
    rw [ih further, List.takeWhile_cons_of_pos on, move_append]
    rfl
  | case4 c more front =>
    obtain ⟨a, rest, rfl⟩ := sees.cons_of_more more
    have stop : ¬ (goes ∘ some) a = true := by rwa [sees.front] at front
    rw [List.takeWhile_cons_of_neg stop, move_nil]

theorem skipLine (sees : c.Sees text) : c.skipLine = .ok (c.move (Layout.line text)) := by
  have same : ((fun a => decide (a ≠ some '\n')) ∘ some) = fun a : Char => decide (a ≠ '\n') := by
    funext a
    simp
  rw [Cursor.skipLine, sees.readWhile, same]
  rfl

theorem past_line (sees : c.Sees text) :
    (c.move (Layout.line text)).Sees (text.drop (Layout.line text).length) :=
  sees.past (List.prefix_iff_eq_append.1 (List.takeWhile_prefix _)).symm

theorem skipLayout (sees : c.Sees text) :
    c.skipLayout = .ok (c.move (Layout.divide false text).1) := by
  fun_induction Cursor.skipLayout c generalizing text with
  | case1 c ended => rw [sees.nil_of_ended ended, Layout.divide, move_nil]
  | case2 c more blank fault failed => exact absurd failed (sees.no_fault more fault)
  | case3 c more blank char d read ih =>
    obtain ⟨rest, rfl, rfl, further⟩ := sees.of_next read
    rw [sees.front] at blank
    rw [ih further, Layout.divide_blank blank, move_append]
    rfl
  | case4 c more blank hash fault failed =>
    rw [sees.skipLine] at failed
    cases failed
  | case5 c more blank hash d passed ih =>
    obtain ⟨a, rest, rfl⟩ := sees.cons_of_more more
    rw [sees.front] at hash
    cases hash
    rw [sees.skipLine] at passed
    cases passed
    rw [ih sees.past_line, move_append, Layout.divide_hash, Layout.divide_rest_of_line]
    rfl
  | case6 c more blank hash =>
    obtain ⟨a, rest, rfl⟩ := sees.cons_of_more more
    rw [sees.front] at blank hash
    have bare : Layout.isBlank a = false := Bool.not_eq_true _ ▸ blank
    rw [Layout.divide_bare bare fun same => hash (congrArg some same), move_nil]

theorem readInside (sees : c.Sees text) :
    c.readInside = .ok (match Lexeme.stringBody text with
      | some (body, _) => (body, true, c.move (body ++ ['"']))
      | none => (text, false, c.move text)) := by
  fun_induction Cursor.readInside c generalizing text with
  | case1 c ended => rw [sees.nil_of_ended ended, Lexeme.stringBody, move_nil]
  | case2 c more fault failed => exact absurd failed (sees.no_fault more fault)
  | case3 c more char d read slash ended =>
    obtain ⟨rest, rfl, rfl, further⟩ := sees.of_next read
    rw [sees.front] at slash
    cases slash
    rw [further.nil_of_ended ended]
    rfl
  | case4 c more char d read slash inside fault failed =>
    obtain ⟨rest, rfl, rfl, further⟩ := sees.of_next read
    exact absurd failed (further.no_fault inside fault)
  | case5 c more char d read slash inside other e shielded ih =>
    obtain ⟨rest, rfl, rfl, further⟩ := sees.of_next read
    obtain ⟨behind, rfl, rfl, beyond⟩ := further.of_next shielded
    rw [sees.front] at slash
    cases slash
    rw [ih beyond, Lexeme.stringBody, move_append]
    cases Lexeme.stringBody behind <;> simp only [Except.map, Option.map, move_append] <;> rfl
  | case6 c more char d read slash quote =>
    obtain ⟨rest, rfl, rfl, further⟩ := sees.of_next read
    rw [sees.front] at quote
    cases quote
    rfl
  | case7 c more char d read slash quote ih =>
    obtain ⟨rest, rfl, rfl, further⟩ := sees.of_next read
    have plain : char ≠ '\\' := fun same => slash (sees.front.trans (congrArg some same))
    have other : char ≠ '"' := fun same => quote (sees.front.trans (congrArg some same))
    rw [ih further, Lexeme.stringBody_plain plain other]
    cases Lexeme.stringBody rest <;> simp only [Except.map, Option.map, move_append] <;> rfl

theorem readString (sees : c.Sees ('"' :: text)) (place : Place) :
    c.readString place = .ok ((Lexeme.readString text).1.toToken place,
      c.move (Lexeme.readString text).1.covered) := by
  unfold Cursor.readString Lexeme.readString
  rw [sees.next]
  simp only [sees.pass.readInside]
  cases Lexeme.stringBody text <;> simp only [Except.map, move_append] <;> rfl

theorem window (sees : c.Sees text) : c.window = text.take 2 := by
  have second : c.peek 1 = text[1]? := sees.peek 1
  unfold Cursor.window
  rw [sees.front, second]
  match text with
  | [] | [_] | _ :: _ :: _ => rfl

theorem readOperator (sees : c.Sees text) :
    c.readOperator = .ok (match Lexeme.readOperator? text with
      | some (lexeme, _) => (some (lexeme.toToken c.place), c.move lexeme.covered)
      | none => (none, c)) := by
  unfold Cursor.readOperator Cursor.operatorAhead
  rw [sees.window, Lexeme.readOperator?_take]
  cases found : Lexeme.readOperator? text with
  | none => rfl
  | some result =>
    obtain ⟨lexeme, rest⟩ := result
    rw [← Lexeme.readOperator?_append found] at sees
    simp only [Option.map, sees.advance]
    rfl

theorem readToken (sees : c.Sees (char :: rest)) :
    c.readToken = .ok ((Lexeme.read char rest).1.toToken c.place,
      c.move (Lexeme.read char rest).1.covered) := by
  have more : ¬ c.atEnd = true := by
    rw [sees.atEnd]
    exact Bool.false_ne_true
  unfold Cursor.readToken Lexeme.read
  rw [if_neg more]
  simp only [sees.front, List.head?_cons, Option.any_some, Option.some.injEq]
  by_cases word : Lexeme.startsWord char = true
  · have reads := sees.readWhile (·.any Lexeme.continuesWord)
    rw [show ((·.any Lexeme.continuesWord) ∘ some) = Lexeme.continuesWord from rfl,
      List.takeWhile_cons_of_pos (Lexeme.continuesWord_of_startsWord word)] at reads
    rw [if_pos word, if_pos word, reads]
    simp only [Except.map, Lexeme.covered, if_neg (Lexeme.ofWord_ne_string _)]
    rfl
  rw [if_neg word, if_neg word]
  by_cases digit : Text.isDigit char = true
  · have reads := sees.readWhile (·.any Text.isDigit)
    rw [show ((·.any Text.isDigit) ∘ some) = Text.isDigit from rfl,
      List.takeWhile_cons_of_pos digit] at reads
    rw [if_pos digit, if_pos digit, reads]
    rfl
  rw [if_neg digit, if_neg digit]
  by_cases quote : char = '"'
  · subst quote
    rw [if_pos rfl, if_pos rfl, sees.readString]
  rw [if_neg quote, if_neg quote, sees.readOperator]
  cases Lexeme.readOperator? (char :: rest) with
  | some found => rfl
  | none =>
    simp only [sees.next]
    rfl

theorem nextToken (sees : c.Sees text) :
    ∃ passed, c.nextToken = .ok ((⟨text, c.place⟩ : Scanner).next.1, c.move passed) ∧
      text = passed ++ (⟨text, c.place⟩ : Scanner).next.2.rest ∧
      (⟨text, c.place⟩ : Scanner).next.2.place = (c.move passed).place := by
  have whole := Layout.divide_append false text
  unfold Cursor.nextToken Scanner.next
  rw [sees.skipLayout]
  rw [← whole] at sees
  cases behind : (Layout.divide false text).2 with
  | nil =>
    rw [behind] at sees whole
    have ended : (c.move (Layout.divide false text).1).atEnd = true := sees.move.atEnd
    refine ⟨(Layout.divide false text).1, ?_, ?_, ?_⟩
    · simp only [Cursor.readToken, if_pos ended, behind]
      rfl
    · simp only [behind, whole]
    · simp only [behind]
      rfl
  | cons a rest =>
    rw [behind] at sees whole
    refine ⟨(Layout.divide false text).1 ++ (Lexeme.read a rest).1.covered, ?_, ?_, ?_⟩
    · simp only [sees.move.readToken, behind, move_append]
      rfl
    · simp only [behind, List.append_assoc, Lexeme.read_append, whole]
    · simp only [behind, ← move_append]
      rfl

theorem allTokens (sees : c.Sees text) :
    c.allTokens = .ok ((⟨text, c.place⟩ : Scanner).tokens, c.move text) := by
  fun_induction Cursor.allTokens c generalizing text with
  | case1 c fault failed =>
    obtain ⟨_, reads, _⟩ := sees.nextToken
    rw [reads] at failed
    cases failed
  | case2 c t d read ended =>
    obtain ⟨passed, reads, whole, _⟩ := sees.nextToken
    rw [reads] at read
    cases read
    obtain ⟨place, spent⟩ := Scanner.next_of_ended ended
    rw [spent, List.append_nil] at whole
    rw [Scanner.tokens_of_ended ended, whole]
  | case3 c t d read more ih =>
    obtain ⟨passed, reads, whole, place⟩ := sees.nextToken
    rw [reads] at read
    cases read
    rw [ih (sees.past whole), ← place, move_append, ← whole, Scanner.tokens_of_more more]
    rfl

end Sees

end Cursor

end PrattFrontEnd
