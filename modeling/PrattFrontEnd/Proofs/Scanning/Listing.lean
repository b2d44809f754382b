import PrattFrontEnd.Listing
import PrattFrontEnd.Proofs.Scanning.Relayout
import PrattFrontEnd.Proofs.Text.Reading

/-!
Listings read back. The places are decimal numbers that a colon and a tab end, the name of a kind ends
at a tab, and a quoted text never breaks its line. Main statement: `listing_is_faithful`.
-/
namespace PrattFrontEnd

section Kinds

theorem Kind.name_injective {k l : Kind} (known : k ∈ native) (knownToo : l ∈ native)
    (same : k.name = l.name) : k = l := by
  rw [← ofName_name known, same, ofName_name knownToo]

theorem Kind.name_in_column {k : Kind} (known : k ∈ native) :
    ∀ c ∈ k.name.toList, (c ≠ '\t' && c ≠ '\n') = true := by
  have names : ∀ k ∈ native, k.name.toList.all (fun c => c ≠ '\t' && c ≠ '\n') = true := by
    decide
  exact List.all_eq_true.1 (names k known)

theorem Lexeme.Fits.native {l : Lexeme} {before rest : List Char} (fits : l.Fits before rest) :
    l.kind ∈ Kind.native := by
  obtain ⟨k, value⟩ := l
  cases k with
  | other => exact fits.elim
  | _ => exact of_decide_eq_true rfl

theorem Tiles.native {before text : List Char} {ts : List Token} (tiles : Tiles before text ts) :
    ∀ t ∈ ts, t.kind ∈ Kind.native := by
  induction tiles with
  | done => exact List.forall_mem_nil _
  | token _ fits _ ih => exact List.forall_mem_cons.2 ⟨fits.native, ih⟩

theorem tokenize_native (source : String) : ∀ t ∈ tokenize source, t.kind ∈ Kind.native := by
  have apart : Apart [] (Scanner.ofString source).rest :=
    fun _ front => absurd front (Option.not_mem_none _)
  obtain ⟨ts, last, tokens, ended, tiles⟩ := Scanner.tiles _ apart
  rw [tokenize, tokens]
  refine List.forall_mem_append.2 ⟨tiles.native, List.forall_mem_singleton.2 ?_⟩
  rw [ended]
  decide

end Kinds

namespace Token

theorem toList_listed (t : Token) :
    t.listed.toList =
      (toString t.place.line).toList ++ ':' :: ((toString t.place.column).toList ++
        '\t' :: (t.kind.name.toList ++ '\t' :: (Text.quoted t.text).toList)) := by
  simp [listed]

variable {t u : Token}

theorem listed_injective (known : t.kind ∈ Kind.native) (knownToo : u.kind ∈ Kind.native)
    (same : t.listed = u.listed) : t = u := by
  rw [← String.toList_inj, toList_listed, toList_listed] at same
  obtain ⟨lines, same⟩ := Text.decimal_reads (Text.head_stops rfl _) (Text.head_stops rfl _) same
  obtain ⟨columns, same⟩ :=
    Text.decimal_reads (Text.head_stops rfl _) (Text.head_stops rfl _) (List.cons.inj same).2
  obtain ⟨names, same⟩ :=
    Text.run_unique (Kind.name_in_column known) (Kind.name_in_column knownToo)
      (Text.head_stops rfl _) (Text.head_stops rfl _) (List.cons.inj same).2
  have kinds := Kind.name_injective known knownToo (String.toList_inj.1 names)
  have texts := Text.quoted_injective (String.toList_inj.1 (List.cons.inj same).2)
  obtain ⟨k, text, place⟩ := t
  obtain ⟨l, other, line, column⟩ := u
  subst kinds texts lines columns
  rfl

theorem newline_not_mem_listed (known : t.kind ∈ Kind.native) : '\n' ∉ t.listed.toList := by
  have numbers (n : Int) : '\n' ∉ (toString n).toList :=
    fun inside => absurd (Text.decimal_toString n _ inside) (by decide)
  have name : '\n' ∉ t.kind.name.toList :=
    fun inside => absurd (Kind.name_in_column known _ inside) (by decide)
  rw [toList_listed]
  simp only [List.mem_append, List.mem_cons, not_or]
  exact ⟨numbers _, by decide, numbers _, by decide, name, by decide,
    Text.newline_not_mem_quoted t.text⟩

theorem map_listed_injective {ts us : List Token} (known : ∀ t ∈ ts, t.kind ∈ Kind.native)
    (knownToo : ∀ u ∈ us, u.kind ∈ Kind.native) (same : ts.map listed = us.map listed) :
    ts = us := by
  induction ts generalizing us with
  | nil => exact (List.map_eq_nil_iff.1 same.symm).symm
  | cons t ts ih =>
    cases us with
    | nil => cases same
    | cons u us =>
      rw [List.forall_mem_cons] at known knownToo
      obtain ⟨first, others⟩ := List.cons.inj same
      rw [listed_injective known.1 knownToo.1 first, ih known.2 knownToo.2 others]

end Token

theorem lines_of_listing (source : String) :
    (listing source).toList.splitOn '\n' = (tokenize source).map (·.listed.toList) := by
  rw [listing, String.toList_intercalate, List.map_map]
  apply List.splitOn_intercalate
  · intro line member
    obtain ⟨t, token, rfl⟩ := List.mem_map.1 member
    exact Token.newline_not_mem_listed (tokenize_native source t token)
  · exact fun none => Scanner.tokens_ne_nil _ (List.map_eq_nil_iff.1 none)

/-- A listing has one line for each token, in their order, and shows all there is to the tokens: their
kinds, texts and places. -/
theorem listing_is_faithful (source other : String) :
    (listing source).toList.splitOn '\n' = (tokenize source).map (·.listed.toList) ∧
      (listing source = listing other ↔ tokenize source = tokenize other) := by
  refine ⟨lines_of_listing source, fun same => ?_, fun same => by rw [listing, same, listing]⟩
  apply Token.map_listed_injective (tokenize_native source) (tokenize_native other)
  apply List.map_injective_iff.2 fun _ _ => String.toList_inj.1
  rw [List.map_map, List.map_map]
  exact (lines_of_listing source).symm.trans
    ((congrArg (·.toList.splitOn '\n') same).trans (lines_of_listing other))

end PrattFrontEnd
