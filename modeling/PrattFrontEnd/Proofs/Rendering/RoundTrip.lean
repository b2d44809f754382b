import PrattFrontEnd.Proofs.Grammar.Acceptance
import PrattFrontEnd.Proofs.Rendering.Rederivation

/-!
A rendering is a source text again. A program that is safe to render comes back the same, without a
diagnostic, when its rendering is parsed. Main statement: `rendering_of_safe_program_reparses`.
-/
namespace PrattFrontEnd

open PrattFrontEnd.Parser

theorem Program.delivers_of_legible (p : Program) (legible : Stmt.AllLegible p.statements) :
    ∃ ts, (Source.ofString p.render).Delivers ts ∧
      ts.map Token.lexeme = Stmt.allLexemes p.statements ∧
      (tokenize p.render).length = ts.length + 1 := by
  obtain ⟨ts, delivers, spelled⟩ := delivers_of_scans (p.scans legible) ⟨1, 1⟩
  obtain ⟨last, all⟩ := tokens_of_delivers delivers
  have listed : tokenize p.render = ts ++ [last] := all
  refine ⟨ts, delivers, spelled, ?_⟩
  rw [listed, List.length_append, List.length_singleton]

theorem parse_of_derivesFrom {source : String} {ts : List Token} {program : Program}
    (delivers : (Source.ofString source).Delivers ts) (derives : program.DerivesFrom ts)
    {maxDepth : Int} (deep : ts.length ≤ maxDepth) :
    (parse source maxDepth).program = program ∧ (parse source maxDepth).diagnostics = [] := by
  obtain ⟨d⟩ := derives
  have short := d.need_add_length_le
  rw [List.length_nil] at short
  apply run_of_derivation d
  · rw [ofString, levels_onSource]
    omega
  · exact ready_onSource _ _
  · exact on_onSource maxDepth delivers
  · rfl

theorem Program.rederives {p : Program} (legible : Stmt.AllLegible p.statements)
    (safe : p.renderingSafe = true) {ts : List Token}
    (spelled : ts.map Token.lexeme = Stmt.allLexemes p.statements) :
    ∃ q : Program, q.DerivesFrom ts ∧ q.same p = true := by
  rw [renderingSafe, every, Bool.and_eq_true] at safe
  obtain ⟨ss, same, derives⟩ := Stmt.returns_list p.statements legible safe.1 safe.2 _ spelled
  have derived := derives [] (fun t front => by cases front)
  rw [List.append_nil] at derived
  refine ⟨⟨ss⟩, derived, ?_⟩
  rw [Program.same_iff_record, ← Stmt.records_eq_map, ← Stmt.records_eq_map]
  exact same

/-- Whatever a source text was parsed into, with diagnostics or without: if that program is safe to
render, its rendering is parsed without a diagnostic and into the same program. -/
theorem rendering_of_safe_program_reparses (source : String) (maxDepth : Int)
    (safe : (parse source maxDepth).program.renderingSafe = true) (cap : Int)
    (deep : (tokenize (parse source maxDepth).program.render).length ≤ cap + 1) :
    (parse (parse source maxDepth).program.render cap).diagnostics = [] ∧
      (parse (parse source maxDepth).program.render cap).program.same
        (parse source maxDepth).program = true := by
  have legible := legible_of_parse source maxDepth
  generalize (parse source maxDepth).program = p at safe deep legible
  obtain ⟨ts, delivers, spelled, length⟩ := p.delivers_of_legible legible
  obtain ⟨q, derives, same⟩ := Program.rederives legible safe spelled
  have room : (ts.length : Int) ≤ cap := by omega
  obtain ⟨built, silent⟩ := parse_of_derivesFrom delivers derives room
  rw [built]
  exact ⟨silent, same⟩

/-- Recovery leaves a condition and a call of this source text, which come back the same. -/
theorem recovered_condition_reparses :
    (parse "if (!a) \x7b let = 1; f(x)[0] \x7d" 100).diagnostics ≠ [] ∧
      (parse (parse "if (!a) \x7b let = 1; f(x)[0] \x7d" 100).program.render 16).diagnostics = [] ∧
      (parse (parse "if (!a) \x7b let = 1; f(x)[0] \x7d" 100).program.render 16).program.same
        (parse "if (!a) \x7b let = 1; f(x)[0] \x7d" 100).program = true := by
  refine ⟨by decide +kernel, ?_⟩
  exact rendering_of_safe_program_reparses "if (!a) \x7b let = 1; f(x)[0] \x7d" 100
    (by decide +kernel) 16 (by decide +kernel)

end PrattFrontEnd
