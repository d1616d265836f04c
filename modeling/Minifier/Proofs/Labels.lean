import Minifier.Proofs.Bindings
import Minifier.Proofs.Exits
import Minifier.Proofs.SecondPass.Output

/-!
# Labels and the jumps to them

A program resolves its labels if every jump to a label lies in a statement with that label, within the
same function; for a `continue` the label has to stand before a loop. Simplifying keeps this so, though
it drops jumps, moves statements out of their blocks and takes labels away. A label is taken away
only if no jump in its statement names it, and once the program is simplified no such label is left.
-/

namespace Minifier

/-- The jumps to labels that lead out of the body of a function. -/
def Func.exits : Func → List Jump
  | .mk _ _ body => stmtsExits body

/-- Every jump to a label finds it in the function it stands in, or outside of all functions if it
stands there. -/
structure Program.ResolvesLabels (p : Program) : Prop where
  outside : stmtsExits p.body = []
  inside : ∀ fn ∈ stmtsFunctions p.body, fn.exits = []

/-- A label is named by a jump in its statement. -/
def Stmt.LabelIsNamed : Stmt → Prop
  | .label _ name body => .jump (some name) ∈ body.marks
  | _ => True

/-- The trees in which every label is named by a jump. -/
def Check.labelsNamed : Check where
  expr _ := True
  stmt := Stmt.LabelIsNamed
  body _ := True

variable {o : Options}

/-! ## Jumps that find their label -/

/-- Every jump out of a simplified body leads out of the body. -/
theorem exit_of_minifyBody {j : Jump} {body : List Stmt}
    (mem : j ∈ stmtsExits (minifyBody o body).value) : j ∈ stmtsExits body :=
  stmtsExit_of_minify body (exit_of_tighten mem)

theorem stmtsExits_minifyBody_eq_nil {body : List Stmt} (resolved : stmtsExits body = []) :
    stmtsExits (minifyBody o body).value = [] := by
  rw [List.eq_nil_iff_forall_not_mem] at resolved ⊢
  intro j mem
  exact resolved j (exit_of_minifyBody mem)

/-- A function that resolves its labels does so once it is simplified. -/
theorem Func.exits_minify_eq_nil {fn : Func} (resolved : fn.exits = []) :
    (fn.minify o).value.exits = [] := by
  obtain ⟨span, params, body⟩ := fn
  exact stmtsExits_minifyBody_eq_nil resolved

/-- A simplified program resolves its labels if the program does. Each of its functions is a
simplified function of the program. -/
theorem Program.ResolvesLabels.minify {p : Program} (resolved : p.ResolvesLabels) :
    (p.minify o).value.ResolvesLabels where
  outside := stmtsExits_minifyBody_eq_nil resolved.outside
  inside := by
    intro fn mem
    obtain ⟨origin, before, rfl⟩ := exists_origin mem
    exact Func.exits_minify_eq_nil (resolved.inside origin before)

/-! ## Labels that are named -/

/-- A label that no rule takes away is named by a jump. -/
theorem Stmt.IsTidy.labelIsNamed {s : Stmt} (tidy : s.IsTidy o) : s.LabelIsNamed := by
  cases s with
  | label pl name body => exact List.count_pos_iff.mp (Nat.pos_of_ne_zero tidy.2)
  | _ => trivial

theorem Check.tidy_implies_labelsNamed : (Check.tidy o).Implies .labelsNamed where
  expr _ _ := trivial
  stmt _ tidy := tidy.labelIsNamed
  body _ _ := trivial

/-- If every jump to a label of a program finds it, so it is in the simplified program, and all labels
there are named by a jump in their statement. -/
theorem labels_minify (o : Options) (p : Program) (resolved : p.ResolvesLabels) :
    (p.minify o).value.ResolvesLabels ∧ (p.minify o).value.Meets .labelsNamed :=
  ⟨resolved.minify, Program.meets_mono Check.tidy_implies_labelsNamed p.tidy_minify⟩

/-- The case of `a: b: while (x) { continue a; break b }` beside a function with a label `a` of its own.
The jump to `b` is never reached, and the label goes away with it. -/
theorem labels_minify_unreached :
    let here : Place := default
    let loop : Stmt := .label here "a" (.label here "b" (.whileLoop here (.ident here "x")
      (.block here [.continueTo here (some "a"), .breakTo here (some "b")])))
    let fn : Func := .mk default [] [.label here "a" (.block here
      [.ite here (.ident here "y") (.breakTo here (some "a")) none, .expr here (.ident here "z")])]
    let p : Program := ⟨default, [loop, .func here "f" fn]⟩
    let o := Options.all true
    p.ResolvesLabels ∧
      (p.minify o).value.render =
        "a:while(x)continue a;function f()\x7ba:\x7bif(y)break a;z;\x7d\x7d" ∧
      (p.minify o).value.ResolvesLabels ∧ (p.minify o).value.Meets .labelsNamed := by
  intro here loop fn p o
  have resolved : p.ResolvesLabels := by
    refine ⟨by decide, ?_⟩
    intro found mem
    have same : found = fn := by simpa [p, loop, fn, stmtsFunctions, Census.functions] using mem
    rw [same]
    decide
  exact ⟨resolved, by decide +kernel, labels_minify o p resolved⟩

end Minifier
