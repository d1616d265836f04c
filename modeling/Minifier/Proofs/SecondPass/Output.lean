import Minifier.Proofs.SecondPass.Lists

/-!
# One pass leaves a tidy tree

By induction over the syntax, with one lemma for each rule that builds a node. The `if` statement is
the interesting one: what becomes of it depends on its parts, and it has to stay as it is when it is
looked at again.
-/

namespace Minifier

variable {o : Options}

-- Which of two expressions is shorter is for `tidy_condExpr` to settle: printing both takes long.
attribute [local irreducible] condExpr

/-- A tidy statement that is no block around a single statement, unless it has to be one. -/
def Stmt.IsBare (o : Options) (s : Stmt) : Prop :=
  s.Meets (.tidy o) ∧ s.unbraced = s

/-- What stays as it is in a list stays as it is elsewhere. -/
theorem Stmt.IsListed.isBare {s : Stmt} (listed : s.IsListed o) : s.IsBare o :=
  ⟨listed.1, unbraced_of_unwrapped listed.2⟩

theorem Stmt.isBare_ofExpr {e : Expr} (tidy : e.Meets (.tidy o)) : (Stmt.ofExpr e).IsBare o :=
  ⟨⟨trivial, tidy⟩, rfl⟩

/-- A block with no statement or with several stays a block. -/
theorem unbraced_block {pl : Place} {body : List Stmt} (several : ∀ only, body ≠ [only]) :
    (Stmt.block pl body).unbraced = .block pl body := by
  simp only [Stmt.unbraced, blockStmt]

/-- A block around a tidy list is tidy, and without its braces if they are not needed. -/
theorem isBare_blockStmt {pl : Place} {body : List Stmt} (tidy : bodyMeets (.tidy o) body) :
    (blockStmt pl body).IsBare o := by
  unfold blockStmt
  split
  · next only =>
    split
    · next needed => exact ⟨⟨trivial, tidy⟩, if_pos needed⟩
    · exact ((bodyMeets_iff.mp tidy).1 only List.mem_cons_self).isBare
  · next several => exact ⟨⟨trivial, tidy⟩, unbraced_block several⟩

/-! ## `if` statements -/

/-- A statement that ends in an open `if` is neither a block nor empty. -/
theorem Stmt.unwrapped_of_endsWithOpenIf {s : Stmt} (opens : s.endsWithOpenIf = true) :
    s.unwrapped = [s] := by
  cases s <;> first | rfl | cases opens

/-- Nor is it a declaration. -/
theorem Stmt.isScoped_of_endsWithOpenIf {s : Stmt} (opens : s.endsWithOpenIf = true) :
    s.isScoped = false := by
  cases s <;> first | rfl | cases opens

/-- The first branch gets braces only if a block can go around it, so they come off again. -/
theorem exists_branch_of_ifStmt (span : Span) (test : Expr) {yes : Stmt} (no : Option Stmt)
    (inYes : yes.IsBare o) :
    ∃ branch, ifStmt span test yes no = .ite (.both span) test branch no ∧
      branch.unbraced = yes ∧ branch.Meets (.tidy o) := by
  by_cases braces : (no.isSome && yes.endsWithOpenIf) = true
  · have opens := (Bool.and_eq_true_iff.mp braces).2
    have unscoped : needsBlock [yes] = false := by
      simp [needsBlock, Stmt.isScoped_of_endsWithOpenIf opens]
    refine ⟨.block (.both yes.span) [yes], ?_, ?_, ?_⟩
    · simp only [ifStmt, if_pos braces]
    · simp [Stmt.unbraced, blockStmt, unscoped]
    · exact ⟨trivial, tidy_singleton ⟨inYes.1, Stmt.unwrapped_of_endsWithOpenIf opens⟩⟩
  · exact ⟨yes, by simp only [ifStmt, if_neg braces], inYes.2, inYes.1⟩

/-- An `if` statement is tidy if it is not simplified again. The braces that the `else` makes necessary
do not count. -/
theorem isBare_ifStmt {span : Span} {test : Expr} {yes : Stmt} {no : Option Stmt}
    (inTest : test.Meets (.tidy o)) (inYes : yes.IsBare o) (inNo : ∀ s ∈ no, s.IsBare o)
    (again : simplerIf o span test yes no = ifStmt span test yes no) :
    (ifStmt span test yes no).IsBare o := by
  refine ⟨?_, rfl⟩
  have elseTidy : elseMeets (.tidy o) no := by
    cases no with
    | none => trivial
    | some s => exact (inNo s rfl).1
  obtain ⟨branch, shape, bare, inBranch⟩ := exists_branch_of_ifStmt span test no inYes
  have unchanged : simplerIf o span test branch.unbraced no = .ite (.both span) test branch no := by
    rw [bare, again, shape]
  rw [shape]
  exact ⟨⟨fun s mem => (inNo s mem).2, unchanged⟩, inTest, inBranch, elseTidy⟩

/-- Placing a statement anew leaves it tidy. -/
theorem Stmt.IsBare.respan {s : Stmt} (bare : s.IsBare o) : s.respan.IsBare o := by
  cases s with
  | expr pl e => exact isBare_ofExpr bare.1.2
  | _ => exact bare

section SimplifyIf

variable {span : Span} {test : Expr} {truth : Bool} {yes : Stmt} {no : Option Stmt}

/-- If no function is hoisted, all that is hoisted are declarations of variables. -/
theorem exists_decls_of_no_func {hoisted : List Hoisted}
    (noFunc : hoisted.any Hoisted.isFunc = false) :
    ∃ decls : List VarDecl, hoisted.map Hoisted.toStmt = decls.map fun d => (Hoisted.var d).toStmt := by
  induction hoisted with
  | nil => exact ⟨[], rfl⟩
  | cons h rest ih =>
    rw [List.any_cons, Bool.or_eq_false_iff] at noFunc
    obtain ⟨decls, shape⟩ := ih noFunc.2
    cases h with
    | var d => exact ⟨d :: decls, by rw [List.map_cons, List.map_cons, shape]⟩
    | func span name fn => cases noFunc.1

/-- Hoisted declarations are no blocks, so only what stands behind them is unwrapped. -/
theorem unwrapBlocks_declarations_append (decls : List VarDecl) (live : Option Stmt) :
    unwrapBlocks (decls.map (fun d => (Hoisted.var d).toStmt) ++ live.toList) =
      decls.map (fun d => (Hoisted.var d).toStmt) ++ live.toList.flatMap Stmt.unwrapped := by
  induction decls with
  | nil => rfl
  | cons d rest ih => exact congrArg _ ih

/-- The branch that runs is tidy if both are. -/
theorem isBare_liveBranch (truth : Bool) (inYes : yes.IsBare o) (inNo : ∀ s ∈ no, s.IsBare o) :
    ∀ s ∈ liveBranch truth yes no, s.IsBare o := by
  cases truth with
  | true =>
    rintro s ⟨⟩
    exact inYes
  | false => exact inNo

/-- What an `if` statement with a constant condition comes down to is a tidy list. -/
theorem tidy_unwrapBlocks_ifRemains (inYes : yes.IsBare o) (inNo : ∀ s ∈ no, s.IsBare o)
    (noFunc : (deadHoisted truth yes no).any Hoisted.isFunc = false) :
    bodyMeets (.tidy o) (unwrapBlocks (ifRemains truth yes no)) := by
  obtain ⟨decls, shape⟩ := exists_decls_of_no_func noFunc
  rw [ifRemains, shape, unwrapBlocks_declarations_append]
  refine tidy_declarations_append decls ?_
  have inLive := isBare_liveBranch truth inYes inNo
  cases live : liveBranch truth yes no with
  | none => exact bodyMeets_iff.mpr ⟨by simp, by simp [splitAtJump], fun _ => rfl⟩
  | some s =>
    rw [Option.toList_some, List.flatMap_singleton]
    exact Stmt.tidy_unwrapped (inLive s live).1

/-- What an `if` with a constant condition comes down to is tidy. If it has to stay, it must be as
simple as it can be already. -/
theorem isBare_constantIf (inTest : test.Meets (.tidy o)) (inYes : yes.IsBare o)
    (inNo : ∀ s ∈ no, s.IsBare o)
    (again : (deadHoisted truth yes no).any Hoisted.isFunc = true →
      simplerIf o span test yes no = ifStmt span test yes no) :
    (constantIf o span test truth yes no).value.IsBare o := by
  by_cases noFunc : (deadHoisted truth yes no).any Hoisted.isFunc = false
  · have tidy := tidy_unwrapBlocks_ifRemains inYes inNo noFunc
    unfold constantIf
    simp only [Report.value_bind]
    rw [← deadHoisted, ← liveBranch, noFunc, if_neg Bool.false_ne_true]
    have inLive := isBare_liveBranch truth inYes inNo
    unfold ifRemains at tidy
    generalize deadHoisted truth yes no = hoisted at *
    generalize liveBranch truth yes no = live at *
    split
    · exact inLive _ rfl
    · exact ⟨trivial, rfl⟩
    · split
      · next only shape =>
        rw [shape] at tidy
        exact ((bodyMeets_iff.mp tidy).1 only List.mem_cons_self).isBare
      · next several => exact ⟨⟨trivial, tidy⟩, unbraced_block several⟩
  · rw [value_constantIf_of_func (by simpa using noFunc)]
    exact isBare_ifStmt inTest inYes inNo (again (by simpa using noFunc))

/-- A constant that is written as an expression gives that constant. -/
theorem Constant.constant?_toExpr (c : Constant) (span : Span) : (c.toExpr span).constant? = some c := by
  cases c <;> rfl

theorem Constant.span_toExpr (c : Constant) (span : Span) : (c.toExpr span).span = span := by
  cases c <;> rfl

/-- A condition with an unknown value and something behind `&&` or `||` cannot be folded. -/
theorem tidy_logical {pl : Place} {op : Operator} {right : Expr}
    (logical : op = .logicalAnd ∨ op = .logicalOr) (unknown : test.known? o = none)
    (inTest : test.Meets (.tidy o)) (inRight : right.Meets (.tidy o)) :
    (Expr.binary pl op test right).Meets (.tidy o) := by
  refine ⟨fun _ => ⟨fun _ => ?_, Expr.known?_eq_none_iff.mpr fun folds => ?_⟩, inTest, inRight⟩
  · obtain rfl | rfl := logical <;> simp [Operator.loosened?]
  · simp only [Expr.constant?, Expr.known?_eq_none_iff.mp unknown folds]

theorem Stmt.expr?_respan (s : Stmt) : s.respan.expr? = s.expr? := by
  cases s <;> rfl

/-- Placing a statement anew for a second time does nothing. -/
theorem Stmt.respan_respan (s : Stmt) : s.respan.respan = s.respan := by
  cases s <;> rfl

theorem Stmt.isIdle_respan (s : Stmt) : s.respan.isIdle = s.isIdle := by
  cases s <;> rfl

/-- A simplified `if` is tidy: looked at again, it becomes what it is. -/
theorem isBare_simplifyIf (on : o.conditionals = true) (inTest : test.Meets (.tidy o))
    (inYes : yes.IsBare o) (inNo : ∀ s ∈ no, s.IsBare o) :
    (simplifyIf o span test yes no).value.IsBare o := by
  unfold simplifyIf
  have busy : ∀ s ∈ no.filter (fun s => !s.isIdle), s.isIdle = false ∧ s.IsBare o := by
    intro s mem
    obtain ⟨found, working⟩ := Option.filter_eq_some_iff.mp mem
    exact ⟨by simpa using working, inNo s found⟩
  generalize no.filter (fun s => !s.isIdle) = no at *
  dsimp only
  split
  · next c known =>
    refine isBare_constantIf (Constant.tidy_toExpr _ _) inYes (fun s mem => (busy s mem).2) ?_
    -- The literal in place of the condition is a constant again, and the function is still there.
    intro func
    have folds : o.evaluate = true := by
      unfold Expr.known? at known
      split at known
      · assumption
      · cases known
    have same : (c.toExpr test.span).known? o = some c := by
      rw [Expr.known?, if_pos folds, Constant.constant?_toExpr]
    have unfiltered : no.filter (fun s => !s.isIdle) = no := by
      cases no with
      | none => rfl
      | some s => simp [Option.filter, (busy s rfl).1]
    simp only [simplerIf, if_pos on, simplifyIf, same, unfiltered, Constant.span_toExpr]
    exact value_constantIf_of_func func
  · next unknown =>
    split
    · next a other shape =>
      split
      · next b shape' =>
        obtain ⟨p, rfl⟩ := Stmt.eq_expr_of_expr? shape
        obtain ⟨q, rfl⟩ := Stmt.eq_expr_of_expr? shape'
        exact Stmt.isBare_ofExpr (tidy_condExpr on inTest inYes.1.2 (busy _ rfl).2.1.2)
      · next shape' =>
        refine isBare_ifStmt inTest inYes.respan (fun s mem => (busy s mem).2) ?_
        simp [simplerIf, on, simplifyIf, unknown, Option.filter, (busy other rfl).1, Stmt.expr?_respan,
          Stmt.respan_respan, shape, shape']
    · next a shape =>
      obtain ⟨p, rfl⟩ := Stmt.eq_expr_of_expr? shape
      exact Stmt.isBare_ofExpr (tidy_logical (.inl rfl) unknown inTest inYes.1.2)
    · next other shape =>
      split
      · split
        · next b shape' =>
          obtain ⟨q, rfl⟩ := Stmt.eq_expr_of_expr? shape'
          exact Stmt.isBare_ofExpr (tidy_logical (.inr rfl) unknown inTest (busy _ rfl).2.1.2)
        · next shape' =>
          refine isBare_ifStmt (test.tidy_negate on inTest) (busy other rfl).2 (by simp) ?_
          simp [simplerIf, on, simplifyIf, Expr.known?_negate unknown, shape']
      · next works =>
        refine isBare_ifStmt inTest inYes (by simpa using (busy other rfl).2.respan) ?_
        simp [simplerIf, on, simplifyIf, unknown, Option.filter, Stmt.isIdle_respan, (busy other rfl).1,
          Stmt.respan_respan, shape, works]
    · next shape =>
      refine isBare_ifStmt inTest inYes (by simp) ?_
      simp [simplerIf, on, simplifyIf, unknown, shape]

/-- So it is whether `if` statements are simplified or not. -/
theorem isBare_simplerIf (inTest : test.Meets (.tidy o)) (inYes : yes.IsBare o)
    (inNo : ∀ s ∈ no, s.IsBare o) : (simplerIf o span test yes no).IsBare o := by
  by_cases on : o.conditionals = true
  · rw [simplerIf, if_pos on]
    exact isBare_simplifyIf on inTest inYes inNo
  · have plain : simplerIf o span test yes no = ifStmt span test yes no := if_neg on
    rw [plain]
    exact isBare_ifStmt inTest inYes inNo plain

end SimplifyIf

/-- An `if` is simplified from its simplified parts. -/
theorem value_minify_ite (pl : Place) (test : Expr) (yes : Stmt) (no : Option Stmt) :
    ((Stmt.ite pl test yes no).minify o).value =
      simplerIf o pl.outer (test.minify o).value (yes.minify o).value (minifyElse o no).value := by
  simp only [Stmt.minify, Report.value_bind, simplerIf]
  split <;> rfl

/-- A label that stays is needed, as some jump names it. -/
theorem isBare_labelStmt {pl : Place} {name : String} {body : Stmt} (bare : body.IsBare o) :
    (labelStmt o pl name body).value.IsBare o := by
  rw [value_labelStmt]
  split
  · exact bare
  · next named => exact ⟨⟨⟨bare.2, named⟩, bare.1⟩, rfl⟩

/-! ## All nodes -/

mutual

/-- A simplified expression is tidy. -/
theorem Expr.tidy_minify : (e : Expr) → (e.minify o).value.Meets (.tidy o)
  | .binary _ _ left right => tidy_binaryExpr left.tidy_minify right.tidy_minify
  | .call _ _ callee args => ⟨trivial, callee.tidy_minify, exprs_tidy_minify args⟩
  | .index _ object key => tidy_indexExpr object.tidy_minify key.tidy_minify
  | .cond pl test yes no => by
    simp only [Expr.minify, Report.value_bind, Report.value_pure]
    split
    · next on => exact tidy_condExpr on test.tidy_minify yes.tidy_minify no.tidy_minify
    · exact ⟨rfl, test.tidy_minify, yes.tidy_minify, no.tidy_minify⟩
  | .func _ _ fn => ⟨trivial, fn.tidy_minify⟩
  | .member _ object _ => ⟨trivial, object.tidy_minify⟩
  | .unary _ _ arg => tidy_folded_unary arg.tidy_minify
  | .update _ _ arg => ⟨trivial, arg.tidy_minify⟩
  | .array _ elements => ⟨trivial, elements_tidy_minify elements⟩
  | .object _ members => ⟨trivial, members_tidy_minify members⟩
  | .ident .. | .this .. | .bool .. | .null .. | .num .. | .regex .. | .str .. | .undef .. => trivial

theorem exprs_tidy_minify : (es : List Expr) → exprsMeet (.tidy o) (minifyExprs o es).value
  | [] => trivial
  | e :: rest => ⟨e.tidy_minify, exprs_tidy_minify rest⟩

theorem option_tidy_minify : (e : Option Expr) → optionMeets (.tidy o) (minifyOption o e).value
  | none => trivial
  | some e => e.tidy_minify

theorem elements_tidy_minify :
    (es : List (Option Expr)) → elementsMeet (.tidy o) (minifyElements o es).value
  | [] => trivial
  | e :: rest => ⟨option_tidy_minify e, elements_tidy_minify rest⟩

/-- A simplified function is tidy, as its body is tightened. -/
theorem Func.tidy_minify : (fn : Func) → (fn.minify o).value.Meets (.tidy o)
  | .mk _ _ body => tidy_tighten (stmts_tidy_minify body)

theorem members_tidy_minify : (ms : List Member) → membersMeet (.tidy o) (minifyMembers o ms).value
  | [] => trivial
  | .value _ _ e :: rest => ⟨e.tidy_minify, members_tidy_minify rest⟩
  | .getter _ _ fn :: rest => ⟨fn.tidy_minify, members_tidy_minify rest⟩
  | .setter _ _ fn :: rest => ⟨fn.tidy_minify, members_tidy_minify rest⟩

theorem declarators_tidy_minify :
    (ds : List Declarator) → declaratorsMeet (.tidy o) (minifyDeclarators o ds).value
  | [] => trivial
  | .mk _ init :: rest => ⟨option_tidy_minify init, declarators_tidy_minify rest⟩

theorem VarDecl.tidy_minify : (decl : VarDecl) → (decl.minify o).value.Meets (.tidy o)
  | .mk _ _ declarators => declarators_tidy_minify declarators

theorem LoopHead.tidy_minify : (head : LoopHead) → (head.minify o).value.Meets (.tidy o)
  | .decl decl => decl.tidy_minify
  | .expr e => e.tidy_minify

theorem loopInit_tidy_minify :
    (init : Option LoopHead) → loopInitMeets (.tidy o) (minifyLoopInit o init).value
  | none => trivial
  | some head => head.tidy_minify

theorem branches_tidy_minify :
    (branches : List Branch) → branchesMeet (.tidy o) (minifyBranches o branches).value
  | [] => trivial
  | .mk _ test body :: rest =>
    ⟨option_tidy_minify test, tidy_tighten (stmts_tidy_minify body), branches_tidy_minify rest⟩

theorem Block.tidy_minify : (block : Block) → (block.minify o).value.Meets (.tidy o)
  | .mk _ body => tidy_tighten (stmts_tidy_minify body)

theorem handler_tidy_minify :
    (handler : Option Handler) → handlerMeets (.tidy o) (minifyHandler o handler).value
  | none => trivial
  | some (.mk _ _ body) => tidy_tighten (stmts_tidy_minify body)

theorem final_tidy_minify :
    (final : Option Block) → finalMeets (.tidy o) (minifyFinal o final).value
  | none => trivial
  | some block => block.tidy_minify

/-- A simplified statement is tidy, and it is no block that need not be one. -/
theorem Stmt.isBare_minify : (s : Stmt) → (s.minify o).value.IsBare o
  | .block _ body => isBare_blockStmt (tidy_tighten (stmts_tidy_minify body))
  | .debugger pl => by
    simp only [Stmt.minify, Report.value_pure]
    split
    · exact ⟨trivial, rfl⟩
    · next stays => exact ⟨eq_false_of_ne_true stays, rfl⟩
  | .doWhile _ body test =>
    ⟨⟨body.isBare_minify.2, body.isBare_minify.1, test.tidy_minify⟩, rfl⟩
  | .expr _ e => ⟨⟨trivial, e.tidy_minify⟩, rfl⟩
  | .forIn _ target object body =>
    ⟨⟨body.isBare_minify.2, target.tidy_minify, object.tidy_minify, body.isBare_minify.1⟩, rfl⟩
  | .forLoop _ init test step body =>
    ⟨⟨body.isBare_minify.2, loopInit_tidy_minify init, option_tidy_minify test,
      option_tidy_minify step, body.isBare_minify.1⟩, rfl⟩
  | .func _ _ fn => ⟨⟨trivial, fn.tidy_minify⟩, rfl⟩
  | .ite pl test yes no => by
    rw [value_minify_ite]
    exact isBare_simplerIf test.tidy_minify yes.isBare_minify (else_isBare_minify no)
  | .label _ _ body => isBare_labelStmt body.isBare_minify
  | .ret _ value => ⟨⟨trivial, option_tidy_minify value⟩, rfl⟩
  | .switch _ subject branches =>
    ⟨⟨trivial, subject.tidy_minify, branches_tidy_minify branches⟩, rfl⟩
  | .throw _ value => ⟨⟨trivial, value.tidy_minify⟩, rfl⟩
  | .tryCatch _ body handler final =>
    ⟨⟨trivial, body.tidy_minify, handler_tidy_minify handler, final_tidy_minify final⟩, rfl⟩
  | .var _ decl => ⟨⟨trivial, decl.tidy_minify⟩, rfl⟩
  | .whileLoop _ test body =>
    ⟨⟨body.isBare_minify.2, test.tidy_minify, body.isBare_minify.1⟩, rfl⟩
  | .withObject _ object body =>
    ⟨⟨body.isBare_minify.2, object.tidy_minify, body.isBare_minify.1⟩, rfl⟩
  | .breakTo .. | .continueTo .. | .empty .. => ⟨trivial, rfl⟩

theorem else_isBare_minify :
    (no : Option Stmt) → ∀ s ∈ (minifyElse o no).value, s.IsBare o
  | none => by rintro _ ⟨⟩
  | some s => by
    rintro _ ⟨⟩
    exact s.isBare_minify

/-- Simplified statements are tidy, before the changes to their list. -/
theorem stmts_tidy_minify :
    (body : List Stmt) → ∀ s ∈ (minifyStmts o body).value, s.Meets (.tidy o)
  | [] => by rintro _ ⟨⟩
  | s :: rest => List.forall_mem_cons.mpr ⟨s.isBare_minify.1, stmts_tidy_minify rest⟩

end

/-- A simplified program is tidy. -/
theorem Program.tidy_minify (p : Program) : (p.minify o).value.Meets (.tidy o) :=
  tidy_tighten (stmts_tidy_minify p.body)

end Minifier
