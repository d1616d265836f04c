import Minifier.Proofs.Semantics.Branching
import Minifier.Proofs.Semantics.Jumps

/-!
# Simplified statements do the same

The rules for lists, `if` statements and labels together, through all of a statement. A statement is
simplified without regard to the labels before it. That is right as they matter to a loop only, and
a loop stays one.
-/

namespace Minifier

open Minifier.Action

variable {S V R : Type}

namespace StmtSemantics

variable {sem : StmtSemantics S V R} {o : Options}

/-! ## Parts that are effects -/

section Effects

variable (laws : sem.Lawful) (off : o.comparisons = false)
include laws off

/-- Simplified names of a declaration are declared with the same effects. -/
theorem declareNames_minify (site : Site) (mode : DeclMode) (declarators : List Declarator)
    (free : declaratorsCensus .functions declarators = 0) :
    sem.declareNames site mode (minifyDeclarators o declarators).value =
      sem.declareNames site mode declarators := by
  induction declarators with
  | nil => rfl
  | cons d rest ih =>
    obtain ⟨name, init⟩ := d
    cases init with
    | none =>
      have freeRest : declaratorsCensus .functions rest = 0 := by
        simpa [declaratorsCensus, optionCensus] using free
      simp only [minifyDeclarators, minifyOption, Report.value_bind, Report.value_pure, declareNames,
        ih freeRest]
    | some e =>
      obtain ⟨freeInit, freeRest⟩ : e.functions = 0 ∧ declaratorsCensus .functions rest = 0 := by
        simpa [declaratorsCensus, optionCensus, Expr.functions, add_eq_zero] using free
      simp only [minifyDeclarators, minifyOption, Report.value_bind, Report.value_pure, declareNames,
        ih freeRest, Semantics.value_minified laws.toLawful off e freeInit]

/-- A simplified declaration has the same effects. -/
theorem declareVars_minify (site : Site) (decl : VarDecl) (free : decl.census .functions = 0) :
    sem.declareVars site (decl.minify o).value = sem.declareVars site decl := by
  obtain ⟨span, mode, declarators⟩ := decl
  exact declareNames_minify laws off site mode declarators free

/-- A loop over keys starts in the same way. -/
theorem startKeys_minify (target : LoopHead) (free : target.census .functions = 0) :
    sem.startKeys (target.minify o).value = sem.startKeys target := by
  cases target with
  | decl d => exact declareVars_minify laws off .keys d free
  | expr e => rfl

/-- Each key is stored in the same way. -/
theorem takeKey_minify (target : LoopHead) (free : target.census .functions = 0) (k : V) :
    sem.takeKey k (target.minify o).value = sem.takeKey k target := by
  cases target with
  | decl d =>
    obtain ⟨span, mode, declarators⟩ := d
    exact congrArg (sem.bindKey mode · k) (names_minifyDeclarators declarators)
  | expr e =>
    simp only [LoopHead.minify, Report.value_bind, Report.value_pure, takeKey,
      Semantics.operand_minify laws.toLawful off e free]

/-- A counting loop starts in the same way. -/
theorem start_minify (init : Option LoopHead) (free : loopInitCensus .functions init = 0) :
    sem.start (minifyLoopInit o init).value = sem.start init := by
  cases init with
  | none => rfl
  | some head => cases head with
    | decl d => exact declareVars_minify laws off .loop d free
    | expr e =>
      simp only [minifyLoopInit, LoopHead.minify, Report.value_bind, Report.value_pure, start,
        Semantics.value_minified laws.toLawful off e free]

/-- Its condition is evaluated in the same way. -/
theorem mayRun_minify (test : Option Expr) (free : optionCensus .functions test = 0) :
    sem.mayRun (minifyOption o test).value = sem.mayRun test := by
  cases test with
  | none => rfl
  | some e => exact Semantics.holds_minified laws.toLawful off e free

/-- So is its last part, after each round. -/
theorem advance_minify (step : Option Expr) (free : optionCensus .functions step = 0) :
    sem.advance (minifyOption o step).value = sem.advance step := by
  cases step with
  | none => rfl
  | some e =>
    simp only [minifyOption, Report.value_bind, Report.value_pure, advance,
      Semantics.value_minified laws.toLawful off e free]

/-- A function returns the same result. -/
theorem result_minify (value : Option Expr) (free : optionCensus .functions value = 0) :
    sem.result (minifyOption o value).value = sem.result value := by
  cases value with
  | none => rfl
  | some e => exact Semantics.value_minified laws.toLawful off e free

end Effects

/-! ## Labels -/

/-- A statement that no break leads out of need not take any. -/
theorem breakable_eq_self {label : Option String} {x : Action S V Unit}
    (never : x.EndsIn fun c => c.isBreakTo label = false) : breakable label x = x := by
  have rethrown : breakable label x = x.orElse throw := by
    refine orElse_congr fun s c t ran => ?_
    rw [never s c t ran]
    rfl
  rw [rethrown, orElse_throw]

/-- A label that no jump names does nothing. -/
theorem run_label_of_unused {name : String} {body : Stmt} (unused : body.labelRefs name = 0)
    (pl : Place) (labels : List String) : sem.run (.label pl name body) labels = sem.run body labels := by
  have noContinue : sem.run body (name :: labels) = sem.run body labels := by
    refine run_labels body fun l mem => ?_
    have other : l ≠ name := Stmt.label_ne_of_exit unused mem
    simp [other]
  rw [run, noContinue]
  refine breakable_eq_self fun s c t ran => ?_
  have among := endsIn_run body labels s c t ran
  cases c with
  | breakTo label =>
    cases label with
    | none => rfl
    | some l =>
      have other : l ≠ name := Stmt.label_ne_of_exit unused (among _ rfl)
      simpa [Abrupt.isBreakTo] using other
  | _ => rfl

/-- A label that nothing refers to can go without a change to what is run. -/
theorem run_labelStmt (pl : Place) (name : String) (body : Stmt) (labels : List String) :
    sem.run (labelStmt o pl name body).value labels = sem.run (.label pl name body) labels := by
  rw [value_labelStmt]
  split
  · next unused => rw [run_label_of_unused unused]
  · rfl

/-- It is enough to look at a statement without labels before it, if no `continue` that leads out of
it names one of them. -/
theorem run_eq_of_run_nil {s t : Stmt} {labels : List String} (noLoop : s.isLoop = false)
    (apart : ∀ l ∈ labels, .continueTo l ∈ s.exits → s.isLoop = true)
    (exits : ∀ {j}, j ∈ t.exits → j ∈ s.exits) (same : sem.run t [] = sem.run s []) :
    sem.run t labels = sem.run s labels := by
  have outOfReach : ∀ l ∈ labels, .continueTo l ∉ s.exits := fun l named mem => by
    simp [noLoop] at apart
    exact apart l named mem
  rw [run_no_labels outOfReach, run_no_labels fun l named mem => outOfReach l named (exits mem), same]

/-! ## All statements -/

mutual

/-- A simplified statement does what the statement does, with the labels before it. -/
theorem run_minify (laws : sem.Lawful) (bare : sem.BareScopesIdle)
    (off : o.comparisons = false) :
    (s : Stmt) → s.functions = 0 → s.Everywhere Stmt.IsBraced → s.Everywhere Stmt.ContinuesLoop →
      (labels : List String) → (∀ l ∈ labels, .continueTo l ∈ s.exits → s.isLoop = true) →
      sem.run (s.minify o).value labels = sem.run s labels
  | .block pl body, free, braced, continues, labels, apart => by
    refine run_eq_of_run_nil rfl apart (Stmt.exit_of_minify _) ?_
    have freeBody : stmtsFunctions body = 0 := free
    simp only [Stmt.minify, Report.value_bind, Report.value_pure, run_blockStmt bare, run,
      stmtsLexicals_tighten, stmtsLexicals_minifyStmts body braced.2, runAll_tighten bare,
      runAll_minifyStmts laws bare off body freeBody braced.2 continues.2]
  | .debugger pl, _, _, _, labels, _ => by
    simp only [Stmt.minify, Report.value_pure]
    split <;> rfl
  | .doWhile pl body test, free, braced, continues, labels, _ => by
    obtain ⟨freeBody, freeTest⟩ : body.functions = 0 ∧ test.functions = 0 := by
      simpa [Stmt.functions, Stmt.census, Expr.functions, add_eq_zero] using free
    simp only [Stmt.minify, Report.value_bind, Report.value_pure, run,
      run_minify laws bare off body freeBody braced.2 continues.2 [] (by simp),
      Semantics.holds_minified laws.toLawful off test freeTest]
  | .expr pl e, free, _, _, _, _ => by
    simp only [Stmt.minify, Report.value_bind, Report.value_pure, run,
      Semantics.value_minified laws.toLawful off e free]
  | .forIn pl target object body, free, braced, continues, labels, _ => by
    obtain ⟨⟨freeTarget, freeObject⟩, freeBody⟩ :
        (target.census .functions = 0 ∧ object.functions = 0) ∧ body.functions = 0 := by
      simpa [Stmt.functions, Stmt.census, Expr.functions, add_eq_zero] using free
    simp only [Stmt.minify, Report.value_bind, Report.value_pure, run,
      run_minify laws bare off body freeBody braced.2 continues.2 [] (by simp),
      Semantics.value_minified laws.toLawful off object freeObject, LoopHead.lexicals_minify,
      startKeys_minify laws off target freeTarget, takeKey_minify laws off target freeTarget]
  | .forLoop pl init test step body, free, braced, continues, labels, _ => by
    obtain ⟨⟨⟨freeInit, freeTest⟩, freeStep⟩, freeBody⟩ :
        ((loopInitCensus .functions init = 0 ∧ optionCensus .functions test = 0) ∧
          optionCensus .functions step = 0) ∧ body.functions = 0 := by
      simpa [Stmt.functions, Stmt.census, add_eq_zero] using free
    simp only [Stmt.minify, Report.value_bind, Report.value_pure, run,
      run_minify laws bare off body freeBody braced.2 continues.2 [] (by simp), loopInitLexicals_minify,
      start_minify laws off init freeInit, mayRun_minify laws off test freeTest,
      advance_minify laws off step freeStep]
  | .func pl name (.mk span params body), free, _, _, _, _ => by
    simp [Stmt.functions, Stmt.census, Func.census, Census.functions] at free
  | .ite pl test yes no, free, ⟨⟨inYes, inNo⟩, bracedYes, bracedNo⟩,
      ⟨_, continuesYes, continuesNo⟩, labels, apart => by
    obtain ⟨⟨freeTest, freeYes⟩, freeNo⟩ :
        (test.functions = 0 ∧ yes.functions = 0) ∧ elseCensus .functions no = 0 := by
      simpa [Stmt.functions, Stmt.census, Expr.functions, add_eq_zero] using free
    refine run_eq_of_run_nil rfl apart (Stmt.exit_of_minify _) ?_
    have unscopedYes := (yes.isScoped_minify (o := o) bracedYes).trans inYes
    have unscopedNo : ∀ s ∈ (minifyElse o no).value, s.isScoped = false := by
      cases no with
      | none => simp [minifyElse]
      | some s => simpa [minifyElse] using (s.isScoped_minify bracedNo).trans (inNo s rfl)
    have simplified : sem.run ((Stmt.ite pl test yes no).minify o).value [] =
        sem.run (.ite pl (test.minify o).value (yes.minify o).value (minifyElse o no).value) [] := by
      simp only [Stmt.minify, Report.value_bind]
      split
      · exact run_simplifyIf laws bare off pl unscopedYes unscopedNo
      · exact run_ifStmt bare pl unscopedYes
    rw [simplified]
    simp only [run, Semantics.holds_minified laws.toLawful off test freeTest,
      run_minify laws bare off yes freeYes bracedYes continuesYes [] (by simp),
      runElse_minify laws bare off no freeNo bracedNo continuesNo]
  | .label pl name body, free, braced, ⟨toLoop, continues⟩, labels, apart => by
    have inBody : ∀ l ∈ name :: labels, .continueTo l ∈ body.exits → body.isLoop = true := by
      intro l named mem
      by_cases here : l = name
      · exact toLoop (here ▸ mem)
      · have outside : l ∈ labels := (List.mem_cons.mp named).resolve_left here
        exact apart l outside (List.mem_filter.mpr ⟨mem, by simp [Jump.endsAt, here]⟩)
    simp only [Stmt.minify, Report.value_bind, run_labelStmt, run,
      run_minify laws bare off body free braced.2 continues (name :: labels) inBody]
  | .ret pl value, free, _, _, _, _ => by
    simp only [Stmt.minify, Report.value_bind, Report.value_pure, run,
      result_minify laws off value free]
  | .switch pl subject branches, free, braced, continues, labels, _ => by
    obtain ⟨freeSubject, freeBranches⟩ :
        subject.functions = 0 ∧ branchesCensus .functions branches = 0 := by
      simpa [Stmt.functions, Stmt.census, Expr.functions, add_eq_zero] using free
    simp only [Stmt.minify, Report.value_bind, Report.value_pure, run,
      Semantics.value_minified laws.toLawful off subject freeSubject,
      branchesLexicals_minify branches braced.2,
      runDefault_minify laws bare off branches freeBranches braced.2 continues.2,
      runCases_minify laws bare off branches freeBranches braced.2 continues.2]
  | .throw pl value, free, _, _, _, _ => by
    simp only [Stmt.minify, Report.value_bind, Report.value_pure, run,
      Semantics.value_minified laws.toLawful off value free]
  | .tryCatch pl body handler final, free, ⟨_, bracedBody, bracedHandler, bracedFinal⟩,
      ⟨_, continuesBody, continuesHandler, continuesFinal⟩, labels, _ => by
    obtain ⟨⟨freeBody, freeHandler⟩, freeFinal⟩ : (body.census .functions = 0 ∧
        handlerCensus .functions handler = 0) ∧ finalCensus .functions final = 0 := by
      simpa [Stmt.functions, Stmt.census, add_eq_zero] using free
    simp only [Stmt.minify, Report.value_bind, Report.value_pure, run,
      runBlock_minify laws bare off body freeBody bracedBody continuesBody,
      runHandler_minify laws bare off handler freeHandler bracedHandler continuesHandler,
      runFinal_minify laws bare off final freeFinal bracedFinal continuesFinal]
  | .var outer decl, free, _, _, _, _ => by
    simp only [Stmt.minify, Report.value_bind, Report.value_pure, run,
      declareVars_minify laws off .list decl free]
  | .whileLoop pl test body, free, braced, continues, labels, _ => by
    obtain ⟨freeTest, freeBody⟩ : test.functions = 0 ∧ body.functions = 0 := by
      simpa [Stmt.functions, Stmt.census, Expr.functions, add_eq_zero] using free
    simp only [Stmt.minify, Report.value_bind, Report.value_pure, run,
      run_minify laws bare off body freeBody braced.2 continues.2 [] (by simp),
      Semantics.holds_minified laws.toLawful off test freeTest]
  | .withObject pl object body, free, braced, continues, labels, _ => by
    obtain ⟨freeObject, freeBody⟩ : object.functions = 0 ∧ body.functions = 0 := by
      simpa [Stmt.functions, Stmt.census, Expr.functions, add_eq_zero] using free
    simp only [Stmt.minify, Report.value_bind, Report.value_pure, run,
      run_minify laws bare off body freeBody braced.2 continues.2 [] (by simp),
      Semantics.value_minified laws.toLawful off object freeObject]
  | .breakTo _ _, _, _, _, _, _ | .continueTo _ _, _, _, _, _, _ | .empty _, _, _, _, _, _ => rfl

theorem runElse_minify (laws : sem.Lawful) (bare : sem.BareScopesIdle)
    (off : o.comparisons = false) :
    (no : Option Stmt) → elseCensus .functions no = 0 → elseEverywhere Stmt.IsBraced no →
      elseEverywhere Stmt.ContinuesLoop no →
      sem.runElse (minifyElse o no).value = sem.runElse no
  | none, _, _, _ => rfl
  | some s, free, braced, continues => run_minify laws bare off s free braced continues [] (by simp)

/-- Simplified statements run like the statements, one after the other. -/
theorem runAll_minifyStmts (laws : sem.Lawful) (bare : sem.BareScopesIdle)
    (off : o.comparisons = false) :
    (body : List Stmt) → stmtsFunctions body = 0 → stmtsEverywhere Stmt.IsBraced body →
      stmtsEverywhere Stmt.ContinuesLoop body →
      sem.runAll (minifyStmts o body).value = sem.runAll body
  | [], _, _, _ => rfl
  | s :: rest, free, braced, continues => by
    obtain ⟨freeHead, freeRest⟩ : s.functions = 0 ∧ stmtsFunctions rest = 0 := by
      simpa [stmtsFunctions, stmtsCensus, Stmt.functions, add_eq_zero] using free
    simp only [minifyStmts, Report.value_bind, Report.value_pure, runAll,
      run_minify laws bare off s freeHead braced.1 continues.1 [] (by simp),
      runAll_minifyStmts laws bare off rest freeRest braced.2 continues.2]

/-- Simplified branches of a `switch` are chosen and run in the same way. -/
theorem runCases_minify (laws : sem.Lawful) (bare : sem.BareScopesIdle)
    (off : o.comparisons = false) {v : V}
    {other : Action S V Unit} : (branches : List Branch) →
      branchesCensus .functions branches = 0 → branchesEverywhere Stmt.IsBraced branches →
      branchesEverywhere Stmt.ContinuesLoop branches →
      sem.runCases v other (minifyBranches o branches).value = sem.runCases v other branches
  | [], _, _, _ => rfl
  | .mk _ none body :: rest, free, braced, continues => by
    obtain ⟨freeBody, freeRest⟩ :
        stmtsFunctions body = 0 ∧ branchesCensus .functions rest = 0 := by
      simpa [branchesCensus, optionCensus, stmtsFunctions, add_eq_zero] using free
    simp only [minifyBranches, minifyOption, Report.value_bind, Report.value_pure, runCases,
      runCases_minify laws bare off rest freeRest braced.2 continues.2]
  | .mk _ (some test) body :: rest, free, braced, continues => by
    obtain ⟨⟨freeTest, freeBody⟩, freeRest⟩ : (test.functions = 0 ∧ stmtsFunctions body = 0) ∧
        branchesCensus .functions rest = 0 := by
      simpa [branchesCensus, optionCensus, stmtsFunctions, Expr.functions, add_eq_zero] using free
    simp only [minifyBranches, minifyOption, Report.value_bind, Report.value_pure, runCases,
      Semantics.value_minified laws.toLawful off test freeTest, runAll_tighten bare,
      runAll_minifyStmts laws bare off body freeBody braced.1 continues.1,
      runBranches_minify laws bare off rest freeRest braced.2 continues.2,
      runCases_minify laws bare off rest freeRest braced.2 continues.2]

theorem runDefault_minify (laws : sem.Lawful) (bare : sem.BareScopesIdle)
    (off : o.comparisons = false) :
    (branches : List Branch) → branchesCensus .functions branches = 0 →
      branchesEverywhere Stmt.IsBraced branches → branchesEverywhere Stmt.ContinuesLoop branches →
      sem.runDefault (minifyBranches o branches).value = sem.runDefault branches
  | [], _, _, _ => rfl
  | .mk _ none body :: rest, free, braced, continues => by
    obtain ⟨freeBody, freeRest⟩ :
        stmtsFunctions body = 0 ∧ branchesCensus .functions rest = 0 := by
      simpa [branchesCensus, optionCensus, stmtsFunctions, add_eq_zero] using free
    simp only [minifyBranches, minifyOption, Report.value_bind, Report.value_pure, runDefault,
      runAll_tighten bare, runAll_minifyStmts laws bare off body freeBody braced.1 continues.1,
      runBranches_minify laws bare off rest freeRest braced.2 continues.2]
  | .mk _ (some test) body :: rest, free, braced, continues => by
    have freeRest : branchesCensus .functions rest = 0 := (add_eq_zero.mp free).2
    simp only [minifyBranches, minifyOption, Report.value_bind, Report.value_pure, runDefault,
      runDefault_minify laws bare off rest freeRest braced.2 continues.2]

theorem runBranches_minify (laws : sem.Lawful) (bare : sem.BareScopesIdle)
    (off : o.comparisons = false) :
    (branches : List Branch) → branchesCensus .functions branches = 0 →
      branchesEverywhere Stmt.IsBraced branches → branchesEverywhere Stmt.ContinuesLoop branches →
      sem.runBranches (minifyBranches o branches).value = sem.runBranches branches
  | [], _, _, _ => rfl
  | .mk _ test body :: rest, free, braced, continues => by
    obtain ⟨⟨_, freeBody⟩, freeRest⟩ : (optionCensus .functions test = 0 ∧
        stmtsFunctions body = 0) ∧ branchesCensus .functions rest = 0 := by
      simpa [branchesCensus, stmtsFunctions, add_eq_zero] using free
    simp only [minifyBranches, Report.value_bind, Report.value_pure, runBranches,
      runAll_tighten bare, runAll_minifyStmts laws bare off body freeBody braced.1 continues.1,
      runBranches_minify laws bare off rest freeRest braced.2 continues.2]

/-- A simplified block runs like the block. -/
theorem runBlock_minify (laws : sem.Lawful) (bare : sem.BareScopesIdle)
    (off : o.comparisons = false) :
    (block : Block) → block.census .functions = 0 → block.Everywhere Stmt.IsBraced →
      block.Everywhere Stmt.ContinuesLoop → sem.runBlock (block.minify o).value = sem.runBlock block
  | .mk _ body, free, braced, continues => by
    simp only [Block.minify, Report.value_bind, Report.value_pure, runBlock, stmtsLexicals_tighten,
      stmtsLexicals_minifyStmts body braced, runAll_tighten bare,
      runAll_minifyStmts laws bare off body free braced continues]

theorem runHandler_minify (laws : sem.Lawful) (bare : sem.BareScopesIdle)
    (off : o.comparisons = false) {x : Action S V Unit} :
    (handler : Option Handler) → handlerCensus .functions handler = 0 →
      handlerEverywhere Stmt.IsBraced handler → handlerEverywhere Stmt.ContinuesLoop handler →
      sem.runHandler x (minifyHandler o handler).value = sem.runHandler x handler
  | none, _, _, _ => rfl
  | some (.mk _ param body), free, braced, continues => by
    simp only [minifyHandler, Report.value_bind, Report.value_pure, runHandler,
      stmtsLexicals_tighten, stmtsLexicals_minifyStmts body braced, runAll_tighten bare,
      runAll_minifyStmts laws bare off body free braced continues]

theorem runFinal_minify (laws : sem.Lawful) (bare : sem.BareScopesIdle)
    (off : o.comparisons = false) {x : Action S V Unit} :
    (final : Option Block) → finalCensus .functions final = 0 →
      finalEverywhere Stmt.IsBraced final → finalEverywhere Stmt.ContinuesLoop final →
      sem.runFinal x (minifyFinal o final).value = sem.runFinal x final
  | none, _, _, _ => rfl
  | some block, free, braced, continues => by
    simp only [minifyFinal, Report.value_bind, Report.value_pure, runFinal,
      runBlock_minify laws bare off block free braced continues]

end

/-- A simplified list of statements runs from one state to another, and ends in some way, exactly if
the list does. The braces that go or come are around scopes without names, and these must do nothing. -/
theorem runs_minifyBody (laws : sem.Lawful) (bare : sem.BareScopesIdle)
    (off : o.comparisons = false) (body : List Stmt) (free : stmtsFunctions body = 0)
    (braced : stmtsEverywhere Stmt.IsBraced body)
    (continues : stmtsEverywhere Stmt.ContinuesLoop body) (s t : S) (c : Completion V) :
    sem.Runs (minifyBody o body).value s c t ↔ sem.Runs body s c t := by
  rw [Runs, minifyBody, Report.value_bind, runAll_tighten bare,
    runAll_minifyStmts laws bare off body free braced continues, Runs]

/-- The case of `l: while (x) { if (y) { let z = 1; continue l } else ; { break l; var w } }`, with a
loop that goes on, a scope that stays and a declaration behind a jump. -/
theorem runs_minifyBody_labelled :
    let here : Place := default
    let body := [Stmt.label here "l" (.whileLoop here (.ident here "x") (.block here [
      .ite here (.ident here "y") (.block here [
        .var default (.mk default .block [.mk "z" (some (.num here (.ofNat 1)))]),
        .continueTo here (some "l")]) (some (.empty here)),
      .block here [.breakTo here (some "l"), .var default (.mk default .var [.mk "w" none])]]))]
    Lawful (tracing false) ∧ BareScopesIdle (tracing false) ∧ stmtsFunctions body = 0 ∧
      stmtsEverywhere Stmt.IsBraced body ∧ stmtsEverywhere Stmt.ContinuesLoop body ∧ ∀ s t c,
        (tracing false).Runs
            (minifyBody { Options.all true with comparisons := false } body).value s c t ↔
          (tracing false).Runs body s c t := by
  intro here body
  have free : stmtsFunctions body = 0 := by
    simp [body, stmtsFunctions, stmtsCensus, Stmt.census, Expr.census, elseCensus, VarDecl.census,
      declaratorsCensus, optionCensus, Census.functions]
  have braced : stmtsEverywhere Stmt.IsBraced body := by
    simp [body, stmtsEverywhere, Stmt.Everywhere, elseEverywhere, Stmt.IsBraced, Stmt.isScoped]
  have continues : stmtsEverywhere Stmt.ContinuesLoop body := by
    simp [body, stmtsEverywhere, Stmt.Everywhere, elseEverywhere, Stmt.ContinuesLoop, Stmt.isLoop]
  exact ⟨tracing_lawful false, tracing_bareScopesIdle, free, braced, continues,
    runs_minifyBody (tracing_lawful false) tracing_bareScopesIdle rfl body free braced continues⟩

/-- The case of `{ a }`, which becomes `a`, in a run that shows every scope: the trace of the block tells
that its scope was entered and left, and that of the expression does not. -/
theorem runs_minifyBody_ne :
    let here : Place := default
    let body := [Stmt.block here [.expr here (.ident here "a")]]
    Lawful (tracing true) ∧ stmtsFunctions body = 0 ∧ stmtsEverywhere Stmt.IsBraced body ∧
      stmtsEverywhere Stmt.ContinuesLoop body ∧
      (tracing true).Runs body [] (.ok ()) ["leave", "a", "enter"] ∧
      ¬ (tracing true).Runs
          (minifyBody { Options.all true with comparisons := false } body).value
          [] (.ok ()) ["leave", "a", "enter"] := by
  intro here body
  have unwrapped : (minifyBody { Options.all true with comparisons := false } body).value =
      [.expr here (.ident here "a")] := rfl
  refine ⟨tracing_lawful true, ?_, ?_, ?_, ?_, ?_⟩
  · simp [body, stmtsFunctions, stmtsCensus, Stmt.census, Expr.census, Census.functions]
  · simp [body, Stmt.IsBraced]
  · simp [body, Stmt.ContinuesLoop]
  · refine ⟨.ok (), ["leave", "a", "enter"], ?_, rfl, rfl⟩
    refine ⟨.ok (), ["enter"], ⟨.ok (), rfl, rfl⟩, ?_⟩
    refine ⟨.ok (), ["a", "enter"], ?_, .ok (), _, ⟨.ok (), rfl, rfl⟩, rfl, rfl⟩
    refine ⟨.ok (), ["a", "enter"], ?_, rfl, rfl⟩
    exact ⟨.ok .undef, ["a", "enter"], ⟨.ok .undef, rfl, rfl⟩, rfl, rfl⟩
  · rw [unwrapped]
    rintro ⟨_, _, ⟨_, _, ⟨_, looked, rfl⟩, rest⟩, last⟩
    cases looked
    obtain ⟨rfl, rfl⟩ := rest
    obtain ⟨-, shorter⟩ := last
    simp at shorter

end StmtSemantics

end Minifier
