import Minifier.Proofs.SecondPass.Output

/-!
# The second pass

A tidy tree is left alone by a second pass if in addition it is *settled*: no conditional expression
gets shorter when it is turned around, and no negation is applied to a constant. One pass does not
always leave a settled tree, since the negation of a condition is formed from simplified parts and is
not simplified itself. If conditions are not restructured, no negation is ever formed, and a second
pass changes nothing at all.
-/

namespace Minifier

variable (o : Options)

/-- A conditional expression is not shorter when it is turned around, and a negation gives no
constant. -/
def Expr.IsSettled : Expr → Prop
  | .cond pl test yes no => (Expr.cond pl test yes no).render.utf8ByteSize ≤
    (Expr.cond pl (test.negate o) no yes).render.utf8ByteSize
  | .unary pl op arg => op = .logicalNot → (Expr.unary pl op arg).known? o = none
  | _ => True

/-- The expressions that neither turning around nor folding changes. Nothing is asked if conditions are
not restructured. -/
def Check.settled : Check where
  expr e := o.conditionals = true → e.IsSettled o
  stmt _ := True
  body _ := True

variable {o}

/-- A tidy expression with two operands is put together as it is. -/
theorem binaryExpr_of_tidy {pl : Place} {op : Operator} {left right : Expr}
    (tidy : (Expr.binary pl op left right).IsTidy o) :
    binaryExpr o pl op left right = .binary pl op left right := by
  unfold binaryExpr
  split
  · rfl
  · next value =>
    obtain ⟨strict, unknown⟩ := tidy (eq_false_of_ne_true value)
    have same : (if o.comparisons = true then (op.loosened? left right).getD op else op) = op := by
      split
      · next compares => rw [strict compares]; rfl
      · rfl
    rw [same, Expr.folded, unknown]

/-- A negation or another unary expression that is settled is not simplified further. -/
theorem folded_unary_of_settled {pl : Place} {op : Operator} {arg : Expr}
    (tidy : (Expr.unary pl op arg).IsTidy o)
    (settled : o.conditionals = true → (Expr.unary pl op arg).IsSettled o) :
    (Expr.unary pl op arg).folded o = .unary pl op arg := by
  have unknown : (Expr.unary pl op arg).known? o = none := by
    by_cases negates : op = .logicalNot ∧ o.conditionals = true
    · exact settled negates.2 negates.1
    · exact tidy fun isNot => eq_false_of_ne_true fun on => negates ⟨isNot, on⟩
  rw [Expr.folded, unknown]

/-- A settled choice stays a choice of the same branches. -/
theorem condExpr_of_settled {pl : Place} {test yes no : Expr}
    (tidy : (Expr.cond pl test yes no).IsTidy o) (settled : (Expr.cond pl test yes no).IsSettled o) :
    condExpr o pl.outer test yes no = .cond pl test yes no := by
  have place : pl = .both pl.outer := tidy
  unfold condExpr Expr.shorter
  rw [← place]
  exact if_neg (Nat.not_lt.mpr settled)

/-- A tidy list of statements is not changed. -/
theorem tighten_of_tidy {body : List Stmt} (tidy : BodyIsTidy o body) :
    (tighten o body).value = body := by
  have unwrapped : unwrapBlocks body = body := flatMap_eq_self tidy.unwrapped
  have reached : (if o.deadCode then (dropUnreachable o (unwrapBlocks body)).value
      else unwrapBlocks body) = body := by
    rw [unwrapped]
    split
    · next drops => exact dropUnreachable_of_kept (tidy.reached drops)
    · rfl
  rw [value_tighten]
  dsimp only
  rw [reached]
  split
  · next joins => exact tidy.joined joins
  · rfl

mutual

/-- A second pass leaves a tidy and settled expression alone. -/
theorem Expr.minify_of_settled : (e : Expr) → e.Meets (.tidy o) → e.Meets (.settled o) →
    (e.minify o).value = e
  | .binary pl op left right, ⟨here, tidyLeft, tidyRight⟩, ⟨_, inLeft, inRight⟩ => by
    simp only [Expr.minify, Report.value_bind, Report.value_pure,
      left.minify_of_settled tidyLeft inLeft, right.minify_of_settled tidyRight inRight]
    exact binaryExpr_of_tidy here
  | .call pl isNew callee args, ⟨_, tidyCallee, tidyArgs⟩, ⟨_, inCallee, inArgs⟩ => by
    simp only [Expr.minify, Report.value_bind, Report.value_pure,
      callee.minify_of_settled tidyCallee inCallee, exprs_minify_of_settled args tidyArgs inArgs]
  | .index pl object key, ⟨here, tidyObject, tidyKey⟩, ⟨_, inObject, inKey⟩ => by
    simp only [Expr.minify, Report.value_bind, Report.value_pure,
      object.minify_of_settled tidyObject inObject, key.minify_of_settled tidyKey inKey]
    exact here
  | .cond pl test yes no, ⟨here, tidyTest, tidyYes, tidyNo⟩, ⟨stays, inTest, inYes, inNo⟩ => by
    simp only [Expr.minify, Report.value_bind, Report.value_pure,
      test.minify_of_settled tidyTest inTest, yes.minify_of_settled tidyYes inYes,
      no.minify_of_settled tidyNo inNo]
    split
    · next on => exact condExpr_of_settled here (stays on)
    · have place : pl = .both pl.outer := here
      rw [← place]
  | .func pl name fn, ⟨_, tidy⟩, ⟨_, settled⟩ => by
    simp only [Expr.minify, Report.value_bind, Report.value_pure, fn.minify_of_settled tidy settled]
  | .member pl object name, ⟨_, tidy⟩, ⟨_, settled⟩ => by
    simp only [Expr.minify, Report.value_bind, Report.value_pure,
      object.minify_of_settled tidy settled]
  | .unary pl op arg, ⟨here, tidy⟩, ⟨stays, settled⟩ => by
    simp only [Expr.minify, Report.value_bind, Report.value_pure, arg.minify_of_settled tidy settled]
    exact folded_unary_of_settled here stays
  | .update pl op arg, ⟨_, tidy⟩, ⟨_, settled⟩ => by
    simp only [Expr.minify, Report.value_bind, Report.value_pure, arg.minify_of_settled tidy settled]
  | .array pl elements, ⟨_, tidy⟩, ⟨_, settled⟩ => by
    simp only [Expr.minify, Report.value_bind, Report.value_pure,
      elements_minify_of_settled elements tidy settled]
  | .object pl members, ⟨_, tidy⟩, ⟨_, settled⟩ => by
    simp only [Expr.minify, Report.value_bind, Report.value_pure,
      members_minify_of_settled members tidy settled]
  | .ident .., _, _ | .this .., _, _ | .bool .., _, _ | .null .., _, _ | .num .., _, _
  | .regex .., _, _ | .str .., _, _ | .undef .., _, _ => rfl

/-- Settled expressions stay as they are. -/
theorem exprs_minify_of_settled : (es : List Expr) → exprsMeet (.tidy o) es →
    exprsMeet (.settled o) es → (minifyExprs o es).value = es
  | [], _, _ => rfl
  | e :: rest, ⟨tidy, tidyRest⟩, ⟨settled, inRest⟩ => by
    simp only [minifyExprs, Report.value_bind, Report.value_pure, e.minify_of_settled tidy settled,
      exprs_minify_of_settled rest tidyRest inRest]

theorem option_minify_of_settled : (e : Option Expr) → optionMeets (.tidy o) e →
    optionMeets (.settled o) e → (minifyOption o e).value = e
  | none, _, _ => rfl
  | some e, tidy, settled => congrArg some (e.minify_of_settled tidy settled)

theorem elements_minify_of_settled : (es : List (Option Expr)) → elementsMeet (.tidy o) es →
    elementsMeet (.settled o) es → (minifyElements o es).value = es
  | [], _, _ => rfl
  | e :: rest, ⟨tidy, tidyRest⟩, ⟨settled, inRest⟩ => by
    simp only [minifyElements, Report.value_bind, Report.value_pure,
      option_minify_of_settled e tidy settled, elements_minify_of_settled rest tidyRest inRest]

/-- A function whose body is settled stays as it is. -/
theorem Func.minify_of_settled : (fn : Func) → fn.Meets (.tidy o) → fn.Meets (.settled o) →
    (fn.minify o).value = fn
  | .mk span params body, ⟨here, tidy⟩, ⟨_, settled⟩ => by
    simp only [Func.minify, Report.value_bind, Report.value_pure,
      stmts_minify_of_settled body here.unwrapped tidy settled, tighten_of_tidy here]

theorem members_minify_of_settled : (ms : List Member) → membersMeet (.tidy o) ms →
    membersMeet (.settled o) ms → (minifyMembers o ms).value = ms
  | [], _, _ => rfl
  | .value _ _ e :: rest, ⟨tidy, tidyRest⟩, ⟨settled, inRest⟩ => by
    simp only [minifyMembers, Report.value_bind, Report.value_pure, e.minify_of_settled tidy settled,
      members_minify_of_settled rest tidyRest inRest]
  | .getter _ _ fn :: rest, ⟨tidy, tidyRest⟩, ⟨settled, inRest⟩ => by
    simp only [minifyMembers, Report.value_bind, Report.value_pure, fn.minify_of_settled tidy settled,
      members_minify_of_settled rest tidyRest inRest]
  | .setter _ _ fn :: rest, ⟨tidy, tidyRest⟩, ⟨settled, inRest⟩ => by
    simp only [minifyMembers, Report.value_bind, Report.value_pure, fn.minify_of_settled tidy settled,
      members_minify_of_settled rest tidyRest inRest]

theorem declarators_minify_of_settled : (ds : List Declarator) → declaratorsMeet (.tidy o) ds →
    declaratorsMeet (.settled o) ds → (minifyDeclarators o ds).value = ds
  | [], _, _ => rfl
  | .mk _ init :: rest, ⟨tidy, tidyRest⟩, ⟨settled, inRest⟩ => by
    simp only [minifyDeclarators, Report.value_bind, Report.value_pure,
      option_minify_of_settled init tidy settled, declarators_minify_of_settled rest tidyRest inRest]

theorem VarDecl.minify_of_settled : (decl : VarDecl) → decl.Meets (.tidy o) →
    decl.Meets (.settled o) → (decl.minify o).value = decl
  | .mk _ _ declarators, tidy, settled => by
    simp only [VarDecl.minify, Report.value_bind, Report.value_pure,
      declarators_minify_of_settled declarators tidy settled]

theorem LoopHead.minify_of_settled : (head : LoopHead) → head.Meets (.tidy o) →
    head.Meets (.settled o) → (head.minify o).value = head
  | .decl decl, tidy, settled => congrArg LoopHead.decl (decl.minify_of_settled tidy settled)
  | .expr e, tidy, settled => congrArg LoopHead.expr (e.minify_of_settled tidy settled)

theorem loopInit_minify_of_settled : (init : Option LoopHead) → loopInitMeets (.tidy o) init →
    loopInitMeets (.settled o) init → (minifyLoopInit o init).value = init
  | none, _, _ => rfl
  | some head, tidy, settled => congrArg some (head.minify_of_settled tidy settled)

/-- Settled branches of a `switch` stay as they are. -/
theorem branches_minify_of_settled : (branches : List Branch) → branchesMeet (.tidy o) branches →
    branchesMeet (.settled o) branches → (minifyBranches o branches).value = branches
  | [], _, _ => rfl
  | .mk _ test body :: rest, ⟨tidyTest, ⟨here, tidy⟩, tidyRest⟩, ⟨inTest, ⟨_, settled⟩, inRest⟩ => by
    simp only [minifyBranches, Report.value_bind, Report.value_pure,
      option_minify_of_settled test tidyTest inTest,
      stmts_minify_of_settled body here.unwrapped tidy settled, tighten_of_tidy here,
      branches_minify_of_settled rest tidyRest inRest]

theorem Block.minify_of_settled : (block : Block) → block.Meets (.tidy o) →
    block.Meets (.settled o) → (block.minify o).value = block
  | .mk _ body, ⟨here, tidy⟩, ⟨_, settled⟩ => by
    simp only [Block.minify, Report.value_bind, Report.value_pure,
      stmts_minify_of_settled body here.unwrapped tidy settled, tighten_of_tidy here]

theorem handler_minify_of_settled : (handler : Option Handler) → handlerMeets (.tidy o) handler →
    handlerMeets (.settled o) handler → (minifyHandler o handler).value = handler
  | none, _, _ => rfl
  | some (.mk _ _ body), ⟨here, tidy⟩, ⟨_, settled⟩ => by
    simp only [minifyHandler, Report.value_bind, Report.value_pure,
      stmts_minify_of_settled body here.unwrapped tidy settled, tighten_of_tidy here]

theorem final_minify_of_settled : (final : Option Block) → finalMeets (.tidy o) final →
    finalMeets (.settled o) final → (minifyFinal o final).value = final
  | none, _, _ => rfl
  | some block, tidy, settled => congrArg some (block.minify_of_settled tidy settled)

/-- A second pass leaves a tidy and settled statement alone, but for a block that is not needed. -/
theorem Stmt.minify_of_settled : (s : Stmt) → s.Meets (.tidy o) → s.Meets (.settled o) →
    (s.minify o).value = s.unbraced
  | .block pl body, ⟨_, here, tidy⟩, ⟨_, _, settled⟩ => by
    simp only [Stmt.minify, Report.value_bind, Report.value_pure,
      stmts_minify_of_settled body here.unwrapped tidy settled, tighten_of_tidy here]
    rfl
  | .debugger pl, stays, _ => by
    have kept : o.dropDebugger = false := stays
    simp only [Stmt.minify, Report.value_pure, kept, Bool.false_eq_true, if_false]
    rfl
  | .doWhile pl body test, ⟨bare, tidyBody, tidyTest⟩, ⟨_, inBody, inTest⟩ => by
    simp only [Stmt.minify, Report.value_bind, Report.value_pure,
      body.minify_of_settled tidyBody inBody, test.minify_of_settled tidyTest inTest]
    exact congrArg (Stmt.doWhile pl · test) bare
  | .expr pl e, ⟨_, tidy⟩, ⟨_, settled⟩ => congrArg (Stmt.expr pl) (e.minify_of_settled tidy settled)
  | .forIn pl target object body, ⟨bare, tidyTarget, tidyObject, tidyBody⟩,
      ⟨_, inTarget, inObject, inBody⟩ => by
    simp only [Stmt.minify, Report.value_bind, Report.value_pure,
      target.minify_of_settled tidyTarget inTarget, object.minify_of_settled tidyObject inObject,
      body.minify_of_settled tidyBody inBody]
    exact congrArg (Stmt.forIn pl target object) bare
  | .forLoop pl init test step body, ⟨bare, tidyInit, tidyTest, tidyStep, tidyBody⟩,
      ⟨_, inInit, inTest, inStep, inBody⟩ => by
    simp only [Stmt.minify, Report.value_bind, Report.value_pure,
      loopInit_minify_of_settled init tidyInit inInit, option_minify_of_settled test tidyTest inTest,
      option_minify_of_settled step tidyStep inStep, body.minify_of_settled tidyBody inBody]
    exact congrArg (Stmt.forLoop pl init test step) bare
  | .func pl name fn, ⟨_, tidy⟩, ⟨_, settled⟩ =>
    congrArg (Stmt.func pl name) (fn.minify_of_settled tidy settled)
  | .ite pl test yes no, ⟨⟨bareNo, again⟩, tidyTest, tidyYes, tidyNo⟩, ⟨_, inTest, inYes, inNo⟩ => by
    rw [value_minify_ite, test.minify_of_settled tidyTest inTest, yes.minify_of_settled tidyYes inYes,
      else_minify_of_settled no bareNo tidyNo inNo]
    exact again
  | .label pl name body, ⟨⟨bare, named⟩, tidy⟩, ⟨_, settled⟩ => by
    simp only [Stmt.minify, Report.value_bind, body.minify_of_settled tidy settled, value_labelStmt,
      show body.unbraced = body from bare]
    exact if_neg named
  | .ret pl value, ⟨_, tidy⟩, ⟨_, settled⟩ =>
    congrArg (Stmt.ret pl) (option_minify_of_settled value tidy settled)
  | .switch pl subject branches, ⟨_, tidySubject, tidyBranches⟩, ⟨_, inSubject, inBranches⟩ => by
    simp only [Stmt.minify, Report.value_bind, Report.value_pure,
      subject.minify_of_settled tidySubject inSubject,
      branches_minify_of_settled branches tidyBranches inBranches]
    rfl
  | .throw pl value, ⟨_, tidy⟩, ⟨_, settled⟩ =>
    congrArg (Stmt.throw pl) (value.minify_of_settled tidy settled)
  | .tryCatch pl body handler final, ⟨_, tidyBody, tidyHandler, tidyFinal⟩,
      ⟨_, inBody, inHandler, inFinal⟩ => by
    simp only [Stmt.minify, Report.value_bind, Report.value_pure,
      body.minify_of_settled tidyBody inBody, handler_minify_of_settled handler tidyHandler inHandler,
      final_minify_of_settled final tidyFinal inFinal]
    rfl
  | .var outer decl, ⟨_, tidy⟩, ⟨_, settled⟩ =>
    congrArg (Stmt.var outer) (decl.minify_of_settled tidy settled)
  | .whileLoop pl test body, ⟨bare, tidyTest, tidyBody⟩, ⟨_, inTest, inBody⟩ => by
    simp only [Stmt.minify, Report.value_bind, Report.value_pure,
      test.minify_of_settled tidyTest inTest, body.minify_of_settled tidyBody inBody]
    exact congrArg (Stmt.whileLoop pl test) bare
  | .withObject pl object body, ⟨bare, tidyObject, tidyBody⟩, ⟨_, inObject, inBody⟩ => by
    simp only [Stmt.minify, Report.value_bind, Report.value_pure,
      object.minify_of_settled tidyObject inObject, body.minify_of_settled tidyBody inBody]
    exact congrArg (Stmt.withObject pl object) bare
  | .breakTo .., _, _ | .continueTo .., _, _ | .empty .., _, _ => rfl

theorem else_minify_of_settled : (no : Option Stmt) → (∀ s ∈ no, s.unbraced = s) →
    elseMeets (.tidy o) no → elseMeets (.settled o) no → (minifyElse o no).value = no
  | none, _, _, _ => rfl
  | some s, bare, tidy, settled =>
    congrArg some ((s.minify_of_settled tidy settled).trans (bare s rfl))

/-- Settled statements of which none would be unwrapped stay as they are. -/
theorem stmts_minify_of_settled : (stmts : List Stmt) → (∀ s ∈ stmts, s.unwrapped = [s]) →
    stmtsMeet (.tidy o) stmts → stmtsMeet (.settled o) stmts → (minifyStmts o stmts).value = stmts
  | [], _, _, _ => rfl
  | s :: rest, listed, ⟨tidy, tidyRest⟩, ⟨settled, inRest⟩ => by
    obtain ⟨head, tail⟩ := List.forall_mem_cons.mp listed
    simp only [minifyStmts, Report.value_bind, Report.value_pure, s.minify_of_settled tidy settled,
      Stmt.unbraced_of_unwrapped head, stmts_minify_of_settled rest tail tidyRest inRest]

end

/-- A second pass leaves a tidy and settled program alone. -/
theorem Program.minify_of_settled {p : Program} (tidy : p.Meets (.tidy o))
    (settled : p.Meets (.settled o)) : (p.minify o).value = p := by
  simp only [Program.minify, minifyBody, Report.value_bind, Report.value_pure,
    stmts_minify_of_settled p.body tidy.1.unwrapped tidy.2 settled.2, tighten_of_tidy tidy.1]

/-- The text after two passes is the text after one if the first pass leaves a settled program. If
conditions are not restructured, every program is settled. -/
theorem render_minify_minify (o : Options) (p : Program)
    (settled : (p.minify o).value.Meets (.settled o)) :
    ((p.minify o).value.minify o).value.render = (p.minify o).value.render := by
  rw [Program.minify_of_settled p.tidy_minify settled]

/-- The case of `!a ? b : c`, which is turned around once. -/
theorem render_minify_minify_turned :
    let here : Place := default
    let p : Program := ⟨default, [.expr here (.cond here (.unary here .logicalNot (.ident here "a"))
      (.ident here "b") (.ident here "c"))]⟩
    let o := Options.all true
    (p.minify o).value.Meets (.settled o) ∧
      ((p.minify o).value.minify o).value.render = (p.minify o).value.render := by
  intro here p o
  have turned : (p.minify o).value = ⟨default, [.expr here (.cond here (.ident here "a")
      (.ident here "c") (.ident here "b"))]⟩ := rfl
  have settled : (p.minify o).value.Meets (.settled o) := by
    rw [turned]
    have stays : (Expr.cond here (.ident here "a") (.ident here "c") (.ident here "b")).IsSettled o := by
      unfold Expr.IsSettled
      decide +kernel
    exact ⟨trivial, ⟨trivial, fun _ => stays, fun _ => trivial, fun _ => trivial, fun _ => trivial⟩,
      trivial⟩
  exact ⟨settled, render_minify_minify o p settled⟩

/-- A second pass can still change the text: `!!a ? b : c` becomes `!a ? c : b` first, and then
`a ? b : c`. -/
theorem render_minify_minify_ne :
    let here : Place := default
    let p : Program := ⟨default, [.expr here (.cond here
      (.unary here .logicalNot (.unary here .logicalNot (.ident here "a")))
      (.ident here "b") (.ident here "c"))]⟩
    let o := Options.all true
    ((p.minify o).value.minify o).value.render ≠ (p.minify o).value.render := by
  decide +kernel

/-! ## Passes that leave conditions alone -/

/-- If conditionals are left alone, a tidy tree is settled. -/
theorem Check.tidy_implies_settled (plain : o.conditionals = false) :
    (Check.tidy o).Implies (.settled o) where
  expr _ _ on := absurd on (by simp [plain])
  stmt _ _ := trivial
  body _ _ := trivial

/-- If conditions are not restructured, a second pass gives back the tree of the first one, all spans
included. -/
theorem minify_minify_of_plain (o : Options) (p : Program) (plain : o.conditionals = false) :
    ((p.minify o).value.minify o).value = (p.minify o).value := by
  have tidy : (p.minify o).value.Meets (.tidy o) := p.tidy_minify
  have settled : (p.minify o).value.Meets (.settled o) :=
    Program.meets_mono (Check.tidy_implies_settled plain) tidy
  exact Program.minify_of_settled tidy settled

/-- The case of `l: if (a) { if (b) c } else { debugger; d }`. The inner `if` loses its braces and gets
new ones at its own span, which the second pass makes again. -/
theorem minify_minify_of_plain_braced :
    let o := (Options.all true).set .conditionals false
    let whole : Place := ⟨⟨0, 60⟩, ⟨3, 60⟩⟩
    let first : Place := ⟨⟨10, 30⟩, ⟨11, 29⟩⟩
    let inside : Place := ⟨⟨12, 28⟩, ⟨13, 27⟩⟩
    let second : Place := ⟨⟨36, 60⟩, ⟨37, 59⟩⟩
    let p : Program := ⟨⟨0, 60⟩, [.label whole "l" (.ite whole (.ident whole "a")
      (.block first [.ite inside (.ident inside "b") (.expr inside (.ident inside "c")) none])
      (some (.block second [.debugger second, .expr second (.ident second "d")])))]⟩
    o.conditionals = false ∧ (p.minify o).value.render = "if(a)\x7bif(b)c;\x7delse d;" ∧
      ((p.minify o).value.minify o).value = (p.minify o).value := by
  intro o whole first inside second p
  exact ⟨rfl, by decide +kernel, minify_minify_of_plain o p rfl⟩

end Minifier
