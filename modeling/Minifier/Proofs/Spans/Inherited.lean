import Minifier.Proofs.Spans.Rules

/-!
# Where spans come from

Each span in a simplified tree, and each span that a finding points to, goes back to spans of the tree:
it starts where one of them starts and stops where one of them stops. If expression statements are not
joined, it is one of them. Both facts come from one induction, over any kind of span that is closed
under covering if expression statements are joined.
-/

namespace Minifier

section Trees

variable {p : Span → Prop} {o : Options}

-- The linter does not see the calls from one theorem of a mutual block to another.
set_option linter.unusedSectionVars false

variable (closed : o.sequences = true → ClosedUnderCover p)
include closed

mutual

/-- A simplified expression has spans of the kind that the expression has, and so have the findings. -/
theorem Expr.yields_minify : (e : Expr) → AllSpans p e.spans →
    (e.minify o).Yields p fun e => AllSpans p e.spans
  | .binary pl op left right, inside => by
    simp only [Expr.spans, allSpans_append] at inside
    obtain ⟨here, inLeft, inRight⟩ := inside
    exact (left.yields_minify inLeft).bind fun _ atLeft => (right.yields_minify inRight).bind
      fun _ atRight => .pure (spans_binaryExpr here atLeft atRight)
  | .call pl isNew callee args, inside => by
    simp only [Expr.spans, allSpans_append] at inside
    obtain ⟨here, inCallee, inArgs⟩ := inside
    refine (callee.yields_minify inCallee).bind fun _ atCallee =>
      (exprs_yield_minify args inArgs).bind fun _ atArgs => .pure ?_
    simp only [Expr.spans, allSpans_append]
    exact ⟨here, atCallee, atArgs⟩
  | .index pl object key, inside => by
    simp only [Expr.spans, allSpans_append] at inside
    obtain ⟨here, inObject, inKey⟩ := inside
    exact (object.yields_minify inObject).bind fun _ atObject => (key.yields_minify inKey).bind
      fun _ atKey => .pure (spans_indexExpr here atObject atKey)
  | .cond pl test yes no, inside => by
    simp only [Expr.spans, allSpans_append] at inside
    obtain ⟨here, inTest, inYes, inNo⟩ := inside
    have outer : p pl.outer := (allSpans_place.mp here).1
    refine (test.yields_minify inTest).bind fun _ atTest => (yes.yields_minify inYes).bind
      fun _ atYes => (no.yields_minify inNo).bind fun _ atNo => .pure ?_
    split
    · exact spans_condExpr outer atTest atYes atNo
    · exact spans_cond outer atTest atYes atNo
  | .func pl name fn, inside => by
    obtain ⟨here, inFunc⟩ := allSpans_append.mp inside
    exact (fn.yields_minify inFunc).bind fun _ atFunc => .pure (allSpans_append.mpr ⟨here, atFunc⟩)
  | .member pl object name, inside => by
    obtain ⟨here, inObject⟩ := allSpans_append.mp inside
    exact (object.yields_minify inObject).bind fun _ atObject =>
      .pure (allSpans_append.mpr ⟨here, atObject⟩)
  | .unary pl op arg, inside => by
    obtain ⟨here, inArg⟩ := allSpans_append.mp inside
    exact (arg.yields_minify inArg).bind fun _ atArg =>
      .pure (spans_folded (allSpans_append.mpr ⟨here, atArg⟩))
  | .update pl op arg, inside => by
    obtain ⟨here, inArg⟩ := allSpans_append.mp inside
    exact (arg.yields_minify inArg).bind fun _ atArg => .pure (allSpans_append.mpr ⟨here, atArg⟩)
  | .array pl elements, inside => by
    obtain ⟨here, inElements⟩ := allSpans_append.mp inside
    exact (elements_yield_minify elements inElements).bind fun _ atElements =>
      .pure (allSpans_append.mpr ⟨here, atElements⟩)
  | .object pl members, inside => by
    obtain ⟨here, inMembers⟩ := allSpans_append.mp inside
    exact (members_yield_minify members inMembers).bind fun _ atMembers =>
      .pure (allSpans_append.mpr ⟨here, atMembers⟩)
  | .ident .., inside | .this .., inside | .bool .., inside | .null .., inside | .num .., inside
  | .regex .., inside | .str .., inside | .undef .., inside => .pure inside

/-- Simplified expressions of a list have spans of the kind. -/
theorem exprs_yield_minify : (es : List Expr) → AllSpans p (exprsSpans es) →
    (minifyExprs o es).Yields p fun es => AllSpans p (exprsSpans es)
  | [], inside => .pure inside
  | e :: rest, inside => by
    obtain ⟨head, tail⟩ := allSpans_append.mp inside
    exact (e.yields_minify head).bind fun _ atHead => (exprs_yield_minify rest tail).bind
      fun _ atTail => .pure (allSpans_append.mpr ⟨atHead, atTail⟩)

theorem option_yields_minify : (e : Option Expr) → AllSpans p (optionSpans e) →
    (minifyOption o e).Yields p fun e => AllSpans p (optionSpans e)
  | none, inside => .pure inside
  | some e, inside => (e.yields_minify inside).bind fun _ here => .pure here

theorem elements_yield_minify : (es : List (Option Expr)) → AllSpans p (elementsSpans es) →
    (minifyElements o es).Yields p fun es => AllSpans p (elementsSpans es)
  | [], inside => .pure inside
  | e :: rest, inside => by
    obtain ⟨head, tail⟩ := allSpans_append.mp inside
    exact (option_yields_minify e head).bind fun _ atHead => (elements_yield_minify rest tail).bind
      fun _ atTail => .pure (allSpans_append.mpr ⟨atHead, atTail⟩)

/-- A simplified function has spans of the kind. -/
theorem Func.yields_minify : (fn : Func) → AllSpans p fn.spans →
    (fn.minify o).Yields p fun fn => AllSpans p fn.spans
  | .mk span params body, inside => by
    simp only [Func.spans, allSpans_cons, allSpans_append] at inside
    obtain ⟨here, inParams, inBody⟩ := inside
    refine (stmts_yield_minify body inBody).bind fun _ each =>
      (yields_tighten closed each).bind fun _ atBody => .pure ?_
    simp only [Func.spans, allSpans_cons, allSpans_append]
    exact ⟨here, inParams, atBody⟩

theorem members_yield_minify : (members : List Member) → AllSpans p (membersSpans members) →
    (minifyMembers o members).Yields p fun members => AllSpans p (membersSpans members)
  | [], inside => .pure inside
  | .value span key e :: rest, inside => by
    simp only [membersSpans, allSpans_cons, allSpans_append] at inside
    obtain ⟨here, head, tail⟩ := inside
    refine (e.yields_minify head).bind fun _ atHead => (members_yield_minify rest tail).bind
      fun _ atTail => .pure ?_
    simp only [membersSpans, allSpans_cons, allSpans_append]
    exact ⟨here, atHead, atTail⟩
  | .getter span key fn :: rest, inside | .setter span key fn :: rest, inside => by
    simp only [membersSpans, allSpans_cons, allSpans_append] at inside
    obtain ⟨here, head, tail⟩ := inside
    refine (fn.yields_minify head).bind fun _ atHead => (members_yield_minify rest tail).bind
      fun _ atTail => .pure ?_
    simp only [membersSpans, allSpans_cons, allSpans_append]
    exact ⟨here, atHead, atTail⟩

theorem declarators_yield_minify : (declarators : List Declarator) →
    AllSpans p (declaratorsSpans declarators) →
    (minifyDeclarators o declarators).Yields p fun ds => AllSpans p (declaratorsSpans ds)
  | [], inside => .pure inside
  | .mk name init :: rest, inside => by
    obtain ⟨head, tail⟩ := allSpans_append.mp inside
    exact (option_yields_minify init head).bind fun _ atHead => (declarators_yield_minify rest tail).bind
      fun _ atTail => .pure (allSpans_append.mpr ⟨atHead, atTail⟩)

theorem VarDecl.yields_minify : (decl : VarDecl) → AllSpans p decl.spans →
    (decl.minify o).Yields p fun decl => AllSpans p decl.spans
  | .mk span mode declarators, inside => by
    obtain ⟨here, inDeclarators⟩ := allSpans_cons.mp inside
    exact (declarators_yield_minify declarators inDeclarators).bind fun _ atDeclarators =>
      .pure (allSpans_cons.mpr ⟨here, atDeclarators⟩)

theorem LoopHead.yields_minify : (head : LoopHead) → AllSpans p head.spans →
    (head.minify o).Yields p fun head => AllSpans p head.spans
  | .decl decl, inside => (decl.yields_minify inside).bind fun _ here => .pure here
  | .expr e, inside => (e.yields_minify inside).bind fun _ here => .pure here

theorem loopInit_yields_minify : (init : Option LoopHead) → AllSpans p (loopInitSpans init) →
    (minifyLoopInit o init).Yields p fun init => AllSpans p (loopInitSpans init)
  | none, inside => .pure inside
  | some head, inside => (head.yields_minify inside).bind fun _ here => .pure here

/-- Simplified branches of a `switch` have spans of the kind. -/
theorem branches_yield_minify : (branches : List Branch) → AllSpans p (branchesSpans branches) →
    (minifyBranches o branches).Yields p fun branches => AllSpans p (branchesSpans branches)
  | [], inside => .pure inside
  | .mk span test body :: rest, inside => by
    simp only [branchesSpans, allSpans_cons, allSpans_append] at inside
    obtain ⟨here, inTest, inBody, inRest⟩ := inside
    refine (option_yields_minify test inTest).bind fun _ atTest =>
      (stmts_yield_minify body inBody).bind fun _ each => (yields_tighten closed each).bind
      fun _ atBody => (branches_yield_minify rest inRest).bind fun _ atRest => .pure ?_
    simp only [branchesSpans, allSpans_cons, allSpans_append]
    exact ⟨here, atTest, atBody, atRest⟩

theorem Block.yields_minify : (block : Block) → AllSpans p block.spans →
    (block.minify o).Yields p fun block => AllSpans p block.spans
  | .mk span body, inside => by
    obtain ⟨here, inBody⟩ := allSpans_cons.mp inside
    exact (stmts_yield_minify body inBody).bind fun _ each => (yields_tighten closed each).bind
      fun _ atBody => .pure (allSpans_cons.mpr ⟨here, atBody⟩)

theorem handler_yields_minify : (handler : Option Handler) → AllSpans p (handlerSpans handler) →
    (minifyHandler o handler).Yields p fun handler => AllSpans p (handlerSpans handler)
  | none, inside => .pure inside
  | some (.mk span param body), inside => by
    obtain ⟨here, inBody⟩ := allSpans_cons.mp inside
    exact (stmts_yield_minify body inBody).bind fun _ each => (yields_tighten closed each).bind
      fun _ atBody => .pure (allSpans_cons.mpr ⟨here, atBody⟩)

theorem final_yields_minify : (final : Option Block) → AllSpans p (finalSpans final) →
    (minifyFinal o final).Yields p fun final => AllSpans p (finalSpans final)
  | none, inside => .pure inside
  | some block, inside => (block.yields_minify inside).bind fun _ here => .pure here

/-- A simplified statement has spans of the kind that the statement has, and so have the findings. -/
theorem Stmt.yields_minify : (s : Stmt) → AllSpans p s.spans →
    (s.minify o).Yields p fun s => AllSpans p s.spans
  | .block pl body, inside => by
    obtain ⟨here, inBody⟩ := allSpans_append.mp inside
    exact (stmts_yield_minify body inBody).bind fun _ each => (yields_tighten closed each).bind
      fun _ atBody => .pure (spans_blockStmt here atBody)
  | .debugger pl, inside => by
    have outer : p pl.outer := (allSpans_place.mp inside).1
    rw [Stmt.minify]
    apply Report.Yields.pure
    split
    · exact allSpans_place.mpr ⟨outer, outer⟩
    · exact inside
  | .doWhile pl body test, inside => by
    simp only [Stmt.spans, allSpans_append] at inside
    obtain ⟨here, inBody, inTest⟩ := inside
    refine (body.yields_minify inBody).bind fun _ atBody => (test.yields_minify inTest).bind
      fun _ atTest => .pure ?_
    simp only [Stmt.spans, allSpans_append]
    exact ⟨here, atBody, atTest⟩
  | .expr pl e, inside => by
    obtain ⟨here, inExpr⟩ := allSpans_append.mp inside
    exact (e.yields_minify inExpr).bind fun _ atExpr => .pure (allSpans_append.mpr ⟨here, atExpr⟩)
  | .forIn pl target object body, inside => by
    simp only [Stmt.spans, allSpans_append] at inside
    obtain ⟨here, inTarget, inObject, inBody⟩ := inside
    refine (target.yields_minify inTarget).bind fun _ atTarget => (object.yields_minify inObject).bind
      fun _ atObject => (body.yields_minify inBody).bind fun _ atBody => .pure ?_
    simp only [Stmt.spans, allSpans_append]
    exact ⟨here, atTarget, atObject, atBody⟩
  | .forLoop pl init test step body, inside => by
    simp only [Stmt.spans, allSpans_append] at inside
    obtain ⟨here, inInit, inTest, inStep, inBody⟩ := inside
    refine (loopInit_yields_minify init inInit).bind fun _ atInit =>
      (option_yields_minify test inTest).bind fun _ atTest => (option_yields_minify step inStep).bind
      fun _ atStep => (body.yields_minify inBody).bind fun _ atBody => .pure ?_
    simp only [Stmt.spans, allSpans_append]
    exact ⟨here, atInit, atTest, atStep, atBody⟩
  | .func pl name fn, inside => by
    obtain ⟨here, inFunc⟩ := allSpans_append.mp inside
    exact (fn.yields_minify inFunc).bind fun _ atFunc => .pure (allSpans_append.mpr ⟨here, atFunc⟩)
  | .ite pl test yes no, inside => by
    simp only [Stmt.spans, allSpans_append] at inside
    obtain ⟨here, inTest, inYes, inNo⟩ := inside
    have outer : p pl.outer := (allSpans_place.mp here).1
    refine (test.yields_minify inTest).bind fun _ atTest => (yes.yields_minify inYes).bind
      fun _ atYes => (else_yields_minify no inNo).bind fun _ atNo => ?_
    split
    · exact yields_simplifyIf outer atTest atYes atNo
    · exact .pure (spans_ifStmt outer atTest atYes atNo)
  | .label pl name body, inside => by
    obtain ⟨here, inBody⟩ := allSpans_append.mp inside
    exact (body.yields_minify inBody).bind fun _ atBody => yields_labelStmt here atBody
  | .ret pl value, inside => by
    obtain ⟨here, inValue⟩ := allSpans_append.mp inside
    exact (option_yields_minify value inValue).bind fun _ atValue =>
      .pure (allSpans_append.mpr ⟨here, atValue⟩)
  | .switch pl subject branches, inside => by
    simp only [Stmt.spans, allSpans_append] at inside
    obtain ⟨here, inSubject, inBranches⟩ := inside
    refine (subject.yields_minify inSubject).bind fun _ atSubject =>
      (branches_yield_minify branches inBranches).bind fun _ atBranches => .pure ?_
    simp only [Stmt.spans, allSpans_append]
    exact ⟨here, atSubject, atBranches⟩
  | .throw pl value, inside => by
    obtain ⟨here, inValue⟩ := allSpans_append.mp inside
    exact (value.yields_minify inValue).bind fun _ atValue =>
      .pure (allSpans_append.mpr ⟨here, atValue⟩)
  | .tryCatch pl body handler final, inside => by
    simp only [Stmt.spans, allSpans_append] at inside
    obtain ⟨here, inBody, inHandler, inFinal⟩ := inside
    refine (body.yields_minify inBody).bind fun _ atBody => (handler_yields_minify handler inHandler).bind
      fun _ atHandler => (final_yields_minify final inFinal).bind fun _ atFinal => .pure ?_
    simp only [Stmt.spans, allSpans_append]
    exact ⟨here, atBody, atHandler, atFinal⟩
  | .var outer decl, inside => by
    obtain ⟨here, inDecl⟩ := allSpans_cons.mp inside
    exact (decl.yields_minify inDecl).bind fun _ atDecl => .pure (allSpans_cons.mpr ⟨here, atDecl⟩)
  | .whileLoop pl test body, inside => by
    simp only [Stmt.spans, allSpans_append] at inside
    obtain ⟨here, inTest, inBody⟩ := inside
    refine (test.yields_minify inTest).bind fun _ atTest => (body.yields_minify inBody).bind
      fun _ atBody => .pure ?_
    simp only [Stmt.spans, allSpans_append]
    exact ⟨here, atTest, atBody⟩
  | .withObject pl object body, inside => by
    simp only [Stmt.spans, allSpans_append] at inside
    obtain ⟨here, inObject, inBody⟩ := inside
    refine (object.yields_minify inObject).bind fun _ atObject => (body.yields_minify inBody).bind
      fun _ atBody => .pure ?_
    simp only [Stmt.spans, allSpans_append]
    exact ⟨here, atObject, atBody⟩
  | .breakTo .., inside | .continueTo .., inside | .empty .., inside => .pure inside

theorem else_yields_minify : (no : Option Stmt) → AllSpans p (elseSpans no) →
    (minifyElse o no).Yields p fun no => ∀ s ∈ no, AllSpans p s.spans
  | none, _ => .pure (by simp)
  | some s, inside => (s.yields_minify inside).bind fun _ here => .pure (by simpa using here)

/-- Simplified statements of a list have spans of the kind. -/
theorem stmts_yield_minify : (body : List Stmt) → AllSpans p (stmtsSpans body) →
    (minifyStmts o body).Yields p fun body => AllSpans p (stmtsSpans body)
  | [], inside => .pure inside
  | s :: rest, inside => by
    obtain ⟨head, tail⟩ := allSpans_append.mp inside
    exact (s.yields_minify head).bind fun _ atHead => (stmts_yield_minify rest tail).bind
      fun _ atTail => .pure (allSpans_append.mpr ⟨atHead, atTail⟩)

end

/-- A simplified program and the findings about it have spans of the kind. -/
theorem Program.yields_minify {program : Program} (inside : AllSpans p program.spans) :
    (program.minify o).Yields p fun program => AllSpans p program.spans := by
  obtain ⟨here, inBody⟩ := allSpans_cons.mp inside
  have simplified : (minifyBody o program.body).Yields p fun body => AllSpans p (stmtsSpans body) :=
    (stmts_yield_minify closed program.body inBody).bind fun _ each => yields_tighten closed each
  exact simplified.bind fun _ atBody => .pure (allSpans_cons.mpr ⟨here, atBody⟩)

end Trees

/-! ## Spans that are inherited -/

/-- The span starts where a span of the list starts, and stops where one stops. -/
def Span.IsBetween (spans : List Span) (s : Span) : Prop :=
  (∃ a ∈ spans, a.start = s.start) ∧ ∃ b ∈ spans, b.stop = s.stop

/-- The cover of two spans starts where one of them starts. -/
theorem Span.start_cover (a b : Span) :
    (a.cover b).start = a.start ∨ (a.cover b).start = b.start := by
  change (if a.start ≤ b.start then a.start else b.start) = _ ∨ _
  split
  · exact .inl rfl
  · exact .inr (if_neg ‹_›)

/-- It stops where one of them stops. -/
theorem Span.stop_cover (a b : Span) :
    (a.cover b).stop = a.stop ∨ (a.cover b).stop = b.stop := by
  change (if a.stop ≤ b.stop then b.stop else a.stop) = _ ∨ _
  split
  · exact .inr (if_pos ‹_›)
  · exact .inl rfl

/-- Covering leads to no new starts and stops. -/
theorem Span.closed_isBetween (spans : List Span) : ClosedUnderCover (IsBetween spans) := by
  rintro a b ⟨⟨s, inS, starts⟩, t, inT, stops⟩ ⟨⟨s', inS', starts'⟩, t', inT', stops'⟩
  constructor
  · rcases a.start_cover b with first | second
    · exact ⟨s, inS, starts.trans first.symm⟩
    · exact ⟨s', inS', starts'.trans second.symm⟩
  · rcases a.stop_cover b with first | second
    · exact ⟨t, inT, stops.trans first.symm⟩
    · exact ⟨t', inT', stops'.trans second.symm⟩

/-- All spans of a result and of its findings. -/
def Report.spans (r : Report Program) : List Span :=
  r.value.spans ++ r.findings.map Finding.primary

/-- A kind of spans that the spans of a program belong to is kept, if it is closed under covering or
expression statements are not joined. -/
theorem Program.allSpans_minify {kind : Span → Prop} {o : Options} {p : Program}
    (closed : o.sequences = true → ClosedUnderCover kind) (inside : AllSpans kind p.spans) :
    AllSpans kind (p.minify o).spans := by
  have yields := Program.yields_minify closed inside
  exact allSpans_append.mpr ⟨yields.value, yields.findings⟩

/-- No span is made up. Each span of a simplified program, and each span that a finding points to,
starts where a span of the program starts and stops where one stops. If expression statements are not
joined, it is a span of the program itself. -/
theorem spans_inherited (o : Options) (p : Program) (s : Span) (mem : s ∈ (p.minify o).spans) :
    s.IsBetween p.spans ∧ (o.sequences = false → s ∈ p.spans) := by
  constructor
  · have each : AllSpans (Span.IsBetween p.spans) p.spans := fun a found =>
      ⟨⟨a, found, rfl⟩, a, found, rfl⟩
    exact Program.allSpans_minify (fun _ => Span.closed_isBetween p.spans) each s mem
  · intro apart
    have never : o.sequences = true → ClosedUnderCover (· ∈ p.spans) := by simp [apart]
    exact Program.allSpans_minify never (fun _ found => found) s mem

/-- The case of `a; b;`. The two statements become one, whose span is no span of the program. -/
theorem spans_inherited_joined :
    let first : Place := .both ⟨1, 3⟩
    let second : Place := .both ⟨4, 6⟩
    let p : Program := ⟨⟨0, 9⟩, [.expr first (.ident first "a"), .expr second (.ident second "b")]⟩
    let o := Options.all true
    let joined : Span := ⟨1, 6⟩
    joined ∈ (p.minify o).spans ∧ joined ∉ p.spans ∧
      joined.IsBetween p.spans ∧ (o.sequences = false → joined ∈ p.spans) := by
  intro first second p o joined
  have mem : joined ∈ (p.minify o).spans := by decide
  exact ⟨mem, by decide, spans_inherited o p joined mem⟩

end Minifier
