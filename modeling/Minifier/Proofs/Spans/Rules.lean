import Minifier.Proofs.Conditions

/-!
# Spans of a tree

The spans of a tree are listed here, those of all its nodes and both of those that have two. A rule
makes nodes at spans that it was given, and only joining expression statements makes spans of its own.
That is said for any *kind* of span: if all spans that go into a rule are of the kind, so are those that
come out, and so are those its findings point to.
-/

namespace Minifier

/-- The spans of a place. -/
def Place.spans (pl : Place) : List Span :=
  [pl.outer, pl.inner]

mutual

/-- The spans of an expression. -/
def Expr.spans : Expr → List Span
  | .binary pl _ left right => pl.spans ++ (left.spans ++ right.spans)
  | .call pl _ callee args => pl.spans ++ (callee.spans ++ exprsSpans args)
  | .index pl object key => pl.spans ++ (object.spans ++ key.spans)
  | .cond pl test yes no => pl.spans ++ (test.spans ++ (yes.spans ++ no.spans))
  | .func pl _ fn => pl.spans ++ fn.spans
  | .member pl object _ => pl.spans ++ object.spans
  | .unary pl _ arg => pl.spans ++ arg.spans
  | .update pl _ arg => pl.spans ++ arg.spans
  | .array pl elements => pl.spans ++ elementsSpans elements
  | .object pl members => pl.spans ++ membersSpans members
  | .ident pl _ | .this pl | .bool pl _ | .null pl | .num pl _ | .regex pl _ | .str pl _
  | .undef pl => pl.spans

/-- The spans of a list of expressions. -/
def exprsSpans : List Expr → List Span
  | [] => []
  | e :: rest => e.spans ++ exprsSpans rest

/-- The spans of an expression that may be absent. -/
def optionSpans : Option Expr → List Span
  | none => []
  | some e => e.spans

/-- The spans of the elements of an array literal. -/
def elementsSpans : List (Option Expr) → List Span
  | [] => []
  | e :: rest => optionSpans e ++ elementsSpans rest

/-- The spans of a function, its parameters included. -/
def Func.spans : Func → List Span
  | .mk span params body => span :: (params.map Param.span ++ stmtsSpans body)

/-- The spans of the members of an object literal. -/
def membersSpans : List Member → List Span
  | [] => []
  | .value span _ e :: rest => span :: (e.spans ++ membersSpans rest)
  | .getter span _ fn :: rest => span :: (fn.spans ++ membersSpans rest)
  | .setter span _ fn :: rest => span :: (fn.spans ++ membersSpans rest)

/-- The spans of declared names, which have none of their own. -/
def declaratorsSpans : List Declarator → List Span
  | [] => []
  | .mk _ init :: rest => optionSpans init ++ declaratorsSpans rest

/-- The spans of a declaration. -/
def VarDecl.spans : VarDecl → List Span
  | .mk span _ declarators => span :: declaratorsSpans declarators

/-- The spans of the head of a loop. -/
def LoopHead.spans : LoopHead → List Span
  | .decl d => d.spans
  | .expr e => e.spans

/-- The spans of what a counting loop starts from. -/
def loopInitSpans : Option LoopHead → List Span
  | none => []
  | some head => head.spans

/-- The spans of the branches of a `switch`. -/
def branchesSpans : List Branch → List Span
  | [] => []
  | .mk span test body :: rest =>
    span :: (optionSpans test ++ (stmtsSpans body ++ branchesSpans rest))

/-- The spans of a block of a `try` statement. -/
def Block.spans : Block → List Span
  | .mk span body => span :: stmtsSpans body

/-- The spans of the `catch` part of a `try` statement. -/
def handlerSpans : Option Handler → List Span
  | none => []
  | some (.mk span _ body) => span :: stmtsSpans body

/-- The spans of the `finally` part of a `try` statement. -/
def finalSpans : Option Block → List Span
  | none => []
  | some block => block.spans

/-- The spans of a statement. -/
def Stmt.spans : Stmt → List Span
  | .block pl body => pl.spans ++ stmtsSpans body
  | .breakTo pl _ | .continueTo pl _ | .debugger pl | .empty pl => pl.spans
  | .doWhile pl body test => pl.spans ++ (body.spans ++ test.spans)
  | .expr pl e => pl.spans ++ e.spans
  | .forIn pl target object body => pl.spans ++ (target.spans ++ (object.spans ++ body.spans))
  | .forLoop pl init test step body => pl.spans ++
    (loopInitSpans init ++ (optionSpans test ++ (optionSpans step ++ body.spans)))
  | .func pl _ fn => pl.spans ++ fn.spans
  | .ite pl test yes no => pl.spans ++ (test.spans ++ (yes.spans ++ elseSpans no))
  | .label pl _ body => pl.spans ++ body.spans
  | .ret pl value => pl.spans ++ optionSpans value
  | .switch pl subject branches => pl.spans ++ (subject.spans ++ branchesSpans branches)
  | .throw pl value => pl.spans ++ value.spans
  | .tryCatch pl body handler final =>
    pl.spans ++ (body.spans ++ (handlerSpans handler ++ finalSpans final))
  | .var outer decl => outer :: decl.spans
  | .whileLoop pl test body => pl.spans ++ (test.spans ++ body.spans)
  | .withObject pl object body => pl.spans ++ (object.spans ++ body.spans)

/-- The spans of an `else` branch. -/
def elseSpans : Option Stmt → List Span
  | none => []
  | some s => s.spans

/-- The spans of a list of statements. -/
def stmtsSpans : List Stmt → List Span
  | [] => []
  | s :: rest => s.spans ++ stmtsSpans rest

end

/-- The spans of a program. -/
def Program.spans (p : Program) : List Span :=
  p.span :: stmtsSpans p.body

attribute [simp] Expr.spans exprsSpans optionSpans elementsSpans Func.spans membersSpans
  declaratorsSpans VarDecl.spans LoopHead.spans loopInitSpans branchesSpans Block.spans handlerSpans
  finalSpans Stmt.spans elseSpans stmtsSpans

/-! ## Spans of one kind -/

/-- All spans of a list are of the given kind. -/
def AllSpans (p : Span → Prop) (spans : List Span) : Prop :=
  ∀ s ∈ spans, p s

/-- The value of a report is as asked for, and its findings point to spans of the given kind. -/
structure Report.Yields {α : Type} (p : Span → Prop) (q : α → Prop) (r : Report α) : Prop where
  value : q r.value
  findings : AllSpans p (r.findings.map Finding.primary)

section Kind

variable {p : Span → Prop}

@[simp] theorem allSpans_nil : AllSpans p [] := by
  simp [AllSpans]

@[simp] theorem allSpans_cons {s : Span} {spans : List Span} :
    AllSpans p (s :: spans) ↔ p s ∧ AllSpans p spans :=
  List.forall_mem_cons

@[simp] theorem allSpans_append {a b : List Span} :
    AllSpans p (a ++ b) ↔ AllSpans p a ∧ AllSpans p b :=
  List.forall_mem_append

/-- Both spans of a place are of the kind. -/
@[simp] theorem allSpans_place {pl : Place} : AllSpans p pl.spans ↔ p pl.outer ∧ p pl.inner := by
  simp [Place.spans]

/-- The spans of a list are of the kind if those of each statement are. -/
theorem allSpans_stmts {body : List Stmt} :
    AllSpans p (stmtsSpans body) ↔ ∀ s ∈ body, AllSpans p s.spans := by
  induction body with
  | nil => simp
  | cons s rest ih => simp [ih]

/-- The span that an expression is known by is one of its spans. -/
theorem Expr.span_mem_spans (e : Expr) : e.span ∈ e.spans := by
  cases e <;> exact List.mem_cons_self

/-- The span that a statement is known by is one of its spans. -/
theorem Stmt.span_mem_spans (s : Stmt) : s.span ∈ s.spans := by
  cases s <;> exact List.mem_cons_self

namespace Report.Yields

variable {α β : Type} {q : α → Prop} {r : β → Prop}

/-- A value without findings. -/
theorem pure {x : α} (holds : q x) : (Pure.pure x : Report α).Yields p q :=
  ⟨holds, allSpans_nil⟩

/-- What holds of the first report and of all that can follow it holds of both together. -/
theorem bind {x : Report α} {f : α → Report β} (first : x.Yields p q)
    (next : ∀ a, q a → (f a).Yields p r) : (x >>= f).Yields p r := by
  have second := next x.value first.value
  refine ⟨second.value, ?_⟩
  rw [Report.findings_bind, List.map_append, allSpans_append]
  exact ⟨first.findings, second.findings⟩

/-- A finding points to a span of the kind, whether it is kept or warnings are off. -/
theorem note {o : Options} {f : Finding} (here : p f.primary) :
    (Report.note o f).Yields p fun _ => True := by
  refine ⟨trivial, ?_⟩
  unfold Report.note
  split
  · simpa using here
  · exact allSpans_nil

/-- Reports on the items of a list are put together to a report on the list. -/
theorem mapM {f : α → Report β} {xs : List α} (each : ∀ x ∈ xs, (f x).Yields p r) :
    (xs.mapM f).Yields p fun ys => ∀ y ∈ ys, r y := by
  induction xs with
  | nil => exact pure (by simp)
  | cons x rest ih =>
    obtain ⟨head, tail⟩ := List.forall_mem_cons.mp each
    rw [List.mapM_cons]
    exact head.bind fun y here => (ih tail).bind fun ys more =>
      pure (List.forall_mem_cons.mpr ⟨here, more⟩)

end Report.Yields

/-! ## Rules for expressions -/

variable {o : Options}

/-- A folded constant stands where the expression stood. -/
theorem spans_toExpr {span : Span} (here : p span) (c : Constant) :
    AllSpans p (c.toExpr span).spans := by
  cases c <;> exact allSpans_place.mpr ⟨here, here⟩

/-- A negation stands at the span it is given, above the expression. -/
theorem spans_not {span : Span} {e : Expr} (here : p span) (inside : AllSpans p e.spans) :
    AllSpans p (Expr.not span e).spans := by
  simpa [Expr.not, Place.both] using ⟨here, inside⟩

theorem spans_binary {span : Span} {op : Operator} {left right : Expr} (here : p span)
    (inLeft : AllSpans p left.spans) (inRight : AllSpans p right.spans) :
    AllSpans p (Expr.binary (.both span) op left right).spans := by
  simpa [Place.both] using ⟨here, inLeft, inRight⟩

theorem spans_cond {span : Span} {test yes no : Expr} (here : p span)
    (inTest : AllSpans p test.spans) (inYes : AllSpans p yes.spans) (inNo : AllSpans p no.spans) :
    AllSpans p (Expr.cond (.both span) test yes no).spans := by
  simpa [Place.both] using ⟨here, inTest, inYes, inNo⟩

/-- The nodes of a negation stand at outer spans of the condition. -/
theorem spans_negate : (e : Expr) → AllSpans p e.spans → AllSpans p (e.negate o).spans
  | .unary pl op arg, inside => by
    have parts := inside
    simp only [Expr.spans, allSpans_append, allSpans_place] at parts
    obtain ⟨⟨outer, _⟩, inArg⟩ := parts
    rw [Expr.negate]
    split
    · exact inArg
    · exact spans_not outer inside
  | .cond pl test yes no, inside => by
    simp only [Expr.spans, allSpans_append, allSpans_place] at inside
    obtain ⟨⟨outer, _⟩, inTest, inYes, inNo⟩ := inside
    rw [Expr.negate]
    exact spans_cond outer inTest (spans_negate yes inYes) (spans_negate no inNo)
  | .binary pl op left right, inside => by
    simp only [Expr.spans, allSpans_append, allSpans_place] at inside
    obtain ⟨⟨outer, _⟩, inLeft, inRight⟩ := inside
    unfold Expr.negate
    split
    · exact spans_binary outer inLeft (spans_negate right inRight)
    · exact spans_binary outer (spans_negate left inLeft) (spans_negate right inRight)
    · exact spans_binary outer (spans_negate left inLeft) (spans_negate right inRight)
    · split
      · exact spans_binary outer inLeft inRight
      · exact spans_not outer (spans_binary outer inLeft inRight)
  | .call .., inside | .index .., inside | .func .., inside | .ident .., inside | .member .., inside
  | .this .., inside | .update .., inside | .array .., inside | .bool .., inside | .null .., inside
  | .num .., inside | .object .., inside | .regex .., inside | .str .., inside | .undef .., inside =>
    spans_not (inside _ (Expr.span_mem_spans _)) inside

/-- A conditional expression keeps to the spans of its parts, turned around or not. -/
theorem spans_condExpr {span : Span} {test yes no : Expr} (here : p span)
    (inTest : AllSpans p test.spans) (inYes : AllSpans p yes.spans) (inNo : AllSpans p no.spans) :
    AllSpans p (condExpr o span test yes no).spans := by
  unfold condExpr Expr.shorter
  split
  · exact spans_cond here (spans_negate test inTest) inNo inYes
  · exact spans_cond here inTest inYes inNo

/-- Folding makes a constant at a span of the expression, or changes nothing. -/
theorem spans_folded {e : Expr} (inside : AllSpans p e.spans) : AllSpans p (e.folded o).spans := by
  unfold Expr.folded
  split
  · exact spans_toExpr (inside _ e.span_mem_spans) _
  · exact inside

/-- A binary expression keeps to the spans of its parts, loosened, folded or as it is. -/
theorem spans_binaryExpr {pl : Place} {op : Operator} {left right : Expr}
    (here : AllSpans p pl.spans) (inLeft : AllSpans p left.spans) (inRight : AllSpans p right.spans) :
    AllSpans p (binaryExpr o pl op left right).spans := by
  have whole (op : Operator) : AllSpans p (Expr.binary pl op left right).spans := by
    simp only [Expr.spans, allSpans_append]
    exact ⟨here, inLeft, inRight⟩
  unfold binaryExpr
  split
  · exact whole op
  · exact spans_folded (whole _)

/-- An index that becomes a member stays where it stood. -/
theorem spans_indexExpr {pl : Place} {object key : Expr} (here : AllSpans p pl.spans)
    (inObject : AllSpans p object.spans) (inKey : AllSpans p key.spans) :
    AllSpans p (indexExpr o pl object key).spans := by
  have whole : AllSpans p (Expr.index pl object key).spans := by
    simp only [Expr.spans, allSpans_append]
    exact ⟨here, inObject, inKey⟩
  have outer : p pl.outer := (allSpans_place.mp here).1
  unfold indexExpr
  split
  · split
    · simpa [Place.both] using ⟨outer, inObject⟩
    · exact whole
  · exact whole

/-! ## Hoisted declarations -/

/-- The span of a declaration is all that is left of its spans without initial values. -/
theorem VarDecl.spans_strip {decl : VarDecl} (here : p decl.span) : AllSpans p decl.strip.spans := by
  obtain ⟨span, mode, declarators⟩ := decl
  simp only [strip, VarDecl.spans, allSpans_cons]
  refine ⟨here, ?_⟩
  induction declarators with
  | nil => exact allSpans_nil
  | cons d rest ih =>
    obtain ⟨name, init⟩ := d
    simp only [List.map_cons, Declarator.strip, declaratorsSpans, allSpans_append]
    refine ⟨?_, ih here⟩
    split
    · exact allSpans_place.mpr ⟨here, here⟩
    · exact allSpans_nil

/-- A hoisted declaration is known by a span that it has as a statement. -/
theorem Hoisted.span_mem_spans (h : Hoisted) : h.span ∈ h.toStmt.spans := by
  cases h <;> exact List.mem_cons_self

/-- A declaration that is made a statement takes its own span for both. -/
theorem Hoisted.spans_var {decl : VarDecl} (inside : AllSpans p decl.spans) :
    AllSpans p (Hoisted.var decl).toStmt.spans := by
  have here : p decl.span := by
    obtain ⟨span, mode, declarators⟩ := decl
    exact (allSpans_cons.mp inside).1
  simp only [Hoisted.toStmt, Stmt.spans, allSpans_cons]
  exact ⟨here, VarDecl.spans_strip here⟩

/-- What is hoisted from a declaration has no other spans. -/
theorem VarDecl.spans_hoisted {decl : VarDecl} (inside : AllSpans p decl.spans) :
    ∀ h ∈ decl.hoisted, AllSpans p h.toStmt.spans := by
  intro h mem
  unfold hoisted at mem
  split at mem
  · obtain rfl := List.mem_singleton.mp mem
    exact Hoisted.spans_var inside
  · cases mem

/-- What is hoisted from the head of a loop has no other spans. -/
theorem LoopHead.spans_hoisted {head : LoopHead} (inside : AllSpans p head.spans) :
    ∀ h ∈ head.hoisted, AllSpans p h.toStmt.spans := by
  cases head with
  | decl decl => exact VarDecl.spans_hoisted inside
  | expr e => simp [hoisted]

mutual

/-- A hoisted declaration has spans of the statement it comes from. -/
theorem Stmt.spans_hoisted : (s : Stmt) → AllSpans p s.spans →
    ∀ h ∈ s.hoisted, AllSpans p h.toStmt.spans
  | .block _ body, inside => stmtsSpans_hoisted body (allSpans_append.mp inside).2
  | .doWhile _ body _, inside => by
    simp only [Stmt.spans, allSpans_append] at inside
    exact body.spans_hoisted inside.2.1
  | .forIn _ target _ body, inside => by
    simp only [Stmt.spans, allSpans_append] at inside
    rw [Stmt.hoisted, List.forall_mem_append]
    exact ⟨LoopHead.spans_hoisted inside.2.1, body.spans_hoisted inside.2.2.2⟩
  | .forLoop _ none _ _ body, inside => by
    simp only [Stmt.spans, allSpans_append] at inside
    simpa using body.spans_hoisted inside.2.2.2.2
  | .forLoop _ (some head) _ _ body, inside => by
    simp only [Stmt.spans, allSpans_append] at inside
    have inHead := LoopHead.spans_hoisted inside.2.1
    have inBody := body.spans_hoisted inside.2.2.2.2
    simpa [or_imp, forall_and] using ⟨inHead, inBody⟩
  | .func pl name fn, inside => by
    simp only [Stmt.spans, allSpans_append, allSpans_place] at inside
    intro h mem
    obtain rfl := List.mem_singleton.mp mem
    simpa [Hoisted.toStmt, Place.both] using ⟨inside.1.2, inside.2⟩
  | .ite _ _ yes none, inside => by
    simp only [Stmt.spans, allSpans_append] at inside
    exact yes.spans_hoisted inside.2.2.1
  | .ite _ _ yes (some no), inside => by
    simp only [Stmt.spans, allSpans_append] at inside
    rw [Stmt.hoisted, List.forall_mem_append]
    exact ⟨yes.spans_hoisted inside.2.2.1, no.spans_hoisted inside.2.2.2⟩
  | .label _ _ body, inside => body.spans_hoisted (allSpans_append.mp inside).2
  | .switch _ _ branches, inside => by
    simp only [Stmt.spans, allSpans_append] at inside
    exact branchesSpans_hoisted branches inside.2.2
  | .tryCatch _ (.mk _ body) handler final, inside => by
    simp only [Stmt.spans, Block.spans, allSpans_append, allSpans_cons] at inside
    obtain ⟨_, ⟨_, inBody⟩, inHandler, inFinal⟩ := inside
    rw [Stmt.hoisted, List.forall_mem_append, List.forall_mem_append]
    exact ⟨⟨stmtsSpans_hoisted body inBody, handlerSpans_hoisted handler inHandler⟩,
      finalSpans_hoisted final inFinal⟩
  | .var _ decl, inside => VarDecl.spans_hoisted (allSpans_cons.mp inside).2
  | .whileLoop _ _ body, inside | .withObject _ _ body, inside => by
    simp only [Stmt.spans, allSpans_append] at inside
    exact body.spans_hoisted inside.2.2
  | .breakTo .., _ | .continueTo .., _ | .debugger .., _ | .empty .., _ | .expr .., _ | .ret .., _
  | .throw .., _ => by simp

theorem stmtsSpans_hoisted : (body : List Stmt) → AllSpans p (stmtsSpans body) →
    ∀ h ∈ stmtsHoisted body, AllSpans p h.toStmt.spans
  | [], _ => by simp
  | s :: rest, inside => by
    obtain ⟨head, tail⟩ := allSpans_append.mp inside
    rw [stmtsHoisted, List.forall_mem_append]
    exact ⟨s.spans_hoisted head, stmtsSpans_hoisted rest tail⟩

theorem branchesSpans_hoisted : (branches : List Branch) → AllSpans p (branchesSpans branches) →
    ∀ h ∈ branchesHoisted branches, AllSpans p h.toStmt.spans
  | [], _ => by simp
  | .mk _ _ body :: rest, inside => by
    simp only [branchesSpans, allSpans_cons, allSpans_append] at inside
    obtain ⟨_, _, inBody, inRest⟩ := inside
    rw [branchesHoisted, List.forall_mem_append]
    exact ⟨stmtsSpans_hoisted body inBody, branchesSpans_hoisted rest inRest⟩

theorem handlerSpans_hoisted : (handler : Option Handler) → AllSpans p (handlerSpans handler) →
    ∀ h ∈ handlerHoisted handler, AllSpans p h.toStmt.spans
  | none, _ => by simp
  | some (.mk _ _ body), inside => stmtsSpans_hoisted body (allSpans_cons.mp inside).2

theorem finalSpans_hoisted : (final : Option Block) → AllSpans p (finalSpans final) →
    ∀ h ∈ finalHoisted final, AllSpans p h.toStmt.spans
  | none, _ => by simp
  | some (.mk _ body), inside => stmtsSpans_hoisted body (allSpans_cons.mp inside).2

end

/-! ## Changes to lists -/

/-- Unwrapping blocks drops the spans of the blocks and adds none. -/
theorem spans_unwrapBlocks {stmts : List Stmt} (inside : ∀ s ∈ stmts, AllSpans p s.spans) :
    ∀ s ∈ unwrapBlocks stmts, AllSpans p s.spans := by
  intro t mem
  obtain ⟨s, found, within⟩ := List.mem_flatMap.mp mem
  have here := inside s found
  unfold Stmt.unwrapped at within
  split at within
  · split at within
    · obtain rfl := List.mem_singleton.mp within
      exact here
    · exact allSpans_stmts.mp (allSpans_append.mp here).2 t within
  · cases within
  · obtain rfl := List.mem_singleton.mp within
    exact here

/-- A declaration that is kept is reported at its own span. -/
theorem yields_keep {h : Hoisted} (inside : AllSpans p h.toStmt.spans) :
    (h.keep o).Yields p fun s => AllSpans p s.spans :=
  (Report.Yields.note (inside _ h.span_mem_spans)).bind fun _ _ => .pure inside

/-- What is kept of an unreachable statement is reported at spans of the statement. -/
theorem yields_keepUnreachable {s : Stmt} (inside : AllSpans p s.spans) :
    (s.keepUnreachable o).Yields p fun kept => ∀ t ∈ kept, AllSpans p t.spans := by
  cases s with
  | func pl name fn => exact .pure (List.forall_mem_singleton.mpr inside)
  | var outer decl =>
    refine .mapM fun h mem => yields_keep ?_
    obtain rfl := List.mem_singleton.mp mem
    exact Hoisted.spans_var (allSpans_cons.mp inside).2
  | _ => exact .mapM fun h mem => yields_keep (Stmt.spans_hoisted _ inside h mem)

theorem yields_keepAllUnreachable {stmts : List Stmt} (inside : ∀ s ∈ stmts, AllSpans p s.spans) :
    (keepAllUnreachable o stmts).Yields p fun kept => ∀ t ∈ kept, AllSpans p t.spans := by
  induction stmts with
  | nil => exact .pure (by simp)
  | cons s rest ih =>
    obtain ⟨head, tail⟩ := List.forall_mem_cons.mp inside
    exact (yields_keepUnreachable head).bind fun kept here => (ih tail).bind fun more there =>
      .pure (List.forall_mem_append.mpr ⟨here, there⟩)

/-- Dropping unreachable statements keeps to the spans of the list. -/
theorem yields_dropUnreachable {stmts : List Stmt} (inside : ∀ s ∈ stmts, AllSpans p s.spans) :
    (dropUnreachable o stmts).Yields p fun kept => ∀ t ∈ kept, AllSpans p t.spans := by
  rw [← splitAtJump_append stmts, List.forall_mem_append] at inside
  exact (yields_keepAllUnreachable inside.2).bind fun kept here =>
    .pure (List.forall_mem_append.mpr ⟨inside.1, here⟩)

/-- The kind of span is closed under covering. -/
def ClosedUnderCover (p : Span → Prop) : Prop :=
  ∀ a b, p a → p b → p (a.cover b)

/-- Joining expression statements makes the cover of two spans, so the kind must be closed under it. -/
theorem spans_joinRuns (closed : ClosedUnderCover p) {pending : Option (Place × Expr)}
    {stmts : List Stmt} (inPending : ∀ q ∈ pending, AllSpans p (Stmt.expr q.1 q.2).spans)
    (inside : ∀ s ∈ stmts, AllSpans p s.spans) :
    ∀ s ∈ joinRuns pending stmts, AllSpans p s.spans := by
  fun_induction joinRuns pending stmts with
  | case1 => exact inside
  | case2 pl e => exact List.forall_mem_singleton.mpr (inPending _ rfl)
  | case3 pl e rest ih =>
    obtain ⟨head, tail⟩ := List.forall_mem_cons.mp inside
    refine ih ?_ tail
    rintro q ⟨⟩
    exact head
  | case4 pl first next second rest span ih =>
    obtain ⟨head, tail⟩ := List.forall_mem_cons.mp inside
    have before := inPending _ rfl
    simp only [Stmt.spans, allSpans_append, allSpans_place] at before head
    have covered : p span := closed _ _ before.1.1 head.1.1
    refine ih ?_ tail
    rintro q ⟨⟩
    simp only [Stmt.spans, allSpans_append, allSpans_place]
    exact ⟨⟨covered, covered⟩, spans_binary covered before.2 head.2⟩
  | case5 s rest other ih =>
    obtain ⟨head, tail⟩ := List.forall_mem_cons.mp inside
    exact List.forall_mem_cons.mpr ⟨head, ih inPending tail⟩
  | case6 pl e s rest other ih =>
    obtain ⟨head, tail⟩ := List.forall_mem_cons.mp inside
    have before := inPending _ rfl
    exact List.forall_mem_cons.mpr ⟨before, List.forall_mem_cons.mpr ⟨head, ih (by simp) tail⟩⟩

/-- Joining an expression with a `return` or a `throw` behind it makes the cover of two spans too. -/
theorem spans_fuse (closed : ClosedUnderCover p) {stmts : List Stmt}
    (inside : ∀ s ∈ stmts, AllSpans p s.spans) : ∀ s ∈ fuse stmts, AllSpans p s.spans := by
  have joined : ∀ s ∈ joinRuns none stmts, AllSpans p s.spans :=
    spans_joinRuns closed (by simp) inside
  -- An expression that goes into the value of a jump, whose spans are covered together.
  have merged {pl last : Place} {first value : Expr} (before : AllSpans p (pl.spans ++ first.spans))
      (after : AllSpans p (last.spans ++ value.spans)) :
      (p (pl.outer.cover last.outer) ∧ p last.inner) ∧
        AllSpans p (Expr.comma (pl.outer.cover value.span) first value).spans := by
    simp only [allSpans_append, allSpans_place] at before after
    have inValue : p value.span := after.2 _ value.span_mem_spans
    exact ⟨⟨closed _ _ before.1.1 after.1.1, after.1.2⟩,
      spans_binary (closed _ _ before.1.1 inValue) before.2 after.2⟩
  unfold fuse
  split
  · next shape =>
    simp only [shape, List.forall_mem_cons] at joined
    have both := merged joined.1 joined.2.1
    exact List.forall_mem_singleton.mpr (allSpans_append.mpr ⟨allSpans_place.mpr both.1, both.2⟩)
  · next shape =>
    simp only [shape, List.forall_mem_cons] at joined
    have both := merged joined.1 joined.2.1
    exact List.forall_mem_singleton.mpr (allSpans_append.mpr ⟨allSpans_place.mpr both.1, both.2⟩)
  · exact joined

/-- All changes to a list keep to the kind, which must be closed under covers only if expressions are
joined. -/
theorem yields_tighten (closed : o.sequences = true → ClosedUnderCover p) {stmts : List Stmt}
    (inside : AllSpans p (stmtsSpans stmts)) :
    (tighten o stmts).Yields p fun kept => AllSpans p (stmtsSpans kept) := by
  have unwrapped := spans_unwrapBlocks (allSpans_stmts.mp inside)
  have reached : (if o.deadCode then dropUnreachable o (unwrapBlocks stmts)
      else pure (unwrapBlocks stmts)).Yields p fun kept => ∀ t ∈ kept, AllSpans p t.spans := by
    split
    · exact yields_dropUnreachable unwrapped
    · exact .pure unwrapped
  rw [tighten_eq]
  refine reached.bind fun kept here => .pure ?_
  rw [allSpans_stmts]
  split
  · next joins => exact spans_fuse (closed joins) here
  · exact here

/-! ## Rules for statements -/

/-- A block of one statement may become that statement, with its own spans. -/
theorem spans_blockStmt {pl : Place} {body : List Stmt} (here : AllSpans p pl.spans)
    (inside : AllSpans p (stmtsSpans body)) : AllSpans p (blockStmt pl body).spans := by
  have whole : AllSpans p (Stmt.block pl body).spans := allSpans_append.mpr ⟨here, inside⟩
  unfold blockStmt
  split
  · split
    · exact whole
    · exact allSpans_stmts.mp inside _ List.mem_cons_self
  · exact whole

theorem spans_ofExpr {e : Expr} (inside : AllSpans p e.spans) : AllSpans p (Stmt.ofExpr e).spans := by
  have here : p e.span := inside _ e.span_mem_spans
  simpa [Stmt.ofExpr, Place.both] using ⟨here, inside⟩

/-- An expression statement that is placed anew takes the span of its expression. -/
theorem spans_respan {s : Stmt} (inside : AllSpans p s.spans) : AllSpans p s.respan.spans := by
  cases s with
  | expr pl e => exact spans_ofExpr (allSpans_append.mp inside).2
  | _ => exact inside

/-- Braces that are put around a branch stand at the span of the branch. -/
theorem spans_ifStmt {span : Span} {test : Expr} {yes : Stmt} {no : Option Stmt} (here : p span)
    (inTest : AllSpans p test.spans) (inYes : AllSpans p yes.spans)
    (inNo : ∀ s ∈ no, AllSpans p s.spans) : AllSpans p (ifStmt span test yes no).spans := by
  have inElse : AllSpans p (elseSpans no) := by
    cases no with
    | none => exact allSpans_nil
    | some s => exact inNo s rfl
  have braced : AllSpans p (if no.isSome && yes.endsWithOpenIf then
      Stmt.block (.both yes.span) [yes] else yes).spans := by
    have atYes : p yes.span := inYes _ yes.span_mem_spans
    split
    · simpa [Place.both] using ⟨atYes, inYes⟩
    · exact inYes
  simp only [ifStmt, Stmt.spans, allSpans_append, allSpans_place]
  exact ⟨⟨here, here⟩, inTest, braced, inElse⟩

/-- A label that is dropped is reported at its own span. -/
theorem yields_labelStmt {pl : Place} {name : String} {body : Stmt} (here : AllSpans p pl.spans)
    (inside : AllSpans p body.spans) :
    (labelStmt o pl name body).Yields p fun s => AllSpans p s.spans := by
  unfold labelStmt
  split
  · exact (Report.Yields.note (allSpans_place.mp here).1).bind fun _ _ => .pure inside
  · exact .pure (allSpans_append.mpr ⟨here, inside⟩)

section Conditions

variable {span : Span} {test : Expr} {truth : Bool} {yes : Stmt} {no : Option Stmt}

/-- An `if` with a constant condition is reported at the condition and keeps to the spans of its
branches. -/
theorem yields_constantIf (here : p span) (inTest : AllSpans p test.spans)
    (inYes : AllSpans p yes.spans) (inNo : ∀ s ∈ no, AllSpans p s.spans) :
    (constantIf o span test truth yes no).Yields p fun s => AllSpans p s.spans := by
  have noted : p (Finding.constantCondition truth test.span).primary := by
    have atTest : p test.span := inTest _ test.span_mem_spans
    cases truth <;> exact atTest
  have inLive : ∀ s ∈ liveBranch truth yes no, AllSpans p s.spans := by
    unfold liveBranch
    split
    · rintro s ⟨⟩
      exact inYes
    · exact inNo
  have inDead : ∀ h ∈ deadHoisted truth yes no, AllSpans p h.toStmt.spans := by
    intro h mem
    obtain ⟨s, found, within⟩ := List.mem_flatMap.mp mem
    refine s.spans_hoisted ?_ h within
    split at found
    · exact inNo s (Option.mem_toList.mp found)
    · obtain rfl := List.mem_singleton.mp found
      exact inYes
  refine (Report.Yields.note noted).bind fun _ _ => ?_
  dsimp only
  rw [← deadHoisted, ← liveBranch]
  split
  · exact .pure (spans_ifStmt here inTest inYes inNo)
  · generalize deadHoisted truth yes no = hoisted at *
    generalize liveBranch truth yes no = live at *
    split
    · exact .pure (inLive _ rfl)
    · exact .pure (allSpans_place.mpr ⟨here, here⟩)
    · have remains : ∀ s ∈ hoisted.map Hoisted.toStmt ++ live.toList, AllSpans p s.spans := by
        rw [List.forall_mem_append, List.forall_mem_map]
        exact ⟨inDead, fun s mem => inLive s (Option.mem_toList.mp mem)⟩
      have unwrapped := spans_unwrapBlocks remains
      split
      · next only shape =>
        rw [shape] at unwrapped
        exact .pure (unwrapped only List.mem_cons_self)
      · exact .pure (allSpans_append.mpr
          ⟨allSpans_place.mpr ⟨here, here⟩, allSpans_stmts.mpr unwrapped⟩)

/-- So does every other `if`, whatever becomes of it. -/
theorem yields_simplifyIf (here : p span) (inTest : AllSpans p test.spans)
    (inYes : AllSpans p yes.spans) (inNo : ∀ s ∈ no, AllSpans p s.spans) :
    (simplifyIf o span test yes no).Yields p fun s => AllSpans p s.spans := by
  have inElse : ∀ s ∈ no.filter (fun s => !s.isIdle), AllSpans p s.spans :=
    fun s mem => inNo s (Option.filter_eq_some_iff.mp mem).1
  unfold simplifyIf
  generalize no.filter (fun s => !s.isIdle) = busy at inElse
  dsimp only
  split
  · next c known =>
    have literal := spans_toExpr (inTest _ test.span_mem_spans) c
    exact yields_constantIf here literal inYes inElse
  · split
    · next a other shape =>
      obtain ⟨pl, rfl⟩ := Stmt.eq_expr_of_expr? shape
      split
      · next b shape =>
        obtain ⟨pl', rfl⟩ := Stmt.eq_expr_of_expr? shape
        exact .pure (spans_ofExpr (spans_condExpr here inTest (allSpans_append.mp inYes).2
          (allSpans_append.mp (inElse _ rfl)).2))
      · exact .pure (spans_ifStmt here inTest (spans_respan inYes) inElse)
    · next a shape =>
      obtain ⟨pl, rfl⟩ := Stmt.eq_expr_of_expr? shape
      exact .pure (spans_ofExpr (spans_binary here inTest (allSpans_append.mp inYes).2))
    · next other shape =>
      split
      · split
        · next b shape =>
          obtain ⟨pl, rfl⟩ := Stmt.eq_expr_of_expr? shape
          exact .pure (spans_ofExpr (spans_binary here inTest (allSpans_append.mp (inElse _ rfl)).2))
        · exact .pure (spans_ifStmt here (spans_negate test inTest) (inElse _ rfl) (by simp))
      · refine .pure (spans_ifStmt here inTest inYes ?_)
        rintro s ⟨⟩
        exact spans_respan (inElse other rfl)
    · exact .pure (spans_ifStmt here inTest inYes (by simp))

end Conditions

end Kind

end Minifier
