import Minifier.Proofs.Conditions
import Minifier.Session

/-!
# The frame of a session

A session goes through a whole tree, and enters and leaves nodes on the way. When it is through,
everything is as it was, but for new findings behind the earlier ones. What had been entered or found
before makes no difference to the tree or to the new findings, and whether findings are wanted makes
none to the tree.

A step of a session is put together from a few others: applying a rule, doing something inside a node,
doing one thing after another. Each of them has the frame if its parts have, so a whole tree has it.
-/

namespace Minifier

/-- The options, with others for whether findings are wanted and for what is reserved. -/
def Options.reporting (o : Options) (warnings pristine : Bool) : Options :=
  { o with warnings, pristine }

/-! ## Rules -/

/-- Whether findings are wanted makes no difference to a rule, but for the findings. -/
structure Discreet {α : Type} (rule : Options → Report α) : Prop where
  value : ∀ o warnings pristine, (rule (o.reporting warnings pristine)).value = (rule o).value
  silent : ∀ o, o.warnings = false → (rule o).findings = []

namespace Discreet

variable {α β : Type}

/-- A value that does not depend on what is reported is the same whether findings are wanted or not. -/
theorem pure {f : Options → α} (same : ∀ o w p, f (o.reporting w p) = f o) :
    Discreet fun o => Pure.pure (f o) where
  value := same
  silent _ _ := rfl

/-- One rule after another is discreet if both are. -/
theorem bind {first : Options → Report α} {next : α → Options → Report β} (before : Discreet first)
    (after : ∀ a, Discreet (next a)) : Discreet fun o => first o >>= fun a => next a o where
  value o w p := by
    rw [Report.value_bind, Report.value_bind, before.value]
    exact (after _).value o w p
  silent o off := by
    rw [Report.findings_bind, before.silent o off, (after _).silent o off, List.append_nil]

/-- A finding is no value, and none is noted if none is wanted. -/
theorem note (f : Finding) : Discreet fun o => Report.note o f where
  value _ _ _ := rfl
  silent o off := by simp [Report.note, off]

/-- A choice between two rules is discreet if it is made by another option. -/
theorem ite {c : Options → Bool} {yes no : Options → Report α}
    (same : ∀ o w p, c (o.reporting w p) = c o) (atYes : Discreet yes) (atNo : Discreet no) :
    Discreet fun o => if c o then yes o else no o where
  value o w p := by
    rw [same]
    split
    · exact atYes.value o w p
    · exact atNo.value o w p
  silent o off := by
    split
    · exact atYes.silent o off
    · exact atNo.silent o off

end Discreet

/-- What is reported makes no difference to a negation. -/
theorem Expr.negate_reporting (o : Options) (w p : Bool) :
    (e : Expr) → e.negate (o.reporting w p) = e.negate o
  | .binary pl op left right => by
    unfold negate
    rw [left.negate_reporting, right.negate_reporting]
    rfl
  | .cond pl test yes no => by
    unfold negate
    rw [yes.negate_reporting, no.negate_reporting]
  | .call .. | .index .. | .func .. | .ident .. | .member .. | .this .. | .unary .. | .update ..
  | .array .. | .bool .. | .null .. | .num .. | .object .. | .regex .. | .str .. | .undef .. => rfl

/-- Nor to a conditional expression. -/
theorem condExpr_reporting (o : Options) (w p : Bool) (span : Span) (test yes no : Expr) :
    condExpr (o.reporting w p) span test yes no = condExpr o span test yes no := by
  rw [condExpr, condExpr, test.negate_reporting]

/-- A rule that is applied to each item of a list is discreet if it is so for each item. -/
theorem discreet_mapM {α β : Type} {f : α → Options → Report β} (each : ∀ a, Discreet (f a)) (xs : List α) :
    Discreet fun o => xs.mapM fun a => f a o := by
  induction xs with
  | nil => exact .pure fun _ _ _ => rfl
  | cons x rest ih =>
    simp only [List.mapM_cons]
    exact (each x).bind fun _ => ih.bind fun _ => .pure fun _ _ _ => rfl

/-- What is kept of an unreachable statement does not depend on the findings about it. -/
theorem discreet_keepUnreachable (s : Stmt) : Discreet fun o => s.keepUnreachable o := by
  have kept (hoisted : List Hoisted) : Discreet fun o => hoisted.mapM (Hoisted.keep o) :=
    discreet_mapM (fun h => (Discreet.note _).bind fun _ => .pure fun _ _ _ => rfl) hoisted
  cases s with
  | func pl name fn => exact .pure fun _ _ _ => rfl
  | _ => exact kept _

/-- The same for all statements behind a jump. -/
theorem discreet_keepAllUnreachable (stmts : List Stmt) : Discreet fun o => keepAllUnreachable o stmts := by
  induction stmts with
  | nil => exact .pure fun _ _ _ => rfl
  | cons s rest ih =>
    exact (discreet_keepUnreachable s).bind fun _ => ih.bind fun _ => .pure fun _ _ _ => rfl

/-- All changes to a list are discreet: only dropping unreachable statements reports anything. -/
theorem discreet_tighten (stmts : List Stmt) : Discreet fun o => tighten o stmts := by
  have reached : Discreet fun o => if o.deadCode then dropUnreachable o (unwrapBlocks stmts)
      else pure (unwrapBlocks stmts) := by
    refine .ite (fun _ _ _ => rfl) ?_ (.pure fun _ _ _ => rfl)
    exact (discreet_keepAllUnreachable _).bind fun _ => .pure fun _ _ _ => rfl
  simp only [tighten_eq]
  exact reached.bind fun _ => .pure fun _ _ _ => rfl

/-- A label goes whether it is reported or not. -/
theorem discreet_labelStmt (pl : Place) (name : String) (body : Stmt) :
    Discreet fun o => labelStmt o pl name body := by
  unfold labelStmt
  split
  · exact (Discreet.note _).bind fun _ => .pure fun _ _ _ => rfl
  · exact .pure fun _ _ _ => rfl

/-- An `if` with a constant condition comes down to the same, whether it is reported or not. -/
theorem discreet_constantIf (span : Span) (test : Expr) (truth : Bool) (yes : Stmt)
    (no : Option Stmt) : Discreet fun o => constantIf o span test truth yes no where
  value _ _ _ := rfl
  silent o off := by
    rw [findings_constantIf]
    exact (Discreet.note _).silent o off

/-- Whatever becomes of an `if` does not depend on what is reported. -/
theorem discreet_simplifyIf (span : Span) (test : Expr) (yes : Stmt) (no : Option Stmt) :
    Discreet fun o => simplifyIf o span test yes no where
  value o w p := by
    have same : test.known? (o.reporting w p) = test.known? o := rfl
    unfold simplifyIf
    rw [same]
    cases test.known? o with
    | some c => exact (discreet_constantIf ..).value o w p
    | none => simp only [condExpr_reporting, Expr.negate_reporting]
  silent o off := by
    rw [findings_simplifyIf]
    exact List.flatMap_eq_nil_iff.mpr fun c _ => (Discreet.note _).silent o off

/-! ## Steps of a session -/

/-- A rule without findings leaves a session as it is. -/
theorem Session.run_pure {α : Type} (s : Session) (f : Options → α) :
    s.run (fun o => pure (f o)) = (f s.options, s) := by
  change (f s.options, { s with findings := s.findings ++ [] }) = (f s.options, s)
  rw [List.append_nil]

/-- A step that does what a rule does, and nothing else. -/
structure Follows {α : Type} (step : StateM Session α) (rule : Options → Report α) : Prop
    extends Discreet rule where
  run : ∀ s, step s = s.run rule

namespace Follows

open Session

variable {α β : Type} {step : StateM Session α} {rule : Options → Report α}

theorem pure (x : α) : Follows (Pure.pure x) fun _ => Pure.pure x where
  toDiscreet := .pure fun _ _ _ => rfl
  run s := (s.run_pure fun _ => x).symm

theorem bind {next : α → StateM Session β} {after : α → Options → Report β}
    (first : Follows step rule) (second : ∀ x, Follows (next x) (after x)) :
    Follows (step >>= next) fun o => rule o >>= fun x => after x o where
  toDiscreet := first.toDiscreet.bind fun x => (second x).toDiscreet
  run s := by
    change next (step s).1 (step s).2 = _
    rw [first.run, (second _).run]
    simp only [Session.run, Report.value_bind, Report.findings_bind, List.append_assoc]

/-- Applying a rule is what the rule does. -/
theorem apply (discreet : Discreet rule) : Follows (Session.apply rule) rule where
  toDiscreet := discreet
  run _ := rfl

/-- A value that is made from the options alone. -/
theorem settings {f : Options → α} (same : ∀ o w p, f (o.reporting w p) = f o) :
    Follows (Session.settings >>= fun o => Pure.pure (f o)) fun o => Pure.pure (f o) where
  toDiscreet := .pure same
  run s := (s.run_pure f).symm

theorem ite {c : Options → Bool} {yes no : StateM Session α} {atYes atNo : Options → Report α}
    (same : ∀ o w p, c (o.reporting w p) = c o) (inYes : Follows yes atYes)
    (inNo : Follows no atNo) :
    Follows (Session.settings >>= fun o => if c o then yes else no)
      fun o => if c o then atYes o else atNo o where
  toDiscreet := .ite same inYes.toDiscreet inNo.toDiscreet
  run s := by
    change (if c s.options then yes else no) s = _
    simp only [Session.run]
    split
    · exact inYes.run s
    · exact inNo.run s

/-- A node that was entered is left again. -/
theorem within (a : Ancestor) (inside : Follows step rule) : Follows (Session.within a step) rule where
  toDiscreet := inside.toDiscreet
  run s := by
    change ((step (s.enter a)).1, (step (s.enter a)).2.leave) = _
    rw [inside.run]
    rfl

/-- Some nodes have no kind and are not entered at all. -/
theorem withinKind (kind? : Option NodeKind) (span : Span) (inside : Follows step rule) :
    Follows (Session.withinKind kind? span step) rule := by
  cases kind? with
  | some kind => exact inside.within _
  | none => exact inside

end Follows

/-! ## Trees -/

open Session

mutual

/-- Going through an expression does what simplifying it does. The step follows the rules node by node,
in the order in which they report. -/
theorem Expr.follows_visit : (e : Expr) → Follows e.visit fun o => e.minify o
  | .binary _ _ left right => .withinKind _ _ <| left.follows_visit.bind fun _ =>
    right.follows_visit.bind fun _ => .settings fun _ _ _ => rfl
  | .call _ _ callee args => .withinKind _ _ <| callee.follows_visit.bind fun _ =>
    (exprs_follow_visit args).bind fun _ => .pure _
  | .index _ object key => .withinKind _ _ <| object.follows_visit.bind fun _ =>
    key.follows_visit.bind fun _ => .settings fun _ _ _ => rfl
  | .cond _ test yes no => .withinKind _ _ <| test.follows_visit.bind fun _ =>
    yes.follows_visit.bind fun _ => no.follows_visit.bind fun _ => .settings fun o w p => by
      simp only [condExpr_reporting]
      rfl
  | .func _ _ fn => .withinKind _ _ <| fn.follows_visit.bind fun _ => .pure _
  | .member _ object _ => .withinKind _ _ <| object.follows_visit.bind fun _ => .pure _
  | .unary _ _ arg => .withinKind _ _ <| arg.follows_visit.bind fun _ =>
    .settings fun _ _ _ => rfl
  | .update _ _ arg => .withinKind _ _ <| arg.follows_visit.bind fun _ => .pure _
  | .array _ elements => .withinKind _ _ <| (elements_follow_visit elements).bind fun _ => .pure _
  | .object _ members => .withinKind _ _ <| (members_follow_visit members).bind fun _ => .pure _
  | .ident .. | .this .. | .bool .. | .null .. | .num .. | .regex .. | .str .. | .undef .. =>
    .pure _

theorem exprs_follow_visit : (es : List Expr) → Follows (visitExprs es) fun o => minifyExprs o es
  | [] => .pure _
  | e :: rest => e.follows_visit.bind fun _ => (exprs_follow_visit rest).bind fun _ => .pure _

theorem option_follows_visit : (e : Option Expr) → Follows (visitOption e) fun o => minifyOption o e
  | none => .pure _
  | some e => e.follows_visit.bind fun _ => .pure _

theorem elements_follow_visit : (es : List (Option Expr)) →
    Follows (visitElements es) fun o => minifyElements o es
  | [] => .pure _
  | e :: rest => (option_follows_visit e).bind fun _ =>
    (elements_follow_visit rest).bind fun _ => .pure _

/-- Going through a function goes through its body. -/
theorem Func.follows_visit : (fn : Func) → Follows fn.visit fun o => fn.minify o
  | .mk _ _ body => .within _ <| (stmts_follow_visit body).bind fun _ =>
    (Follows.apply (discreet_tighten _)).bind fun _ => .pure _

theorem members_follow_visit : (members : List Member) →
    Follows (visitMembers members) fun o => minifyMembers o members
  | [] => .pure _
  | .value _ _ e :: rest => e.follows_visit.bind fun _ =>
    (members_follow_visit rest).bind fun _ => .pure _
  | .getter _ _ fn :: rest => fn.follows_visit.bind fun _ =>
    (members_follow_visit rest).bind fun _ => .pure _
  | .setter _ _ fn :: rest => fn.follows_visit.bind fun _ =>
    (members_follow_visit rest).bind fun _ => .pure _

theorem declarators_follow_visit : (declarators : List Declarator) →
    Follows (visitDeclarators declarators) fun o => minifyDeclarators o declarators
  | [] => .pure _
  | .mk _ init :: rest => (option_follows_visit init).bind fun _ =>
    (declarators_follow_visit rest).bind fun _ => .pure _

/-- Going through a declaration goes through its initial values. -/
theorem VarDecl.follows_visit : (decl : VarDecl) → Follows decl.visit fun o => decl.minify o
  | .mk _ _ declarators => (declarators_follow_visit declarators).bind fun _ => .pure _

theorem LoopHead.follows_visit : (head : LoopHead) → Follows head.visit fun o => head.minify o
  | .decl d => d.follows_visit.bind fun _ => .pure _
  | .expr e => e.follows_visit.bind fun _ => .pure _

theorem loopInit_follows_visit : (init : Option LoopHead) →
    Follows (visitLoopInit init) fun o => minifyLoopInit o init
  | none => .pure _
  | some head => head.follows_visit.bind fun _ => .pure _

theorem branches_follow_visit : (branches : List Branch) →
    Follows (visitBranches branches) fun o => minifyBranches o branches
  | [] => .pure _
  | .mk span test body :: rest => by
    have branch := Follows.within ⟨.branch, span⟩ <| (option_follows_visit test).bind fun test =>
      (stmts_follow_visit body).bind fun body => (Follows.apply (discreet_tighten body)).bind
        fun body => .pure (Branch.mk span test body)
    have all := branch.bind fun branch => (branches_follow_visit rest).bind fun rest =>
      .pure (branch :: rest)
    -- The pass does not put a branch together before it goes on to the next one.
    simp only [bind_assoc, pure_bind] at all
    exact all

/-- The blocks of a `try` are bodies of their own. -/
theorem Block.follows_visit : (block : Block) → Follows block.visit fun o => block.minify o
  | .mk _ body => (stmts_follow_visit body).bind fun _ =>
    (Follows.apply (discreet_tighten _)).bind fun _ => .pure _

theorem handler_follows_visit : (handler : Option Handler) →
    Follows (visitHandler handler) fun o => minifyHandler o handler
  | none => .pure _
  | some (.mk _ _ body) => .within _ <| (stmts_follow_visit body).bind fun _ =>
    (Follows.apply (discreet_tighten _)).bind fun _ => .pure _

theorem final_follows_visit : (final : Option Block) →
    Follows (visitFinal final) fun o => minifyFinal o final
  | none => .pure _
  | some block => block.follows_visit.bind fun _ => .pure _

/-- Going through a statement does what simplifying it does. -/
theorem Stmt.follows_visit : (s : Stmt) → Follows s.visit fun o => s.minify o
  | .block _ body => .withinKind _ _ <| (stmts_follow_visit body).bind fun _ =>
    (Follows.apply (discreet_tighten _)).bind fun _ => .pure _
  | .debugger _ => .settings fun _ _ _ => rfl
  | .doWhile _ body test => .withinKind _ _ <| body.follows_visit.bind fun _ =>
    test.follows_visit.bind fun _ => .pure _
  | .expr _ e => .withinKind _ _ <| e.follows_visit.bind fun _ => .pure _
  | .forIn _ target object body => .withinKind _ _ <| target.follows_visit.bind fun _ =>
    object.follows_visit.bind fun _ => body.follows_visit.bind fun _ => .pure _
  | .forLoop _ init test step body => .withinKind _ _ <| (loopInit_follows_visit init).bind fun _ =>
    (option_follows_visit test).bind fun _ => (option_follows_visit step).bind fun _ =>
      body.follows_visit.bind fun _ => .pure _
  | .func _ _ fn => .withinKind _ _ <| fn.follows_visit.bind fun _ => .pure _
  | .ite _ test yes no => .withinKind _ _ <| test.follows_visit.bind fun _ =>
    yes.follows_visit.bind fun _ => (else_follows_visit no).bind fun _ =>
      .ite (fun _ _ _ => rfl) (.apply (discreet_simplifyIf ..)) (.pure _)
  | .label _ _ body => .withinKind _ _ <| body.follows_visit.bind fun _ =>
    .apply (discreet_labelStmt ..)
  | .ret _ value => .withinKind _ _ <| (option_follows_visit value).bind fun _ => .pure _
  | .switch _ subject branches => .withinKind _ _ <| subject.follows_visit.bind fun _ =>
    (branches_follow_visit branches).bind fun _ => .pure _
  | .throw _ value => .withinKind _ _ <| value.follows_visit.bind fun _ => .pure _
  | .tryCatch _ body handler final => .withinKind _ _ <| body.follows_visit.bind fun _ =>
    (handler_follows_visit handler).bind fun _ => (final_follows_visit final).bind fun _ => .pure _
  | .var _ decl => .withinKind _ _ <| decl.follows_visit.bind fun _ => .pure _
  | .whileLoop _ test body => .withinKind _ _ <| test.follows_visit.bind fun _ =>
    body.follows_visit.bind fun _ => .pure _
  | .withObject _ object body => .withinKind _ _ <| object.follows_visit.bind fun _ =>
    body.follows_visit.bind fun _ => .pure _
  | .breakTo .. | .continueTo .. | .empty .. => .pure _

theorem else_follows_visit : (no : Option Stmt) → Follows (visitElse no) fun o => minifyElse o no
  | none => .pure _
  | some s => s.follows_visit.bind fun _ => .pure _

/-- Going through the statements of a list does what simplifying each of them does. -/
theorem stmts_follow_visit : (body : List Stmt) →
    Follows (visitStmts body) fun o => minifyStmts o body
  | [] => .pure _
  | s :: rest => s.follows_visit.bind fun _ => (stmts_follow_visit rest).bind fun _ => .pure _

end

/-- A list of statements is gone through first and tightened then. -/
theorem body_follows_visit (body : List Stmt) :
    Follows (visitBody body) fun o => minifyBody o body :=
  (stmts_follow_visit body).bind fun _ => .apply (discreet_tighten _)

/-- Going through a program does what simplifying it does. -/
theorem Program.follows_visit (p : Program) : Follows p.visit fun o => p.minify o :=
  ((body_follows_visit p.body).within _).bind fun _ => .pure _

/-! ## Sessions -/

/-- The options differ at most in whether findings are wanted and in what is reserved. -/
def Options.SameRules (o o' : Options) : Prop :=
  ∀ name, name ≠ .warnings → name ≠ .pristine → o.get name = o'.get name

/-- Options with the same rules differ in what is reported only. -/
theorem Options.eq_reporting {o o' : Options} (same : o.SameRules o') :
    o' = o.reporting o'.warnings o'.pristine := by
  obtain ⟨sequences, properties, deadCode, dropDebugger, _, conditionals, comparisons, evaluate, _⟩ := o
  obtain rfl := same .sequences (by decide) (by decide)
  obtain rfl := same .properties (by decide) (by decide)
  obtain rfl := same .deadCode (by decide) (by decide)
  obtain rfl := same .dropDebugger (by decide) (by decide)
  obtain rfl := same .conditionals (by decide) (by decide)
  obtain rfl := same .comparisons (by decide) (by decide)
  obtain rfl := same .evaluate (by decide) (by decide)
  rfl

/-- A step gives what a pass over the tree gives for the options of the session, and leaves the rest of
the session alone. -/
structure Session.Framed {α : Type} (step : Session → α × Session) (pass : Options → Report α) :
    Prop where
  /-- The options and the entered nodes stay as they are and findings are only added. Neither what has
  been entered nor what has been found before has an influence on the result or on what is added. -/
  frame : ∀ o ancestors findings, step ⟨o, ancestors, findings⟩ =
    ((pass o).value, ⟨o, ancestors, findings ++ (pass o).findings⟩)
  /-- Options that only concern findings have no influence on the result. -/
  result : ∀ s t, s.options.SameRules t.options → (step s).1 = (step t).1
  /-- Nothing is added if findings are not wanted. -/
  silent : ∀ s, s.options.warnings = false → (step s).2.findings = s.findings

/-- A step that does what a discreet rule does has the frame: it adds findings and leaves all else as it
was. -/
theorem Follows.framed {α : Type} {step : StateM Session α} {pass : Options → Report α}
    (follows : Follows step pass) : Framed step pass where
  frame o ancestors findings := follows.run ⟨o, ancestors, findings⟩
  result s t same := by
    rw [follows.run, follows.run]
    calc (pass s.options).value
        = (pass (s.options.reporting t.options.warnings t.options.pristine)).value :=
          (follows.value _ _ _).symm
      _ = (pass t.options).value := by rw [← Options.eq_reporting same]
  silent s off := by
    rw [follows.run]
    change s.findings ++ (pass s.options).findings = s.findings
    rw [follows.silent _ off, List.append_nil]

/-- A session that goes through an expression, a statement, a list of statements or a program gives what
the pass gives for its options, adds the findings of the pass, and is otherwise as it was. -/
theorem session_framed :
    (∀ e : Expr, Framed (·.minifyExpr e) fun o => e.minify o) ∧
      (∀ stmt : Stmt, Framed (·.minifyStmt stmt) fun o => stmt.minify o) ∧
      (∀ body : List Stmt, Framed (·.minifyBody body) fun o => minifyBody o body) ∧
      ∀ p : Program, Framed (·.minifyProgram p) fun o => p.minify o :=
  ⟨fun e => e.follows_visit.framed, fun stmt => stmt.follows_visit.framed,
    fun body => (body_follows_visit body).framed, fun p => p.follows_visit.framed⟩

end Minifier
