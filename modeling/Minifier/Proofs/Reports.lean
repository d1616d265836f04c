import Mathlib.Data.Multiset.UnionInter
import Minifier.Proofs.Census
import Minifier.Proofs.Declarations
import Minifier.Proofs.Nodes
import Minifier.Proofs.Session

/-!
# Reports of unreachable declarations

A list of statements reports the declarations that it takes out of unreachable code. They stay in the
list, so a list further out may find them in unreachable code once more, and report them again.

If all declarations stand at places of their own, this is the only way to report one twice: a list
reports none twice by itself, and neither do lists that are not inside of each other. A declaration is
reported at most once exactly if no list takes one out of unreachable code that a list inside of it has
taken out before.
-/

namespace Minifier

/-- Whether a finding is about a declaration in unreachable code. -/
def Finding.isUnreachable (f : Finding) : Bool :=
  f.code == "SQ0003"

/-- Where the declarations stand that are reported as unreachable. -/
def reported (findings : List Finding) : List Span :=
  (findings.filter Finding.isUnreachable).map Finding.primary

/-- The declarations that are taken out of an unreachable statement. A function declaration that is
such a statement itself is left alone. -/
def Stmt.uprooted : Stmt → List Hoisted
  | .func _ _ _ => []
  | s => s.leftOver

/-- The declarations that are taken out of the unreachable statements of a list. -/
def uprooted (o : Options) (stmts : List Stmt) : List Hoisted :=
  if o.deadCode then (splitAtJump (unwrapBlocks stmts)).2.flatMap Stmt.uprooted else []

/-- No list takes a declaration at the given place out of unreachable code. -/
def Check.neverUproots (o : Options) (span : Span) : Check where
  expr _ := True
  stmt _ := True
  body list := ∀ h ∈ uprooted o (minifyStmts o list).value, h.span ≠ span

/-- No list takes a declaration out of unreachable code that a list inside of it also takes out. -/
def Check.uprootsOnce (o : Options) : Check where
  expr _ := True
  stmt _ := True
  body list := ∀ h ∈ uprooted o (minifyStmts o list).value, stmtsMeet (.neverUproots o h.span) list

@[simp] theorem Check.expr_neverUproots (o : Options) (span : Span) (e : Expr) :
    (neverUproots o span).expr e := trivial

@[simp] theorem Check.stmt_neverUproots (o : Options) (span : Span) (s : Stmt) :
    (neverUproots o span).stmt s := trivial

@[simp] theorem Check.expr_uprootsOnce (o : Options) (e : Expr) : (uprootsOnce o).expr e := trivial

@[simp] theorem Check.stmt_uprootsOnce (o : Options) (s : Stmt) : (uprootsOnce o).stmt s := trivial

/-! ## Where declarations stand -/

/-- The account that takes down where declarations stand. -/
def DeclAccount.spans : DeclAccount Span where
  atVar span _ _ := {span}
  atFunc span _ := {span}

@[simp] theorem DeclAccount.atVar_spans (span : Span) (mode : DeclMode) (names : List String) :
    spans.atVar span mode names = {span} := rfl

@[simp] theorem DeclAccount.atFunc_spans (span : Span) (name : String) :
    spans.atFunc span name = {span} := rfl

/-- The census that takes down where the declarations in functions stand. -/
def Census.declSpans : Census Span where
  atHead _ := 0
  atFunc
    | .mk _ _ body => stmtsDeclared .spans body

@[simp] theorem Census.atHead_declSpans (h : Head) : declSpans.atHead h = 0 := rfl

@[simp] theorem Census.atFunc_declSpans (span : Span) (params : List Param) (body : List Stmt) :
    declSpans.atFunc (.mk span params body) = stmtsDeclared .spans body := rfl

/-- Where the declarations of a program stand, in functions too. -/
def Program.declSpans (p : Program) : Multiset Span :=
  stmtsDeclared .spans p.body + stmtsCensus .declSpans p.body

/-- Places of declarations may get lost, and none comes up twice. -/
theorem DeclAccount.spans_allow : DeclAccount.spans.Allows (· ≤ ·) where
  refl := le_refl
  trans := le_trans
  add := add_le_add
  lexical _ _ _ _ := Multiset.zero_le _

/-- Hoisted declarations stand where they stood before. -/
theorem hoistedDeclared_spans (hoisted : List Hoisted) :
    hoistedDeclared .spans hoisted = ↑(hoisted.map Hoisted.span) := by
  induction hoisted with
  | nil => rfl
  | cons h rest ih =>
    have here : hoistedDeclared .spans [h] = {h.span} := by
      cases h with
      | var decl => exact hoistedDeclared_var .spans decl
      | func span name fn => rfl
    have parts := hoistedDeclared_append .spans [h] rest
    rwa [here, ih, Multiset.singleton_add, Multiset.cons_coe] at parts

/-- The declarations that are taken out of unreachable statements are declarations of the list. -/
theorem spans_uprooted_le (o : Options) (stmts : List Stmt) :
    ↑((uprooted o stmts).map Hoisted.span) ≤ stmtsDeclared .spans stmts := by
  have each (s : Stmt) : ↑(s.uprooted.map Hoisted.span) ≤ s.declared .spans := by
    cases s with
    | func pl name fn => exact Multiset.zero_le _
    | _ => exact hoistedDeclared_spans _ ▸ declared_leftOver DeclAccount.spans_allow _
  have all (rest : List Stmt) :
      ↑((rest.flatMap Stmt.uprooted).map Hoisted.span) ≤ stmtsDeclared .spans rest := by
    induction rest with
    | nil => exact le_refl _
    | cons s rest ih =>
      rw [List.flatMap_cons, List.map_append, ← Multiset.coe_add, stmtsDeclared]
      exact add_le_add (each s) ih
  unfold uprooted
  split
  · have parts := stmtsDeclared_append .spans (splitAtJump (unwrapBlocks stmts)).1
      (splitAtJump (unwrapBlocks stmts)).2
    have unwrapped : stmtsDeclared .spans (unwrapBlocks stmts) = stmtsDeclared .spans stmts :=
      DeclAccount.spans.account.congruence.unwrapBlocks stmts
    rw [splitAtJump_append, unwrapped] at parts
    exact parts ▸ (all _).trans (Multiset.le_add_left _ _)
  · exact Multiset.zero_le _

/-! ## Reports of the rules -/

/-- What is reported in two parts is reported in the one or the other. -/
theorem reported_append (a b : List Finding) : reported (a ++ b) = reported a ++ reported b := by
  rw [reported, List.filter_append, List.map_append]
  rfl

section Rules

variable {o : Options} (on : o.warnings = true)
include on

/-- Each declaration that is kept is reported once. -/
theorem reported_keepHoisted (hoisted : List Hoisted) :
    reported (hoisted.mapM (Hoisted.keep o)).findings = hoisted.map Hoisted.span := by
  induction hoisted with
  | nil => rfl
  | cons h rest ih =>
    have here : reported (h.keep o).findings = [h.span] := by
      rw [Hoisted.keep, Report.findings_bind, Report.note, if_pos on]
      rfl
    rw [List.mapM_cons]
    simp only [Report.findings_bind, Report.findings_pure, List.append_nil, reported_append, here, ih]
    rfl

/-- A list reports what it takes out of unreachable statements, in order. -/
theorem reported_keepAllUnreachable (stmts : List Stmt) :
    reported (keepAllUnreachable o stmts).findings =
      (stmts.flatMap Stmt.uprooted).map Hoisted.span := by
  induction stmts with
  | nil => rfl
  | cons s rest ih =>
    have here : reported (s.keepUnreachable o).findings = s.uprooted.map Hoisted.span := by
      cases s with
      | func pl name fn => rfl
      | _ => exact reported_keepHoisted on _
    simp only [keepAllUnreachable, Report.findings_bind, Report.findings_pure, List.append_nil,
      reported_append, here, ih, List.flatMap_cons, List.map_append]

/-- A list reports what it takes out of unreachable statements. -/
theorem reported_tighten (stmts : List Stmt) :
    reported (tighten o stmts).findings = (uprooted o stmts).map Hoisted.span := by
  rw [tighten_eq, uprooted]
  split
  · simp only [Report.findings_bind, Report.findings_pure, List.append_nil, dropUnreachable,
      reported_keepAllUnreachable on]
  · rfl

end Rules

/-- Findings of other kinds do not count. -/
theorem reported_note {o : Options} {f : Finding} (other : f.isUnreachable = false) :
    reported (Report.note o f).findings = [] := by
  unfold Report.note
  split
  · simp [reported, other]
  · rfl

/-- No declaration is reported where a label goes. -/
theorem reported_labelStmt (o : Options) (pl : Place) (name : String) (body : Stmt) :
    reported (labelStmt o pl name body).findings = [] := by
  unfold labelStmt
  split
  · rw [Report.findings_bind, reported_append, reported_note rfl]
    rfl
  · rfl

/-- Nor where an `if` is simplified. -/
theorem reported_simplifyIf (o : Options) (span : Span) (test : Expr) (yes : Stmt)
    (no : Option Stmt) : reported (simplifyIf o span test yes no).findings = [] := by
  rw [findings_simplifyIf]
  cases test.known? o with
  | none => rfl
  | some c =>
    have other (truth : Bool) (span : Span) :
        (Finding.constantCondition truth span).isUnreachable = false := by
      cases truth <;> rfl
    rw [Option.toList_some, List.flatMap_singleton, reported_note (other _ _)]

/-! ## Reports of a tree -/

/-- The reports of a part of a tree in which declarations stand at the given places: only these places
are reported, and conditions for a place not to be reported and for none to be reported twice. -/
structure Accounted (declared : Multiset Span) (found : List Span) (once : Prop)
    (never : Span → Prop) : Prop where
  mem : ∀ span ∈ found, span ∈ declared
  not_mem_iff : ∀ span, span ∉ found ↔ never span
  nodup_iff : declared.Nodup → (found.Nodup ↔ once)

namespace Accounted

variable {d d' : Multiset Span} {f f' : List Span} {p p' : Prop} {n n' : Span → Prop}

/-- Nothing is reported where there is nothing. -/
theorem none : Accounted 0 [] True fun _ => True where
  mem _ inside := absurd inside List.not_mem_nil
  not_mem_iff _ := iff_true_intro List.not_mem_nil
  nodup_iff _ := iff_true_intro List.nodup_nil

/-- Two parts report nothing in common, if their declarations stand at different places. -/
theorem add (left : Accounted d f p n) (right : Accounted d' f' p' n') :
    Accounted (d + d') (f ++ f') (p ∧ p') fun span => n span ∧ n' span where
  mem span inside := by
    rw [Multiset.mem_add]
    exact (List.mem_append.mp inside).imp (left.mem span) (right.mem span)
  not_mem_iff span := by
    rw [List.mem_append, not_or, left.not_mem_iff, right.not_mem_iff]
  nodup_iff distinct := by
    obtain ⟨inLeft, inRight, apart⟩ := Multiset.nodup_add.mp distinct
    have separate : ∀ a ∈ f, ∀ b ∈ f', a ≠ b := by
      rintro a found b again rfl
      exact Multiset.disjoint_left.mp apart (left.mem a found) (right.mem a again)
    rw [List.nodup_append, ← left.nodup_iff inLeft, ← right.nodup_iff inRight]
    exact ⟨fun ⟨first, second, _⟩ => ⟨first, second⟩,
      fun ⟨first, second⟩ => ⟨first, second, separate⟩⟩

/-- A declaration reports nothing itself, whatever is reported inside of it. -/
theorem within (inside : Accounted d f p n) (span : Span) : Accounted ({span} + d) f p n where
  mem found reported := Multiset.mem_add.mpr (.inr (inside.mem found reported))
  not_mem_iff := inside.not_mem_iff
  nodup_iff distinct := inside.nodup_iff (Multiset.nodup_add.mp distinct).2.1

/-- A list reports no declaration twice by itself, but may report one again that has been reported
inside. -/
theorem followedBy (inside : Accounted d f p n) {hoisted : List Hoisted}
    (part : ↑(hoisted.map Hoisted.span) ≤ d) :
    Accounted d (f ++ hoisted.map Hoisted.span) ((∀ h ∈ hoisted, n h.span) ∧ p)
      fun span => (∀ h ∈ hoisted, h.span ≠ span) ∧ n span where
  mem span found := by
    obtain before | here := List.mem_append.mp found
    · exact inside.mem span before
    · exact Multiset.mem_of_le part here
  not_mem_iff span := by
    rw [List.mem_append, not_or, inside.not_mem_iff, and_comm]
    simp
  nodup_iff distinct := by
    have here : (hoisted.map Hoisted.span).Nodup :=
      Multiset.coe_nodup.mp (Multiset.nodup_of_le part distinct)
    have fresh : (∀ h ∈ hoisted, n h.span) ↔
        ∀ a ∈ f, ∀ b ∈ hoisted.map Hoisted.span, a ≠ b := by
      simp only [← inside.not_mem_iff]
      constructor
      · rintro new a before b found rfl
        obtain ⟨h, mem, rfl⟩ := List.mem_map.mp found
        exact new h mem before
      · intro separate h mem before
        exact separate _ before _ (List.mem_map_of_mem mem) rfl
    rw [List.nodup_append, inside.nodup_iff distinct, fresh]
    exact ⟨fun ⟨first, _, apart⟩ => ⟨apart, first⟩, fun ⟨apart, first⟩ => ⟨first, here, apart⟩⟩

end Accounted

section Trees

variable {o : Options} (on : o.warnings = true)
include on

/-- The reports of a list are those of its statements, and of what it takes out of unreachable code. -/
theorem body_accounted {body : List Stmt}
    (inside : Accounted (stmtsDeclared .spans body + stmtsCensus .declSpans body)
      (reported (minifyStmts o body).findings) (stmtsMeet (.uprootsOnce o) body)
      fun span => stmtsMeet (.neverUproots o span) body) :
    Accounted (stmtsDeclared .spans body + stmtsCensus .declSpans body)
      (reported (minifyBody o body).findings) (bodyMeets (.uprootsOnce o) body)
      fun span => bodyMeets (.neverUproots o span) body := by
  rw [minifyBody, Report.findings_bind, reported_append, reported_tighten on]
  refine inside.followedBy ?_
  calc ↑((uprooted o (minifyStmts o body).value).map Hoisted.span)
      ≤ stmtsDeclared .spans (minifyStmts o body).value := spans_uprooted_le o _
    _ ≤ stmtsDeclared .spans body := stmtsDeclared_minify DeclAccount.spans_allow body
    _ ≤ _ := Multiset.le_add_right _ _

-- The linter does not see the calls from one theorem of a mutual block to another.
set_option linter.unusedSectionVars false

attribute [local simp] Expr.Meets exprsMeet optionMeets elementsMeet Func.Meets membersMeet
  declaratorsMeet VarDecl.Meets LoopHead.Meets loopInitMeets branchesMeet Block.Meets handlerMeets
  finalMeets Stmt.Meets elseMeets stmtsMeet bodyMeets minifyBody reported_append reported_labelStmt
  reported_simplifyIf

mutual

/-- The reports of an expression. -/
theorem Expr.accounted : (e : Expr) → Accounted (e.census .declSpans)
    (reported (e.minify o).findings) (e.Meets (.uprootsOnce o))
    fun span => e.Meets (.neverUproots o span)
  | .binary _ _ left right => by simpa using left.accounted.add right.accounted
  | .call _ _ callee args => by simpa using callee.accounted.add (exprs_accounted args)
  | .index _ object key => by simpa using object.accounted.add key.accounted
  | .cond _ test yes no => by
    simpa [add_assoc] using test.accounted.add (yes.accounted.add no.accounted)
  | .func _ _ fn => by simpa using fn.accounted
  | .member _ object _ => by simpa using object.accounted
  | .unary _ _ arg | .update _ _ arg => by simpa using arg.accounted
  | .array _ elements => by simpa using elements_accounted elements
  | .object _ members => by simpa using members_accounted members
  | .ident .. | .this .. | .bool .. | .null .. | .num .. | .regex .. | .str .. | .undef .. => .none

/-- The expressions of a list report what is in functions in them. -/
theorem exprs_accounted : (es : List Expr) → Accounted (exprsCensus .declSpans es)
    (reported (minifyExprs o es).findings) (exprsMeet (.uprootsOnce o) es)
    fun span => exprsMeet (.neverUproots o span) es
  | [] => .none
  | e :: rest => by simpa using e.accounted.add (exprs_accounted rest)

theorem option_accounted : (e : Option Expr) → Accounted (optionCensus .declSpans e)
    (reported (minifyOption o e).findings) (optionMeets (.uprootsOnce o) e)
    fun span => optionMeets (.neverUproots o span) e
  | none => .none
  | some e => by simpa using e.accounted

theorem elements_accounted : (es : List (Option Expr)) → Accounted (elementsCensus .declSpans es)
    (reported (minifyElements o es).findings) (elementsMeet (.uprootsOnce o) es)
    fun span => elementsMeet (.neverUproots o span) es
  | [] => .none
  | e :: rest => by simpa using (option_accounted e).add (elements_accounted rest)

/-- The body of a function is a list with declarations of its own. -/
theorem Func.accounted : (fn : Func) → Accounted (fn.census .declSpans)
    (reported (fn.minify o).findings) (fn.Meets (.uprootsOnce o))
    fun span => fn.Meets (.neverUproots o span)
  | .mk _ _ body => by simpa using body_accounted on (stmts_accounted body)

theorem members_accounted : (ms : List Member) → Accounted (membersCensus .declSpans ms)
    (reported (minifyMembers o ms).findings) (membersMeet (.uprootsOnce o) ms)
    fun span => membersMeet (.neverUproots o span) ms
  | [] => .none
  | .value _ _ e :: rest => by simpa using e.accounted.add (members_accounted rest)
  | .getter _ _ fn :: rest | .setter _ _ fn :: rest => by
    simpa using fn.accounted.add (members_accounted rest)

theorem declarators_accounted : (ds : List Declarator) → Accounted (declaratorsCensus .declSpans ds)
    (reported (minifyDeclarators o ds).findings) (declaratorsMeet (.uprootsOnce o) ds)
    fun span => declaratorsMeet (.neverUproots o span) ds
  | [] => .none
  | .mk _ init :: rest => by simpa using (option_accounted init).add (declarators_accounted rest)

/-- A declaration reports nothing itself, but functions in its initial values may. -/
theorem VarDecl.accounted : (decl : VarDecl) →
    Accounted (decl.declared .spans + decl.census .declSpans) (reported (decl.minify o).findings)
      (decl.Meets (.uprootsOnce o)) fun span => decl.Meets (.neverUproots o span)
  | .mk span _ declarators => by
    simpa [VarDecl.declared, VarDecl.span] using (declarators_accounted declarators).within span

theorem LoopHead.accounted : (head : LoopHead) →
    Accounted (head.declared .spans + head.census .declSpans) (reported (head.minify o).findings)
      (head.Meets (.uprootsOnce o)) fun span => head.Meets (.neverUproots o span)
  | .decl decl => by simpa [LoopHead.declared] using decl.accounted
  | .expr e => by simpa [LoopHead.declared] using e.accounted

theorem loopInit_accounted : (init : Option LoopHead) →
    Accounted (loopInitDeclared .spans init + loopInitCensus .declSpans init)
      (reported (minifyLoopInit o init).findings) (loopInitMeets (.uprootsOnce o) init)
      fun span => loopInitMeets (.neverUproots o span) init
  | none => .none
  | some head => by simpa [loopInitDeclared] using head.accounted

/-- Each branch of a `switch` is a list that may take something out. -/
theorem branches_accounted : (branches : List Branch) →
    Accounted (branchesDeclared .spans branches + branchesCensus .declSpans branches)
      (reported (minifyBranches o branches).findings) (branchesMeet (.uprootsOnce o) branches)
      fun span => branchesMeet (.neverUproots o span) branches
  | [] => .none
  | .mk _ test body :: rest => by
    simpa [add_assoc, add_comm, add_left_comm] using
      (option_accounted test).add ((body_accounted on (stmts_accounted body)).add
        (branches_accounted rest))

/-- So is each block of a `try` statement. -/
theorem Block.accounted : (block : Block) →
    Accounted (block.declared .spans + block.census .declSpans) (reported (block.minify o).findings)
      (block.Meets (.uprootsOnce o)) fun span => block.Meets (.neverUproots o span)
  | .mk _ body => by simpa using body_accounted on (stmts_accounted body)

theorem handler_accounted : (handler : Option Handler) →
    Accounted (handlerDeclared .spans handler + handlerCensus .declSpans handler)
      (reported (minifyHandler o handler).findings) (handlerMeets (.uprootsOnce o) handler)
      fun span => handlerMeets (.neverUproots o span) handler
  | none => .none
  | some (.mk _ _ body) => by simpa using body_accounted on (stmts_accounted body)

theorem final_accounted : (final : Option Block) →
    Accounted (finalDeclared .spans final + finalCensus .declSpans final)
      (reported (minifyFinal o final).findings) (finalMeets (.uprootsOnce o) final)
      fun span => finalMeets (.neverUproots o span) final
  | none => .none
  | some block => by simpa using block.accounted

/-- The reports of a statement. -/
theorem Stmt.accounted : (s : Stmt) →
    Accounted (s.declared .spans + s.census .declSpans) (reported (s.minify o).findings)
      (s.Meets (.uprootsOnce o)) fun span => s.Meets (.neverUproots o span)
  | .block _ body => by simpa using body_accounted on (stmts_accounted body)
  | .doWhile _ body test => by
    simpa [add_assoc] using body.accounted.add test.accounted
  | .expr _ e => by simpa using e.accounted
  | .forIn _ target object body => by
    simpa [add_assoc, add_comm, add_left_comm] using
      target.accounted.add (object.accounted.add body.accounted)
  | .forLoop _ init test step body => by
    simpa [add_assoc, add_comm, add_left_comm] using (loopInit_accounted init).add
      ((option_accounted test).add ((option_accounted step).add body.accounted))
  | .func pl _ fn => by simpa using fn.accounted.within pl.inner
  | .ite _ test yes no => by
    have parts := test.accounted.add (yes.accounted.add (else_accounted no))
    cases fold : o.conditionals <;>
      simpa [fold, add_assoc, add_comm, add_left_comm] using parts
  | .label _ _ body => by simpa using body.accounted
  | .ret _ value => by simpa using option_accounted value
  | .switch _ subject branches => by
    simpa [add_assoc, add_comm, add_left_comm] using
      subject.accounted.add (branches_accounted branches)
  | .throw _ value => by simpa using value.accounted
  | .tryCatch _ body handler final => by
    simpa [add_assoc, add_comm, add_left_comm] using
      body.accounted.add ((handler_accounted handler).add (final_accounted final))
  | .var _ decl => by simpa using decl.accounted
  | .whileLoop _ test body => by
    simpa [add_assoc, add_comm, add_left_comm] using test.accounted.add body.accounted
  | .withObject _ object body => by
    simpa [add_assoc, add_comm, add_left_comm] using object.accounted.add body.accounted
  | .debugger _ | .breakTo .. | .continueTo .. | .empty .. => .none

theorem else_accounted : (no : Option Stmt) →
    Accounted (elseDeclared .spans no + elseCensus .declSpans no)
      (reported (minifyElse o no).findings) (elseMeets (.uprootsOnce o) no)
      fun span => elseMeets (.neverUproots o span) no
  | none => .none
  | some s => by simpa using s.accounted

/-- The statements of a list, before the list takes anything out of unreachable code. -/
theorem stmts_accounted : (body : List Stmt) →
    Accounted (stmtsDeclared .spans body + stmtsCensus .declSpans body)
      (reported (minifyStmts o body).findings) (stmtsMeet (.uprootsOnce o) body)
      fun span => stmtsMeet (.neverUproots o span) body
  | [] => .none
  | s :: rest => by
    simpa [add_assoc, add_comm, add_left_comm] using s.accounted.add (stmts_accounted rest)

end

end Trees

/-- If all declarations of a program stand at places of their own, every report points to one of them.
No two point to the same one if and only if no list takes a declaration out of unreachable code that a
list inside of it takes out too, unless findings are not wanted. -/
theorem reported_nodup_iff (o : Options) (p : Program) (distinct : p.declSpans.Nodup) :
    (∀ span ∈ reported (p.minify o).findings, span ∈ p.declSpans) ∧
      ((reported (p.minify o).findings).Nodup ↔
        (o.warnings = true → p.Meets (.uprootsOnce o))) := by
  cases wanted : o.warnings with
  | false =>
    rw [p.follows_visit.silent o wanted]
    exact ⟨fun _ none => absurd none List.not_mem_nil, fun _ off => absurd off Bool.false_ne_true,
      fun _ => List.nodup_nil⟩
  | true =>
    have whole := body_accounted wanted (stmts_accounted wanted p.body)
    have same : (p.minify o).findings = (minifyBody o p.body).findings := List.append_nil _
    rw [same]
    refine ⟨whole.mem, (whole.nodup_iff distinct).trans ?_⟩
    exact ⟨fun once _ => once, fun once => once rfl⟩

/-- The case of `function f() { return; var z = 0; } while (a) { break; var y = 1; } throw e; var x = 2;`:
three lists report one declaration each. -/
theorem reported_nodup_iff_separate :
    let here : Place := default
    let fn : Func := .mk default [] [.ret here none,
      .var default (.mk ⟨24, 34⟩ .var [.mk "z" (some (.num here (.ofNat 0)))])]
    let p : Program := ⟨default, [.func (.both ⟨0, 36⟩) "f" fn,
      .whileLoop here (.ident here "a") (.block here [.breakTo here none,
        .var default (.mk ⟨56, 66⟩ .var [.mk "y" (some (.num here (.ofNat 1)))])]),
      .throw here (.ident here "e"),
      .var default (.mk ⟨78, 88⟩ .var [.mk "x" (some (.num here (.ofNat 2)))])]⟩
    let o := Options.all true
    p.declSpans.Nodup ∧ reported (p.minify o).findings = [⟨24, 34⟩, ⟨56, 66⟩, ⟨78, 88⟩] ∧
      p.Meets (.uprootsOnce o) := by
  intro here fn p o
  have distinct : p.declSpans.Nodup := by decide +kernel
  have found : reported (p.minify o).findings = [⟨24, 34⟩, ⟨56, 66⟩, ⟨78, 88⟩] := by
    decide +kernel
  exact ⟨distinct, found,
    (reported_nodup_iff o p distinct).2.mp (found ▸ by decide +kernel) rfl⟩

/-- The case of `{ throw e; var x = 1; }`. The list in the block reports the declaration, and the list
of the program, which the block is unwrapped into, reports it again. -/
theorem not_nodup_reported :
    let here : Place := default
    let p : Program := ⟨default, [.block here [.throw here (.ident here "e"),
      .var default (.mk ⟨11, 21⟩ .var [.mk "x" (some (.num here (.ofNat 1)))])]]⟩
    let o := Options.all true
    p.declSpans.Nodup ∧ reported (p.minify o).findings = [⟨11, 21⟩, ⟨11, 21⟩] ∧
      ¬ (reported (p.minify o).findings).Nodup := by
  decide +kernel

end Minifier
