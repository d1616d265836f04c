import Minifier.Proofs.Accounts
import Minifier.Proofs.Census

/-!
# What survives of a tree

Simplifying a tree adds nothing to a census that does not see the heads which rules put in or change:
commas, `&&`, `||`, comparisons, `!` and the forms without a head of their own. It takes something away
only where constants are folded or unreachable statements are dropped. Both facts come from one
induction, over any relation between what is found after and before that allows for such losses.
-/

namespace Minifier

/-- Whether rules may put in, change or take away such a head. -/
def Head.isNeutral : Head → Bool
  | .binary op => !op.isAssignment
  | .unary op => op == .logicalNot
  | .other => true
  | .call _ | .ident _ | .this | .update _ | .regex _ => false

variable {α : Type}

/-- A census that does not see the heads which rules put in or change. -/
def Census.IsBlind (c : Census α) : Prop :=
  ∀ h, h.isNeutral = true → c.atHead h = 0

/-- A relation of what is found after simplifying to what was found before. It allows for any loss if
there are rules that drop something. -/
structure Loss (o : Options) (within : Multiset α → Multiset α → Prop) : Prop
    extends Compares within where
  drop : o.evaluate = true ∨ o.deadCode = true → ∀ a, within 0 a

/-- More may be lost if there are rules that drop something. -/
theorem Loss.add_left {o : Options} {within : Multiset α → Multiset α → Prop} (loss : Loss o within)
    (drop : o.evaluate = true ∨ o.deadCode = true) {a b : Multiset α} (other : Multiset α)
    (here : within a b) : within a (other + b) := by
  simpa using loss.add (loss.drop drop other) here

theorem Loss.add_right {o : Options} {within : Multiset α → Multiset α → Prop} (loss : Loss o within)
    (drop : o.evaluate = true ∨ o.deadCode = true) {a b : Multiset α} (other : Multiset α)
    (here : within a b) : within a (b + other) := by
  simpa using loss.add here (loss.drop drop other)

/-! ## Rules for expressions -/

/-- A loosened comparison is a comparison still. -/
theorem isAssignment_loosened {op : Operator} (pure : op.isAssignment = false) (left right : Expr) :
    ((op.loosened? left right).getD op).isAssignment = false := by
  unfold Operator.loosened?
  split
  · cases op <;> exact pure
  · exact pure

section Rules

variable {c : Census α} (blind : c.IsBlind) {o : Options}
include blind

/-- An operator that stores nothing is not seen, only its operands are. -/
theorem census_binary {op : Operator} (pure : op.isAssignment = false) (pl : Place)
    (left right : Expr) :
    (Expr.binary pl op left right).census c = left.census c + right.census c := by
  rw [Expr.census, blind _ (by simp [Head.isNeutral, pure]), zero_add]

/-- A conditional expression counts for its three parts. -/
theorem census_cond (pl : Place) (test yes no : Expr) :
    (Expr.cond pl test yes no).census c = test.census c + yes.census c + no.census c := by
  rw [Expr.census, blind _ rfl, zero_add]

/-- A `!` is not seen. -/
theorem census_not (pl : Place) (e : Expr) :
    (Expr.unary pl .logicalNot e).census c = e.census c := by
  rw [Expr.census, blind _ rfl, zero_add]

/-- A constant is not seen. -/
theorem census_toExpr (span : Span) (k : Constant) : (k.toExpr span).census c = 0 := by
  cases k <;> exact blind _ rfl

/-- A negation has the parts of the condition. -/
theorem census_negate : (e : Expr) → (e.negate o).census c = e.census c
  | .unary pl op arg => by
    rw [Expr.negate]
    by_cases here : op = .logicalNot
    · rw [if_pos here, here, census_not blind]
    · rw [if_neg here]
      exact census_not blind _ _
  | .cond pl test yes no => by
    rw [Expr.negate, census_cond blind, census_cond blind, census_negate yes, census_negate no]
  | .binary pl op left right => by
    cases op with
    | comma =>
      rw [Expr.negate, census_binary blind rfl, census_binary blind rfl, census_negate right]
    | logicalAnd | logicalOr =>
      rw [Expr.negate, census_binary blind rfl, census_binary blind rfl, census_negate left,
        census_negate right]
    | equal | notEqual | strictEqual | strictNotEqual =>
      exact (census_binary blind rfl _ _ _).trans (census_binary blind rfl _ _ _).symm
    | less | lessEq | greater | greaterEq =>
      cases relations : o.comparisons
      · simp only [Expr.negate, Operator.opposite?, relations]
        exact census_not blind _ _
      · simp only [Expr.negate, Operator.opposite?, relations]
        exact (census_binary blind rfl _ _ _).trans (census_binary blind rfl _ _ _).symm
    | _ => exact census_not blind _ _
  | .call _ _ _ _ | .index _ _ _ | .func _ _ _ | .ident _ _ | .member _ _ _ | .this _
  | .update _ _ _ | .array _ _ | .bool _ _ | .null _ | .num _ _ | .object _ _ | .regex _ _
  | .str _ _ | .undef _ => census_not blind _ _

/-- A census is an account of statements. -/
def Census.account : Account (Multiset α) where
  ofExpr := Expr.census c
  ofStmt := Stmt.census c
  ofElse := elseCensus c
  ofStmts := stmtsCensus c
  binary pl _ left right pure := census_binary blind pure pl left right
  cond := census_cond blind
  negate _ e := census_negate blind e
  constant := census_toExpr blind
  expr _ _ := rfl
  ret _ _ := rfl
  throw _ _ := rfl
  empty _ := rfl
  block _ _ := rfl
  ite _ _ _ _ := rfl
  without := rfl
  otherwise _ := rfl
  nil := rfl
  cons _ _ := rfl

/-- A member counts as much as the index it came from: its name was a constant. -/
theorem census_indexExpr (pl : Place) (object key : Expr) :
    (indexExpr o pl object key).census c = object.census c + key.census c := by
  unfold indexExpr
  split
  · split
    · rw [Expr.census, Expr.census, blind _ rfl, zero_add, add_zero]
    · rw [Expr.census, blind _ rfl, zero_add]
  · rw [Expr.census, blind _ rfl, zero_add]

variable {within : Multiset α → Multiset α → Prop} (loss : Loss o within)
include loss

/-- Folding loses the parts of an expression, if anything is folded. -/
theorem census_folded (e : Expr) : within ((e.folded o).census c) (e.census c) := by
  unfold Expr.folded
  split
  · next k known =>
    rw [census_toExpr blind]
    exact loss.drop (.inl (Expr.evaluate_of_known? known)) _
  · exact loss.refl _

/-- A binary expression counts for no more when it is simplified. -/
theorem census_binaryExpr (pl : Place) (op : Operator) (left right : Expr) :
    within ((binaryExpr o pl op left right).census c) ((Expr.binary pl op left right).census c) := by
  unfold binaryExpr
  split
  · exact loss.refl _
  · next other =>
    refine loss.trans (census_folded blind loss _) (loss.of_eq ?_)
    have pure : op.isAssignment = false := by simpa using other
    have loosened : (if o.comparisons then (op.loosened? left right).getD op else op).isAssignment
        = false := by
      split
      · exact isAssignment_loosened pure left right
      · exact pure
    rw [census_binary blind loosened, census_binary blind pure]

end Rules

/-! ## Rules for statements -/

/-- A label is not seen, so it does not matter whether it stays. -/
theorem census_labelStmt {o : Options} (c : Census α) (pl : Place) (name : String) (body : Stmt) :
    (labelStmt o pl name body).value.census c = body.census c := by
  rw [value_labelStmt]
  split <;> rfl

section Statements

variable {c : Census α} (blind : c.IsBlind) {o : Options}
include blind

theorem stmtsCensus_append (a b : List Stmt) :
    stmtsCensus c (a ++ b) = stmtsCensus c a + stmtsCensus c b :=
  (Census.account blind).ofStmts_append a b

/-- A declaration without initial values holds nothing. -/
theorem census_strip (decl : VarDecl) : decl.strip.census c = 0 := by
  obtain ⟨span, mode, declarators⟩ := decl
  rw [VarDecl.strip, VarDecl.census]
  induction declarators with
  | nil => rfl
  | cons d rest ih =>
    obtain ⟨name, init⟩ := d
    simp only [List.map_cons, Declarator.strip, declaratorsCensus, ih, add_zero]
    split
    · exact blind _ rfl
    · rfl

variable {within : Multiset α → Multiset α → Prop} (loss : Loss o within)
include loss

section Hoisted

-- The linter does not see the calls from one theorem of a mutual block to another.
set_option linter.unusedSectionVars false

variable (drop : o.evaluate = true ∨ o.deadCode = true)
include drop

/-- What is hoisted from a declaration has lost its initial values. -/
theorem VarDecl.census_hoisted (decl : VarDecl) :
    within (stmtsCensus c (decl.hoisted.map Hoisted.toStmt)) (decl.census c) := by
  unfold hoisted
  split
  · simpa [Hoisted.toStmt, stmtsCensus, Stmt.census, census_strip blind] using loss.drop drop _
  · exact loss.drop drop _

theorem LoopHead.census_hoisted (head : LoopHead) :
    within (stmtsCensus c (head.hoisted.map Hoisted.toStmt)) (head.census c) := by
  cases head with
  | decl d => exact d.census_hoisted blind loss drop
  | expr e => exact loss.drop drop _

theorem loopInitCensus_hoisted (init : Option LoopHead) :
    within (stmtsCensus c ((init.toList.flatMap LoopHead.hoisted).map Hoisted.toStmt))
      (loopInitCensus c init) := by
  cases init with
  | none => exact loss.refl _
  | some head => simpa [loopInitCensus] using head.census_hoisted blind loss drop

mutual

/-- Hoisted declarations hold no more than the statement they come from. -/
theorem Stmt.census_hoisted : (s : Stmt) →
    within (stmtsCensus c (s.hoisted.map Hoisted.toStmt)) (s.census c)
  | .block _ body => stmtsCensus_hoisted body
  | .doWhile _ body _ => loss.add_right drop _ body.census_hoisted
  | .forIn _ target _ body => by
    rw [Stmt.hoisted, List.map_append, stmtsCensus_append blind, Stmt.census]
    exact loss.add (loss.add_right drop _ (target.census_hoisted blind loss drop))
      body.census_hoisted
  | .forLoop _ init _ _ body => by
    rw [Stmt.hoisted, List.map_append, stmtsCensus_append blind, Stmt.census]
    exact loss.add (loss.add_right drop _ (loss.add_right drop _
      (loopInitCensus_hoisted blind loss drop init))) body.census_hoisted
  | .func _ _ fn => loss.of_eq (add_zero _)
  | .ite _ _ yes none => loss.add_right drop _ (loss.add_left drop _ yes.census_hoisted)
  | .ite _ _ yes (some no) => by
    rw [Stmt.hoisted, List.map_append, stmtsCensus_append blind, Stmt.census]
    exact loss.add (loss.add_left drop _ yes.census_hoisted) no.census_hoisted
  | .label _ _ body => body.census_hoisted
  | .switch _ _ branches => loss.add_left drop _ (branchesCensus_hoisted branches)
  | .tryCatch _ (.mk _ body) handler final => by
    rw [Stmt.hoisted, List.map_append, List.map_append, stmtsCensus_append blind,
      stmtsCensus_append blind, Stmt.census, Block.census]
    exact loss.add (loss.add (stmtsCensus_hoisted body) (handlerCensus_hoisted handler))
      (finalCensus_hoisted final)
  | .var _ decl => decl.census_hoisted blind loss drop
  | .whileLoop _ _ body | .withObject _ _ body => loss.add_left drop _ body.census_hoisted
  | .breakTo _ _ | .continueTo _ _ | .debugger _ | .empty _ | .expr _ _ | .ret _ _
  | .throw _ _ => loss.drop drop _

theorem stmtsCensus_hoisted : (body : List Stmt) →
    within (stmtsCensus c ((stmtsHoisted body).map Hoisted.toStmt)) (stmtsCensus c body)
  | [] => loss.refl _
  | s :: rest => by
    rw [stmtsHoisted, List.map_append, stmtsCensus_append blind, stmtsCensus]
    exact loss.add s.census_hoisted (stmtsCensus_hoisted rest)

theorem branchesCensus_hoisted : (branches : List Branch) →
    within (stmtsCensus c ((branchesHoisted branches).map Hoisted.toStmt))
      (branchesCensus c branches)
  | [] => loss.refl _
  | .mk _ _ body :: rest => by
    rw [branchesHoisted, List.map_append, stmtsCensus_append blind, branchesCensus]
    exact loss.add (loss.add_left drop _ (stmtsCensus_hoisted body)) (branchesCensus_hoisted rest)

theorem handlerCensus_hoisted : (handler : Option Handler) →
    within (stmtsCensus c ((handlerHoisted handler).map Hoisted.toStmt)) (handlerCensus c handler)
  | none => loss.refl _
  | some (.mk _ _ body) => stmtsCensus_hoisted body

theorem finalCensus_hoisted : (final : Option Block) →
    within (stmtsCensus c ((finalHoisted final).map Hoisted.toStmt)) (finalCensus c final)
  | none => loss.refl _
  | some (.mk _ body) => stmtsCensus_hoisted body

end

end Hoisted

/-- What a census loses are conditions and statements, if there are rules that drop something. -/
theorem Loss.loses : (Census.account blind).Loses o within where
  toCompares := loss.toCompares
  known known := loss.drop (.inl (Expr.evaluate_of_known? known)) _
  hoisted drop s := s.census_hoisted blind loss drop
  stripped on _ decl := loss.trans (loss.of_eq (census_strip blind decl)) (loss.drop (.inr on) _)

end Statements

/-! ## Whole trees -/

/-- Two censuses, one of trees and one of simplified trees, that differ in functions only. What is
taken down of a simplified function is within what is taken down of the function. -/
structure Census.Follows (o : Options) (within : Multiset α → Multiset α → Prop)
    (after before : Census α) : Prop extends Loss o within where
  blind : after.IsBlind
  head : ∀ h, after.atHead h = before.atHead h
  func : ∀ fn, within (after.atFunc (Func.minify o fn).value) (before.atFunc fn)

/-- All changes to a list keep within what was found before. -/
theorem Census.Follows.tighten {o : Options} {within : Multiset α → Multiset α → Prop}
    {after before : Census α} (follows : Census.Follows o within after before) {stmts : List Stmt}
    {a : Multiset α} (inside : within (stmtsCensus after stmts) a) :
    within (stmtsCensus after (Minifier.tighten o stmts).value) a :=
  follows.trans ((follows.toLoss.loses follows.blind).tighten _) inside

section Trees

set_option linter.unusedSectionVars false

variable {o : Options} {within : Multiset α → Multiset α → Prop} {after before : Census α}
  (follows : Census.Follows o within after before)
include follows

mutual

/-- What a simplified expression holds is within what the expression holds. -/
theorem Expr.census_minify : (e : Expr) → within ((e.minify o).value.census after) (e.census before)
  | .binary pl op left right => by
    refine follows.trans (census_binaryExpr follows.blind follows.toLoss pl op _ _) ?_
    rw [Expr.census, Expr.census, follows.head]
    exact follows.add (follows.refl _) (follows.add left.census_minify right.census_minify)
  | .call pl isNew callee args => by
    simp only [Expr.minify, Report.value_bind, Report.value_pure, Expr.census, follows.head]
    exact follows.add (follows.refl _) (follows.add callee.census_minify (exprsCensus_minify args))
  | .index pl object key => by
    simp only [Expr.minify, Report.value_bind, Report.value_pure, census_indexExpr follows.blind]
    rw [Expr.census, ← follows.head, follows.blind _ rfl, zero_add]
    exact follows.add object.census_minify key.census_minify
  | .cond pl test yes no => by
    have parts := follows.add (follows.add test.census_minify yes.census_minify) no.census_minify
    rw [Expr.census, ← follows.head, follows.blind _ rfl, zero_add]
    simp only [Expr.minify, Report.value_bind, Report.value_pure]
    split
    · exact follows.trans (follows.of_eq ((Census.account follows.blind).ofExpr_condExpr _ _ _ _)) parts
    · exact census_cond follows.blind _ _ _ _ ▸ parts
  | .func pl name fn => by
    simp only [Expr.minify, Report.value_bind, Report.value_pure, Expr.census, follows.head]
    exact follows.add (follows.refl _) fn.census_minify
  | .member pl object name => by
    simp only [Expr.minify, Report.value_bind, Report.value_pure, Expr.census, follows.head]
    exact follows.add (follows.refl _) object.census_minify
  | .unary pl op arg => by
    refine follows.trans (census_folded follows.blind follows.toLoss _) ?_
    rw [Expr.census, Expr.census, follows.head]
    exact follows.add (follows.refl _) arg.census_minify
  | .update pl op arg => by
    simp only [Expr.minify, Report.value_bind, Report.value_pure, Expr.census, follows.head]
    exact follows.add (follows.refl _) arg.census_minify
  | .array pl elements => by
    simp only [Expr.minify, Report.value_bind, Report.value_pure, Expr.census, follows.head]
    exact follows.add (follows.refl _) (elementsCensus_minify elements)
  | .object pl members => by
    simp only [Expr.minify, Report.value_bind, Report.value_pure, Expr.census, follows.head]
    exact follows.add (follows.refl _) (membersCensus_minify members)
  | .ident _ _ | .this _ | .bool _ _ | .null _ | .num _ _ | .regex _ _ | .str _ _ | .undef _ =>
    follows.of_eq (follows.head _)

theorem exprsCensus_minify : (args : List Expr) →
    within (exprsCensus after (minifyExprs o args).value) (exprsCensus before args)
  | [] => follows.refl _
  | e :: rest => follows.add e.census_minify (exprsCensus_minify rest)

theorem optionCensus_minify : (e : Option Expr) →
    within (optionCensus after (minifyOption o e).value) (optionCensus before e)
  | none => follows.refl _
  | some e => e.census_minify

theorem elementsCensus_minify : (elements : List (Option Expr)) →
    within (elementsCensus after (minifyElements o elements).value) (elementsCensus before elements)
  | [] => follows.refl _
  | e :: rest => follows.add (optionCensus_minify e) (elementsCensus_minify rest)

/-- What is taken down of a function and what its body holds follow alike. -/
theorem Func.census_minify : (fn : Func) →
    within ((fn.minify o).value.census after) (fn.census before)
  | .mk span params body =>
    follows.add (follows.func (.mk span params body)) (follows.tighten (stmtsCensus_minify body))

theorem membersCensus_minify : (members : List Member) →
    within (membersCensus after (minifyMembers o members).value) (membersCensus before members)
  | [] => follows.refl _
  | .value _ _ e :: rest => follows.add e.census_minify (membersCensus_minify rest)
  | .getter _ _ fn :: rest | .setter _ _ fn :: rest =>
    follows.add fn.census_minify (membersCensus_minify rest)

theorem declaratorsCensus_minify : (declarators : List Declarator) →
    within (declaratorsCensus after (minifyDeclarators o declarators).value)
      (declaratorsCensus before declarators)
  | [] => follows.refl _
  | .mk _ init :: rest => follows.add (optionCensus_minify init) (declaratorsCensus_minify rest)

theorem VarDecl.census_minify : (decl : VarDecl) →
    within ((decl.minify o).value.census after) (decl.census before)
  | .mk _ _ declarators => declaratorsCensus_minify declarators

theorem LoopHead.census_minify : (head : LoopHead) →
    within ((head.minify o).value.census after) (head.census before)
  | .decl d => d.census_minify
  | .expr e => e.census_minify

theorem loopInitCensus_minify : (init : Option LoopHead) →
    within (loopInitCensus after (minifyLoopInit o init).value) (loopInitCensus before init)
  | none => follows.refl _
  | some head => head.census_minify

theorem branchesCensus_minify : (branches : List Branch) →
    within (branchesCensus after (minifyBranches o branches).value) (branchesCensus before branches)
  | [] => follows.refl _
  | .mk _ test body :: rest =>
    follows.add (follows.add (optionCensus_minify test) (follows.tighten (stmtsCensus_minify body)))
      (branchesCensus_minify rest)

theorem Block.census_minify : (block : Block) →
    within ((block.minify o).value.census after) (block.census before)
  | .mk _ body => follows.tighten (stmtsCensus_minify body)

theorem handlerCensus_minify : (handler : Option Handler) →
    within (handlerCensus after (minifyHandler o handler).value) (handlerCensus before handler)
  | none => follows.refl _
  | some (.mk _ _ body) => follows.tighten (stmtsCensus_minify body)

theorem finalCensus_minify : (final : Option Block) →
    within (finalCensus after (minifyFinal o final).value) (finalCensus before final)
  | none => follows.refl _
  | some block => block.census_minify

/-- What a simplified statement holds is within what the statement holds. -/
theorem Stmt.census_minify : (s : Stmt) → within ((s.minify o).value.census after) (s.census before)
  | .block pl body => by
    refine follows.trans (follows.of_eq ((Census.account follows.blind).ofStmt_blockStmt pl _)) ?_
    exact follows.tighten (stmtsCensus_minify body)
  | .debugger pl => by
    simp only [Stmt.minify, Report.value_pure]
    split <;> exact follows.refl _
  | .doWhile _ body test => follows.add body.census_minify test.census_minify
  | .expr _ e => e.census_minify
  | .forIn _ target object body =>
    follows.add (follows.add target.census_minify object.census_minify) body.census_minify
  | .forLoop _ init test step body =>
    follows.add (follows.add (follows.add (loopInitCensus_minify init) (optionCensus_minify test))
      (optionCensus_minify step)) body.census_minify
  | .func _ _ fn => fn.census_minify
  | .ite pl test yes no => by
    have parts := follows.add (follows.add test.census_minify yes.census_minify)
      (elseCensus_minify no)
    simp only [Stmt.minify, Report.value_bind]
    split
    · exact follows.trans (follows.toLoss.loses follows.blind).simplifyIf parts
    · have kept := (Census.account follows.blind).ofStmt_ifStmt pl.outer (test.minify o).value
        (yes.minify o).value (minifyElse o no).value
      exact follows.trans (follows.of_eq kept) parts
  | .label pl name body => by
    simp only [Stmt.minify, Report.value_bind, census_labelStmt]
    exact body.census_minify
  | .ret _ value => optionCensus_minify value
  | .switch _ subject branches => follows.add subject.census_minify (branchesCensus_minify branches)
  | .throw _ value => value.census_minify
  | .tryCatch _ body handler final =>
    follows.add (follows.add body.census_minify (handlerCensus_minify handler))
      (finalCensus_minify final)
  | .var _ decl => decl.census_minify
  | .whileLoop _ test body => follows.add test.census_minify body.census_minify
  | .withObject _ object body => follows.add object.census_minify body.census_minify
  | .breakTo _ _ | .continueTo _ _ | .empty _ => follows.refl _

theorem elseCensus_minify : (no : Option Stmt) →
    within (elseCensus after (minifyElse o no).value) (elseCensus before no)
  | none => follows.refl _
  | some s => s.census_minify

/-- What simplified statements hold is within what the statements hold. -/
theorem stmtsCensus_minify : (body : List Stmt) →
    within (stmtsCensus after (minifyStmts o body).value) (stmtsCensus before body)
  | [] => follows.refl _
  | s :: rest => follows.add s.census_minify (stmtsCensus_minify rest)

end

end Trees

/-! ## Counts -/

/-- The census that lists the heads which rules neither put in nor change: names, calls, `new`, `this`,
regular expressions, assignments, `++` and `--`, and the other operators before an operand except `!`,
such as `delete`. -/
def Census.lasting : Census Head :=
  ⟨fun h => if h.isNeutral then 0 else {h}, fun _ => 0⟩

/-- How many expressions of a program, function bodies included, have a lasting head of a kind. -/
def Program.tally (p : Program) (kind : Head → Bool) : Nat :=
  (stmtsCensus .lasting p.body).countP fun h => kind h = true

/-- The census of lasting heads follows itself, as it does not look at functions. -/
theorem lasting_follow {o : Options} {within : Multiset Head → Multiset Head → Prop}
    (loss : Loss o within) : Census.Follows o within .lasting .lasting where
  toLoss := loss
  blind _ neutral := if_pos neutral
  head _ := rfl
  func _ := loss.refl _

/-- What lasts in a simplified list is within what lasts in the list. -/
theorem stmtsCensus_lasting {o : Options} {within : Multiset Head → Multiset Head → Prop}
    (loss : Loss o within) (body : List Stmt) :
    within (stmtsCensus .lasting (minifyBody o body).value) (stmtsCensus .lasting body) :=
  have follows := lasting_follow loss
  follows.tighten (stmtsCensus_minify follows body)

/-- Simplifying duplicates nothing: no kind of lasting head occurs more often than before. If neither
constants are folded nor unreachable statements dropped, nothing is lost either. -/
theorem tally_minify (o : Options) (p : Program) (kind : Head → Bool) :
    (p.minify o).value.tally kind ≤ p.tally kind ∧
    (o.evaluate = false ∧ o.deadCode = false → (p.minify o).value.tally kind = p.tally kind) := by
  constructor
  · have atMost : Loss o fun a b : Multiset Head => a ≤ b :=
      ⟨⟨le_refl, le_trans, add_le_add⟩, fun _ => Multiset.zero_le⟩
    exact Multiset.countP_le_of_le _ (stmtsCensus_lasting atMost p.body)
  · rintro ⟨noFolding, noDropping⟩
    have same : Loss o fun a b : Multiset Head => a = b :=
      { refl := fun _ => rfl
        trans := Eq.trans
        add := fun first second => first ▸ second ▸ rfl
        drop := fun drops => by simp [noFolding, noDropping] at drops }
    exact congrArg (Multiset.countP _) (stmtsCensus_lasting same p.body)

/-- The case of `if (!x) {} else { f(x = 1); return /r/ }` with everything on but folding and
dropping, where the condition is negated and the statements are joined. -/
theorem tally_minify_joined :
    let here : Place := default
    let called := Expr.call here false (.ident here "f")
      [.binary here .assign (.ident here "x") (.num here (.ofNat 1))]
    let p : Program := ⟨default, [.ite here (.unary here .logicalNot (.ident here "x"))
      (.block here []) (some (.block here [.expr here called, .ret here (some (.regex here "/r/"))]))]⟩
    let o : Options := { Options.all true with evaluate := false, deadCode := false }
    (o.evaluate = false ∧ o.deadCode = false) ∧ p.tally (· == .ident "x") = 2 ∧
      (p.minify o).value.tally (· == .ident "x") = p.tally (· == .ident "x") := by
  intro here called p o
  have off : o.evaluate = false ∧ o.deadCode = false := ⟨rfl, rfl⟩
  exact ⟨off, rfl, (tally_minify o p (· == .ident "x")).2 off⟩

end Minifier
