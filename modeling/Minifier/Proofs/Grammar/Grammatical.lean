import Minifier.Proofs.Grammar.Pieces

/-!
# What can be read is grammatical

A tree that some text is read as has its declarations only where the grammar has a place for them, and
at most one default in each `switch`. Writing a tree changes nothing about that. So a tree that breaks
one of these rules is not read back from its text, however it is printed.
-/

namespace Minifier.Grammar

variable {ps rest : List Piece}

/-! ## Trees that are read -/

/-- No statement is a declaration. -/
theorem ParsesStmt.isScoped_eq {s : Stmt} (parses : ParsesStmt ps s rest) : s.isScoped = false := by
  cases parses with
  | var isVar => simp [Stmt.isScoped, isVar]
  | _ => rfl

/-- What needs no scope of its own declares nothing with `let` or `const`. -/
theorem isLexical_of_isScoped {s : Stmt} (plain : s.isScoped = false) : s.isLexical = false := by
  cases s with
  | var outer decl => exact plain
  | _ => rfl

/-- A loop over keys is read only if its target has no initial value, or is a `var`. -/
theorem ParsesTarget.isBare {head : LoopHead} (parses : ParsesTarget ps head rest) :
    head.isBare = true := by
  cases parses with
  | decl mode declares bare =>
    by_cases isVar : mode = .var
    · simp [LoopHead.isBare, isVar]
    · simp [LoopHead.isBare, bare isVar]
  | expr => rfl

/-- No more `default` branches are read than are left to read. -/
theorem ParsesBranches.countP_le {defaults : Nat} {branches : List Branch}
    (parses : ParsesBranches defaults ps branches rest) :
    branches.countP Branch.isDefault ≤ defaults := by
  induction branches generalizing ps defaults with
  | nil => exact Nat.zero_le _
  | cons branch more ih =>
    cases parses with
    | case inner others =>
      rw [List.countP_cons_of_neg (by simp [Branch.isDefault])]
      exact ih others
    | default inner others =>
      rw [List.countP_cons_of_pos rfl]
      exact Nat.succ_le_succ (ih others)

mutual

/-- A statement that is read is grammatical. -/
theorem ParsesStmt.isGrammatical {ps rest : List Piece} {s : Stmt} :
    ParsesStmt ps s rest → s.isGrammatical = true
  | .block inner => inner.isGrammatical
  | .doWhile inner => by simp [inner.isScoped_eq, inner.isGrammatical]
  | .forIn head inner => by simp [head.isBare, inner.isScoped_eq, inner.isGrammatical]
  | .forLoop _ _ _ inner => by simp [inner.isScoped_eq, inner.isGrammatical]
  | .ifElse first second => by
    simp [first.isScoped_eq, first.isGrammatical, second.isScoped_eq, second.isGrammatical]
  | .ifOnly first _ => by simp [first.isScoped_eq, first.isGrammatical]
  | .label _ inner => by
    simp [isLexical_of_isScoped inner.isScoped_eq, inner.isGrammatical]
  | .labelledFunc _ _ inner => inner.isGrammatical
  | .switch inner => by simp [inner.countP_le, inner.isGrammatical]
  | .tryCatch inner second => by simp [inner.isGrammatical, second.isGrammatical]
  | .tryFinally inner last => by
    simp [handlerGrammatical, inner.isGrammatical, last.isGrammatical]
  | .tryCatchFinally inner second last => by
    simp [inner.isGrammatical, second.isGrammatical, last.isGrammatical]
  | .whileLoop inner => by simp [inner.isScoped_eq, inner.isGrammatical]
  | .withObject inner => by simp [inner.isScoped_eq, inner.isGrammatical]
  | .breakOut | .breakTo _ | .continueNext | .continueTo _ | .debugger | .empty | .expr _ | .ret _
  | .throw | .var _ _ => rfl

/-- Whatever is read as an item of a list is grammatical. -/
theorem ParsesItem.isGrammatical {ps rest : List Piece} {s : Stmt} :
    ParsesItem ps s rest → s.isGrammatical = true
  | .stmt inner => inner.isGrammatical
  | .func _ inner => inner.isGrammatical
  | .lexical _ _ => rfl

/-- Whatever is read as a list of statements is grammatical. -/
theorem ParsesStmts.isGrammatical {ps rest : List Piece} {body : List Stmt} :
    ParsesStmts ps body rest → stmtsGrammatical body = true
  | .nil => rfl
  | .cons first others => by simp [first.isGrammatical, others.isGrammatical]

theorem ParsesBranches.isGrammatical {defaults : Nat} {ps rest : List Piece}
    {branches : List Branch} :
    ParsesBranches defaults ps branches rest → branchesGrammatical branches = true
  | .nil => rfl
  | .case inner others | .default inner others => by
    simp [inner.isGrammatical, others.isGrammatical]

/-- Whatever is read as a function is grammatical. -/
theorem ParsesFunc.isGrammatical {ps rest : List Piece} {fn : Func} :
    ParsesFunc ps fn rest → fn.isGrammatical = true
  | .noParams inner | .withParams _ inner => inner.isGrammatical

theorem ParsesBlock.isGrammatical {ps rest : List Piece} {block : Block} :
    ParsesBlock ps block rest → block.isGrammatical = true
  | .mk inner => inner.isGrammatical

theorem ParsesHandler.isGrammatical {ps rest : List Piece} {handler : Handler} :
    ParsesHandler ps handler rest → handlerGrammatical (some handler) = true
  | .noParam inner | .withParam _ inner => inner.isGrammatical

end

/-! ## Trees that are written -/

/-- Whether a statement needs a scope does not depend on spans. -/
theorem isScoped_written (s : Stmt) : s.written.isScoped = s.isScoped := by
  cases s with
  | var outer decl => obtain ⟨span, mode, declarators⟩ := decl; rfl
  | ite pl test yes no => cases no <;> rfl
  | _ => rfl

/-- Nor does whether it declares with `let` or `const`. -/
theorem isLexical_written (s : Stmt) : s.written.isLexical = s.isLexical := by
  cases s with
  | var outer decl => obtain ⟨span, mode, declarators⟩ := decl; rfl
  | ite pl test yes no => cases no <;> rfl
  | _ => rfl

/-- Nor does whether a target has an initial value. -/
theorem isBare_written (head : LoopHead) : head.written.isBare = head.isBare := by
  cases head with
  | decl d => obtain ⟨span, mode, declarators⟩ := d; rfl
  | expr e => rfl

/-- What ends with an open `if` is no declaration, so braces around it make no difference. -/
theorem isScoped_of_endsWithOpenIf {s : Stmt} (opened : s.endsWithOpenIf = true) :
    s.isScoped = false := by
  cases s with
  | func | var => cases opened
  | _ => rfl

/-- Nor does how many `default` branches there are. -/
theorem countP_writtenBranches (branches : List Branch) :
    (writtenBranches branches).countP Branch.isDefault = branches.countP Branch.isDefault := by
  induction branches with
  | nil => rfl
  | cons branch more ih =>
    obtain ⟨span, test, body⟩ := branch
    simp [writtenBranches, List.countP_cons, ih, Branch.isDefault]

mutual

/-- A written statement is grammatical exactly if the statement is. -/
theorem isGrammatical_written : (s : Stmt) → s.written.isGrammatical = s.isGrammatical
  | .block _ body => stmtsGrammatical_written body
  | .doWhile _ body _ | .forLoop _ _ _ _ body | .whileLoop _ _ body | .withObject _ _ body => by
    simp [Stmt.written, isScoped_written, isGrammatical_written body]
  | .forIn _ target _ body => by
    simp [Stmt.written, isBare_written, isScoped_written, isGrammatical_written body]
  | .func _ _ (.mk _ _ body) => stmtsGrammatical_written body
  | .ite _ _ yes none => by simp [Stmt.written, isScoped_written, isGrammatical_written yes]
  | .ite _ _ yes (some no) => by
    have branch : (if yes.endsWithOpenIf then Stmt.block default [yes.written]
        else yes.written).isGrammatical = yes.isGrammatical := by
      split
      · simp [isGrammatical_written yes]
      · exact isGrammatical_written yes
    have plain : (if yes.endsWithOpenIf then Stmt.block default [yes.written]
        else yes.written).isScoped = yes.isScoped := by
      split
      · next opened => exact (isScoped_of_endsWithOpenIf opened).symm
      · exact isScoped_written yes
    simp [Stmt.written, branch, plain, isScoped_written, isGrammatical_written no]
  | .label _ _ body => by simp [Stmt.written, isLexical_written, isGrammatical_written body]
  | .switch _ _ branches => by
    simp [Stmt.written, countP_writtenBranches, branchesGrammatical_written branches]
  | .tryCatch _ (.mk _ body) handler final => by
    simp [Stmt.written, Block.written, stmtsGrammatical_written body,
      handlerGrammatical_written handler, finalGrammatical_written final]
  | .breakTo _ _ | .continueTo _ _ | .debugger _ | .empty _ | .expr _ _ | .ret _ _ | .throw _ _
  | .var _ _ => rfl

theorem branchesGrammatical_written : (branches : List Branch) →
    branchesGrammatical (writtenBranches branches) = branchesGrammatical branches
  | [] => rfl
  | .mk _ _ body :: more => by
    simp [writtenBranches, stmtsGrammatical_written body, branchesGrammatical_written more]

theorem handlerGrammatical_written : (handler : Option Handler) →
    handlerGrammatical (writtenHandler handler) = handlerGrammatical handler
  | none => rfl
  | some (.mk _ _ body) => stmtsGrammatical_written body

theorem finalGrammatical_written : (final : Option Block) →
    finalGrammatical (writtenFinal final) = finalGrammatical final
  | none => rfl
  | some (.mk _ body) => stmtsGrammatical_written body

/-- Whether statements are grammatical does not depend on spans. -/
theorem stmtsGrammatical_written : (body : List Stmt) →
    stmtsGrammatical (writtenStmts body) = stmtsGrammatical body
  | [] => rfl
  | s :: more => by
    simp [writtenStmts, isGrammatical_written s, stmtsGrammatical_written more]

end

end Minifier.Grammar
