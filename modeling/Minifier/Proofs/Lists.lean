import Minifier.Simplify

/-!
# Changes to statement lists

The changes to a list of statements, seen from outside. Unwrapping blocks and joining expressions keep
whatever is gathered from a list statement by statement, as long as a block counts as its statements
and a comma as two expression statements. That is said once for all such accounts, in terms of the
relation `same` of lists with the same account. Dropping unreachable statements may lose something,
and `within` relates what is left to what there was.
-/

namespace Minifier

attribute [simp] Expr.minify minifyExprs minifyOption minifyElements Func.minify minifyMembers
  minifyDeclarators VarDecl.minify LoopHead.minify minifyLoopInit minifyBranches Block.minify
  minifyHandler minifyFinal Stmt.minify minifyElse minifyStmts

attribute [simp] Stmt.hoisted stmtsHoisted branchesHoisted handlerHoisted finalHoisted

instance : LawfulMonad Report := by
  refine LawfulMonad.mk' _ ?_ ?_ ?_
  · intro α x
    change Report.mk x.value (x.findings ++ []) = x
    rw [List.append_nil]
  · intro α β a f
    rfl
  · intro α β γ x f g
    exact congrArg (Report.mk _) (List.append_assoc _ _ _)

@[simp] theorem Report.value_map {α β : Type} (f : α → β) (x : Report α) :
    (f <$> x).value = f x.value := rfl

@[simp] theorem Report.findings_map {α β : Type} (f : α → β) (x : Report α) :
    (f <$> x).findings = x.findings :=
  List.append_nil _

/-- What is left of an unreachable statement. -/
def Stmt.kept : Stmt → List Stmt
  | .func pl name fn => [.func pl name fn]
  | s => s.leftOver.map Hoisted.toStmt

variable {o : Options}

/-- Hoisted declarations are kept in order. -/
theorem value_keepHoisted (hoisted : List Hoisted) :
    (hoisted.mapM (Hoisted.keep o)).value = hoisted.map Hoisted.toStmt := by
  induction hoisted with
  | nil => rfl
  | cons h rest ih =>
    rw [List.mapM_cons, List.map_cons]
    simp only [Report.value_bind, Report.value_pure, ih]
    rfl

/-- Of an unreachable statement a function is kept, and otherwise its declarations. -/
theorem value_keepUnreachable (s : Stmt) : (s.keepUnreachable o).value = s.kept := by
  cases s with
  | func pl name fn => rfl
  | _ => exact value_keepHoisted _

theorem value_keepAllUnreachable (stmts : List Stmt) :
    (keepAllUnreachable o stmts).value = stmts.flatMap Stmt.kept := by
  induction stmts with
  | nil => rfl
  | cons s rest ih =>
    simp only [keepAllUnreachable, Report.value_bind, Report.value_pure, value_keepUnreachable, ih,
      List.flatMap_cons]

/-- Statements up to the first jump stay, and something is left of those behind it. -/
theorem value_dropUnreachable (stmts : List Stmt) :
    (dropUnreachable o stmts).value =
      (splitAtJump stmts).1 ++ (splitAtJump stmts).2.flatMap Stmt.kept := by
  simp only [dropUnreachable, Report.value_bind, Report.value_pure, value_keepAllUnreachable]

/-- Splitting a list at its first jump loses nothing. -/
theorem splitAtJump_append (stmts : List Stmt) :
    (splitAtJump stmts).1 ++ (splitAtJump stmts).2 = stmts := by
  fun_induction splitAtJump stmts with
  | case1 => rfl
  | case2 s rest jump => rfl
  | case3 s rest noJump reached unreached split ih =>
    rw [split] at ih
    simp only [List.cons_append, ih]

/-- Blocks are unwrapped first, unreachable statements dropped next, and expressions joined last. -/
theorem tighten_eq (stmts : List Stmt) :
    tighten o stmts =
      (if o.deadCode then dropUnreachable o (unwrapBlocks stmts) else pure (unwrapBlocks stmts)) >>=
        fun reached => pure (if o.sequences then fuse reached else reached) := by
  cases dead : o.deadCode <;> simp only [tighten, dead] <;> rfl

theorem value_tighten (stmts : List Stmt) :
    (tighten o stmts).value =
      let reached := if o.deadCode then (dropUnreachable o (unwrapBlocks stmts)).value
        else unwrapBlocks stmts
      if o.sequences then fuse reached else reached := by
  by_cases dead : o.deadCode = true
  · simp only [tighten, dead, if_true, Report.value_bind, Report.value_pure]
  · simp only [tighten, dead, Report.value_bind, Report.value_pure, Bool.false_eq_true, if_false]

/-- Unwrapping blocks brings no declaration to light that would need a block. -/
theorem needsBlock_unwrapBlocks {stmts : List Stmt} (unscoped : needsBlock stmts = false) :
    needsBlock (unwrapBlocks stmts) = false := by
  simp only [needsBlock, List.any_eq_false] at *
  intro t mem
  obtain ⟨s, found, inside⟩ := List.mem_flatMap.mp mem
  unfold Stmt.unwrapped at inside
  split at inside
  · next pl body =>
    split at inside
    · obtain rfl := List.mem_singleton.mp inside
      exact unscoped _ found
    · next noBlock => simp_all [needsBlock]
  · cases inside
  · obtain rfl := List.mem_singleton.mp inside
    exact unscoped _ found

/-- A label stays if something refers to it. -/
theorem value_labelStmt (pl : Place) (name : String) (body : Stmt) :
    (labelStmt o pl name body).value =
      if body.labelRefs name = 0 then body else .label pl name body := by
  unfold labelStmt
  split <;> rfl

/-- A relation of statement lists that have the same account, where a comma counts as two expression
statements. -/
structure JoinCongruence (same : List Stmt → List Stmt → Prop) : Prop extends Equivalence same where
  append : ∀ {a b c d}, same a b → same c d → same (a ++ c) (b ++ d)
  comma : ∀ pl span first second p q,
    same [.expr pl (.comma span first second)] [.expr p first, .expr q second]
  ret : ∀ pl span first value p q,
    same [.ret pl (some (.comma span first value))] [.expr p first, .ret q (some value)]
  throw : ∀ pl span first value p q,
    same [.throw pl (.comma span first value)] [.expr p first, .throw q value]

namespace JoinCongruence

variable {same : List Stmt → List Stmt → Prop} (laws : JoinCongruence same)
include laws

theorem cons (s : Stmt) {a b : List Stmt} (tail : same a b) : same (s :: a) (s :: b) :=
  laws.append (laws.refl [s]) tail

/-- The run at hand counts as an expression statement before the rest of the list. -/
theorem joinRuns (pending : Option (Place × Expr)) (stmts : List Stmt) :
    same (joinRuns pending stmts) ((pending.map fun p => .expr p.1 p.2).toList ++ stmts) := by
  fun_induction Minifier.joinRuns pending stmts with
  | case1 => exact laws.refl _
  | case2 pl e => exact laws.refl _
  | case3 pl e rest ih => exact ih
  | case4 pl first next second rest span ih =>
    have split := laws.append (laws.comma (.both span) span first second pl next) (laws.refl rest)
    exact laws.trans ih split
  | case5 s rest other ih => exact laws.cons s ih
  | case6 pl e s rest other ih => exact laws.cons _ (laws.cons s ih)

/-- Joining expressions keeps the account. -/
theorem fuse (stmts : List Stmt) : same (fuse stmts) stmts := by
  have joined := laws.joinRuns none stmts
  unfold Minifier.fuse
  split
  · next pl first last value shape =>
    rw [shape] at joined
    exact laws.trans (laws.ret _ _ first value pl last) joined
  · next pl first last value shape =>
    rw [shape] at joined
    exact laws.trans (laws.throw _ _ first value pl last) joined
  · exact joined

end JoinCongruence

/-- Joining leaves nothing only where there is nothing. -/
theorem joinRuns_eq_nil {pending : Option (Place × Expr)} {stmts : List Stmt}
    (joined : joinRuns pending stmts = []) : stmts = [] := by
  fun_induction joinRuns pending stmts with
  | case1 => rfl
  | case3 pl e rest ih =>
    obtain rfl := ih joined
    cases joined
  | case4 pl first next second rest span ih =>
    obtain rfl := ih joined
    cases joined
  | _ => cases joined

/-- A relation of statement lists that have the same account, where a block also counts as its
statements. -/
structure ListCongruence (same : List Stmt → List Stmt → Prop) : Prop extends JoinCongruence same where
  empty : ∀ pl, same [] [.empty pl]
  block : ∀ pl {body}, needsBlock body = false → same body [.block pl body]

namespace ListCongruence

variable {same : List Stmt → List Stmt → Prop} (laws : ListCongruence same)
include laws

/-- A statement that is unwrapped keeps its account. -/
theorem unwrapped (s : Stmt) : same s.unwrapped [s] := by
  unfold Stmt.unwrapped
  split
  · next pl body =>
    split
    · exact laws.refl _
    · next noBlock => exact laws.block pl (by simpa using noBlock)
  · exact laws.empty _
  · exact laws.refl _

/-- Unwrapping blocks keeps the account. -/
theorem unwrapBlocks (stmts : List Stmt) : same (unwrapBlocks stmts) stmts := by
  induction stmts with
  | nil => exact laws.refl _
  | cons s rest ih => exact laws.append (laws.unwrapped s) ih

end ListCongruence

/-- A relation of what is left of a list to the list itself. It does not tell lists with the same
account apart. -/
structure ListLoss (same within : List Stmt → List Stmt → Prop) : Prop where
  refl : ∀ a, within a a
  append : ∀ {a b c d}, within a b → within c d → within (a ++ c) (b ++ d)
  after : ∀ {a b c}, same a b → within b c → within a c
  before : ∀ {a b c}, within a b → same b c → within a c

namespace ListLoss

variable {same within : List Stmt → List Stmt → Prop} (loss : ListLoss same within)
include loss

/-- Of a list without unreachable statements there is left what is left of its statements. -/
theorem dropUnreachable (kept : ∀ s : Stmt, within s.kept [s]) (stmts : List Stmt) :
    within (dropUnreachable o stmts).value stmts := by
  have unreached (rest : List Stmt) : within (rest.flatMap Stmt.kept) rest := by
    induction rest with
    | nil => exact loss.refl []
    | cons s rest ih => exact loss.append (kept s) ih
  have whole := loss.append (loss.refl (splitAtJump stmts).1) (unreached (splitAtJump stmts).2)
  rwa [splitAtJump_append, ← value_dropUnreachable] at whole

/-- All changes to a list together lose what dropping unreachable statements loses. -/
theorem tighten (laws : ListCongruence same)
    (drop : o.deadCode = true → ∀ stmts, within (Minifier.dropUnreachable o stmts).value stmts)
    (stmts : List Stmt) : within (tighten o stmts).value stmts := by
  have unwrapped := laws.unwrapBlocks stmts
  have reached : within (if o.deadCode then (Minifier.dropUnreachable o (unwrapBlocks stmts)).value
      else unwrapBlocks stmts) stmts := by
    split
    · next on => exact loss.before (drop on _) unwrapped
    · exact loss.before (loss.refl _) unwrapped
  rw [value_tighten]
  dsimp only
  split
  · exact loss.after (laws.fuse _) reached
  · exact reached

end ListLoss

/-- All lists with the same account may be left of one another. -/
theorem ListCongruence.loss {same : List Stmt → List Stmt → Prop} (laws : ListCongruence same) :
    ListLoss same same :=
  ⟨laws.refl, laws.append, laws.trans, laws.trans⟩

end Minifier
