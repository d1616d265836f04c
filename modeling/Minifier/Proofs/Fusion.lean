import Minifier.Proofs.NormalForm

/-!
# What joining statements keeps

A list of statements does one thing after another. Its *atoms* are these things: an expression
statement is split at its commas, and so is the value of a `return` or `throw`, whose last operand
is what is handed out. Joining statements with commas regroups the atoms and changes nothing else:
they stay the same, in the same order, each as often as before. Every other statement stays as it
is, its place included.
-/

namespace Minifier

/-- The last operand of an expression that is taken apart at its commas. -/
def Expr.final : Expr → Expr
  | .binary pl op left right => if op = .comma then right.final else .binary pl op left right
  | e => e

/-- The operands before the last one. -/
def Expr.leading : Expr → List Expr
  | .binary _ op left right =>
    if op = .comma then left.leading ++ left.final :: right.leading else []
  | _ => []

/-- One thing that a list of statements does: it evaluates an expression without a comma, it hands one
out, or it runs a statement of another form. -/
inductive Atom
  | eval (e : Expr)
  | ret (value : Expr)
  | throw (value : Expr)
  | run (s : Stmt)

/-- What a statement does, in order. -/
def Stmt.atoms : Stmt → List Atom
  | .expr _ e => e.leading.map .eval ++ [.eval e.final]
  | .ret _ (some value) => value.leading.map .eval ++ [.ret value.final]
  | .throw _ value => value.leading.map .eval ++ [.throw value.final]
  | s => [.run s]

/-- What a list of statements does, in order. -/
def atoms (stmts : List Stmt) : List Atom :=
  stmts.flatMap Stmt.atoms

/-- Whether the statement hands out a value and leaves the list. -/
def Stmt.handsOut : Stmt → Bool
  | .ret _ (some _) | .throw _ _ => true
  | _ => false

/-- The statements that are not expressions, without a last one that hands out a value. -/
def bystanders : List Stmt → List Stmt
  | [] => []
  | s :: rest =>
    if s.expr?.isSome || (s.handsOut && rest.isEmpty) then bystanders rest else s :: bystanders rest

/-! ## Atoms -/

@[simp] theorem Expr.leading_comma (span : Span) (first second : Expr) :
    (Expr.comma span first second).leading = first.leading ++ first.final :: second.leading := rfl

@[simp] theorem Expr.final_comma (span : Span) (first second : Expr) :
    (Expr.comma span first second).final = second.final := rfl

theorem atoms_append (a b : List Stmt) : atoms (a ++ b) = atoms a ++ atoms b :=
  List.flatMap_append

/-- Lists that do the same can stand for one another, and a comma does what its two operands do. -/
theorem atoms_congruence : JoinCongruence fun a b => atoms a = atoms b where
  refl _ := rfl
  symm same := same.symm
  trans first second := first.trans second
  append head tail := by rw [atoms_append, atoms_append, head, tail]
  comma _ _ _ _ _ _ := by simp [atoms, Stmt.atoms]
  ret _ _ _ _ _ _ := by simp [atoms, Stmt.atoms]
  throw _ _ _ _ _ _ := by simp [atoms, Stmt.atoms]

/-! ## Bystanders -/

/-- Whether a statement is a bystander depends on the rest of the list only if nothing follows. -/
theorem bystanders_cons (s : Stmt) {a b : List Stmt} (ends : a = [] ↔ b = [])
    (same : bystanders a = bystanders b) : bystanders (s :: a) = bystanders (s :: b) := by
  have ended : a.isEmpty = b.isEmpty := by
    rw [Bool.eq_iff_iff, List.isEmpty_iff, List.isEmpty_iff]
    exact ends
  rw [bystanders, bystanders, ended, same]

/-- Joining runs leaves statements alone that are no expressions. -/
theorem bystanders_joinRuns (pending : Option (Place × Expr)) (stmts : List Stmt) :
    bystanders (joinRuns pending stmts) = bystanders stmts := by
  -- A list that is joined is over exactly where the list itself is.
  have ends (rest : List Stmt) : joinRuns none rest = [] ↔ rest = [] :=
    ⟨joinRuns_eq_nil, by rintro rfl; rfl⟩
  fun_induction joinRuns pending stmts with
  | case1 => rfl
  | case2 pl e => rfl
  | case3 pl e rest ih => exact ih
  | case4 pl first next second rest span ih => exact ih
  | case5 s rest other ih => exact bystanders_cons s (ends rest) ih
  | case6 pl e s rest other ih => exact bystanders_cons s (ends rest) ih

theorem bystanders_fuse (stmts : List Stmt) : bystanders (fuse stmts) = bystanders stmts := by
  rw [← bystanders_joinRuns none stmts]
  unfold fuse
  split
  · next shape => rw [shape]; rfl
  · next shape => rw [shape]; rfl
  · rfl

/-! ## Joined lists -/

/-- No two expression statements stand side by side in a joined list. -/
theorem isChain_fuse (stmts : List Stmt) :
    (fuse stmts).IsChain fun s t => s.expr? = none ∨ t.expr? = none := by
  obtain ⟨pl, value, shape⟩ | ⟨pl, value, shape⟩ | shape := fuse_eq stmts
  · rw [shape]; exact .singleton _
  · rw [shape]; exact .singleton _
  · rw [shape]; exact isChain_joinRuns none stmts

/-- A joined list does what the list does, in the same order, and nothing is left out or done twice.
The statements that are neither expressions nor a last `return` or `throw` with a value stay as they
are. Afterwards no two expressions stand side by side, and joining once more changes nothing. -/
theorem fuse_keeps (stmts : List Stmt) :
    atoms (fuse stmts) = atoms stmts ∧
    bystanders (fuse stmts) = bystanders stmts ∧
    ((fuse stmts).IsChain fun s t => s.expr? = none ∨ t.expr? = none) ∧
    fuse (fuse stmts) = fuse stmts :=
  ⟨atoms_congruence.fuse stmts, bystanders_fuse stmts, isChain_fuse stmts, fuse_fuse stmts⟩

end Minifier
