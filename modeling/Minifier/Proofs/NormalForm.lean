import Mathlib.Data.List.Chain
import Minifier.Proofs.SecondPass.Output

/-!
# The normal form of statement lists

The lists of statements in a simplified program have a normal form. Nothing empty stands in them, a
block in them binds names of its own, only declarations follow a jump, and expressions are joined as
far as they can be. All of this is said by what a list holds and not by the changes that lead there. It
concerns every list of the program: its own, those of functions and accessors, of blocks, of the
branches of a `switch` and of the parts of a `try`.
-/

namespace Minifier

/-- The statement binds a name that belongs to the list it stands in, as `let`, `const` and functions
do. -/
def Stmt.BindsLocally : Stmt → Prop
  | .func _ _ _ => True
  | .var _ decl => decl.mode = .block ∨ decl.mode = .const
  | _ => False

/-- The statement is a `break`, a `continue`, a `return` or a `throw`. -/
def Stmt.LeavesList : Stmt → Prop
  | .breakTo _ _ | .continueTo _ _ | .ret _ _ | .throw _ _ => True
  | _ => False

/-- No initial value is given, or only `void 0` to a constant, which must have one. -/
def Declarator.IsPlain (mode : DeclMode) : Declarator → Prop
  | .mk _ init => if mode = .const then ∃ pl, init = some (.undef pl) else init = none

/-- The statement declares a function, or variables without initial values. -/
def Stmt.OnlyDeclares : Stmt → Prop
  | .func _ _ _ => True
  | .var _ decl => ∀ d ∈ decl.declarators, d.IsPlain decl.mode
  | _ => False

/-- The normal form of a list of statements, as far as the options ask for it. -/
structure IsNormal (o : Options) (body : List Stmt) : Prop where
  noEmpty : ∀ pl, .empty pl ∉ body
  blocks : ∀ pl inner, .block pl inner ∈ body → ∃ s ∈ inner, s.BindsLocally
  behindJump : o.deadCode = true → ∀ reached jump behind, body = reached ++ jump :: behind →
    jump.LeavesList → ∀ s ∈ behind, s.OnlyDeclares
  joined : o.sequences = true → ∀ before pl e next f behind,
    body ≠ before ++ .expr pl e :: .expr next f :: behind
  noReturn : o.sequences = true → ∀ pl e last value, body ≠ [.expr pl e, .ret last (some value)]
  noThrow : o.sequences = true → ∀ pl e last value, body ≠ [.expr pl e, .throw last value]

/-- The trees in which every list of statements has the normal form. -/
def Check.normal (o : Options) : Check where
  expr _ := True
  stmt _ := True
  body := IsNormal o

variable {o : Options}

/-! ## Blocks -/

/-- A statement that needs a scope binds a name in its list. -/
theorem Stmt.bindsLocally_of_isScoped {s : Stmt} (binds : s.isScoped = true) : s.BindsLocally := by
  cases s with
  | func pl name fn => trivial
  | var outer decl =>
    have mode : decl.mode ≠ .var := by simpa [isScoped] using binds
    show decl.mode = .block ∨ decl.mode = .const
    cases shape : decl.mode with
    | const => exact .inr rfl
    | block => exact .inl rfl
    | var => exact absurd shape mode
  | _ => cases binds

/-- A list that needs a block binds a name. -/
theorem exists_bindsLocally {body : List Stmt} (needed : needsBlock body = true) :
    ∃ s ∈ body, s.BindsLocally := by
  obtain ⟨s, mem, binds⟩ := List.any_eq_true.mp needed
  exact ⟨s, mem, Stmt.bindsLocally_of_isScoped binds⟩

/-! ## Statements behind a jump -/

/-- Hoisted declarations have no initial values. -/
theorem Hoisted.onlyDeclares_toStmt (h : Hoisted) : h.toStmt.OnlyDeclares := by
  cases h with
  | func span name fn => trivial
  | var decl =>
    obtain ⟨span, mode, declarators⟩ := decl
    intro d mem
    obtain ⟨⟨name, init⟩, _, rfl⟩ := List.mem_map.mp mem
    show if mode = .const then ∃ pl, _ = some (Expr.undef pl) else _ = none
    split
    · exact ⟨.both span, rfl⟩
    · rfl

/-- An unreachable statement that is kept as it is only declares something. -/
theorem Stmt.onlyDeclares_of_kept {s : Stmt} (kept : s.kept = [s]) : s.OnlyDeclares := by
  have mem : s ∈ s.kept := by
    rw [kept]
    exact List.mem_singleton_self s
  unfold Stmt.kept at mem
  split at mem
  · trivial
  · obtain ⟨h, _, shape⟩ := List.mem_map.mp mem
    rw [← shape]
    exact h.onlyDeclares_toStmt

theorem Stmt.LeavesList.isJump {s : Stmt} (leaves : s.LeavesList) : s.isJump = true := by
  cases s with
  | breakTo | continueTo | ret | throw => rfl
  | _ => cases leaves

/-- What follows a jump is not reached, whether or not it is the first jump of the list. -/
theorem mem_unreached {s jump : Stmt} {behind : List Stmt} (leaves : jump.LeavesList)
    (mem : s ∈ behind) (reached : List Stmt) :
    s ∈ (splitAtJump (reached ++ jump :: behind)).2 := by
  induction reached with
  | nil =>
    rw [List.nil_append, splitAtJump, if_pos leaves.isJump]
    exact mem
  | cons t rest ih =>
    rw [List.cons_append, splitAtJump]
    split
    · exact List.mem_append_right _ (List.mem_cons_of_mem _ mem)
    · exact ih

/-! ## Expressions side by side -/

/-- Two expression statements are never side by side once runs are joined: a run ends only where
another statement follows or the list is over. -/
theorem isChain_joinRuns (pending : Option (Place × Expr)) (stmts : List Stmt) :
    (joinRuns pending stmts).IsChain fun s t => s.expr? = none ∨ t.expr? = none := by
  have other {s : Stmt} (apart : ∀ pl e, s = .expr pl e → False) : s.expr? = none := by
    cases s with
    | expr pl e => exact (apart pl e rfl).elim
    | _ => rfl
  fun_induction joinRuns pending stmts with
  | case1 => exact .nil
  | case2 pl e => exact .singleton _
  | case3 pl e rest ih => exact ih
  | case4 pl first next second rest span ih => exact ih
  | case5 s rest apart ih => exact ih.cons fun _ _ => .inl (other apart)
  | case6 pl e s rest apart ih =>
    exact .cons_cons (.inr (other apart)) (ih.cons fun _ _ => .inl (other apart))

/-! ## All lists -/

/-- A list that no rule changes has the normal form. -/
theorem BodyIsTidy.isNormal {body : List Stmt} (tidy : BodyIsTidy o body) : IsNormal o body where
  noEmpty pl mem := by
    have listed := tidy.unwrapped _ mem
    cases listed
  blocks pl inner mem := exists_bindsLocally (needsBlock_of_unwrapped (tidy.unwrapped _ mem))
  behindJump drops := by
    rintro reached jump behind rfl leaves s mem
    exact Stmt.onlyDeclares_of_kept (tidy.reached drops s (mem_unreached leaves mem reached))
  joined joins := by
    intro before pl e next f behind shape
    have chain := isChain_joinRuns none body
    rw [joinRuns_of_fuse (tidy.joined joins), shape] at chain
    obtain ⟨-, apart, -⟩ := List.isChain_append_cons_cons.mp chain
    cases apart with
    | inl first => cases first
    | inr second => cases second
  noReturn joins := by
    rintro pl e last value rfl
    cases tidy.joined joins
  noThrow joins := by
    rintro pl e last value rfl
    cases tidy.joined joins

/-- So every list of a tree that no rule changes has it. -/
theorem Check.tidy_implies_normal : (Check.tidy o).Implies (.normal o) where
  expr _ _ := trivial
  stmt _ _ := trivial
  body _ tidy := tidy.isNormal

/-- Every list of statements in a simplified program has the normal form. -/
theorem isNormal_minify (o : Options) (p : Program) : (p.minify o).value.Meets (.normal o) :=
  Program.meets_mono Check.tidy_implies_normal p.tidy_minify

end Minifier
