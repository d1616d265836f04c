import Minifier.Proofs.Declarations
import Minifier.Proofs.Survivors

/-!
# Names that are in force in a whole function

A `var` declaration and a function declaration bind a name in all of the function they stand in,
wherever they stand there. The bindings of a list of statements are these names, each as often as it is
declared, outside of nested functions. Simplifying a list keeps its bindings: declarations move, lose
their initial values and leave their blocks, but none gets lost and none comes up twice.
-/

namespace Minifier

/-- How a name is bound in the function around it. -/
inductive BindingKind
  | var
  | func
deriving DecidableEq, Repr

/-- A kind of binding and the name that is bound. -/
abbrev Binding := BindingKind × String

/-- The name that a declarator binds. -/
def Declarator.binding : Declarator → Binding
  | .mk name _ => (.var, name)

/-- The names that a declaration binds, if it is a `var`. -/
def VarDecl.bindings : VarDecl → Multiset Binding
  | .mk _ mode declarators => if mode = .var then declarators.map Declarator.binding else 0

/-- The names that the head of a loop binds. -/
def LoopHead.bindings : LoopHead → Multiset Binding
  | .decl d => d.bindings
  | .expr _ => 0

/-- The names that what a counting loop starts from binds. -/
def loopInitBindings : Option LoopHead → Multiset Binding
  | none => 0
  | some head => head.bindings

mutual

/-- The names that a statement binds in the function around it. -/
def Stmt.bindings : Stmt → Multiset Binding
  | .block _ body => stmtsBindings body
  | .doWhile _ body _ => body.bindings
  | .forIn _ target _ body => target.bindings + body.bindings
  | .forLoop _ init _ _ body => loopInitBindings init + body.bindings
  | .func _ name _ => {(.func, name)}
  | .ite _ _ yes no => yes.bindings + elseBindings no
  | .label _ _ body => body.bindings
  | .switch _ _ branches => branchesBindings branches
  | .tryCatch _ body handler final =>
    body.bindings + (handlerBindings handler + finalBindings final)
  | .var _ decl => decl.bindings
  | .whileLoop _ _ body => body.bindings
  | .withObject _ _ body => body.bindings
  | .breakTo _ _ | .continueTo _ _ | .debugger _ | .empty _ | .expr _ _ | .ret _ _
  | .throw _ _ => 0

/-- The names that an `else` branch binds. -/
def elseBindings : Option Stmt → Multiset Binding
  | none => 0
  | some s => s.bindings

/-- The names that a list of statements binds. -/
def stmtsBindings : List Stmt → Multiset Binding
  | [] => 0
  | s :: rest => s.bindings + stmtsBindings rest

/-- The names that the branches of a `switch` bind. -/
def branchesBindings : List Branch → Multiset Binding
  | [] => 0
  | .mk _ _ body :: rest => stmtsBindings body + branchesBindings rest

/-- The names that a block of a `try` statement binds. -/
def Block.bindings : Block → Multiset Binding
  | .mk _ body => stmtsBindings body

/-- The names that the `catch` part of a `try` statement binds. -/
def handlerBindings : Option Handler → Multiset Binding
  | none => 0
  | some (.mk _ _ body) => stmtsBindings body

/-- The names that the `finally` part of a `try` statement binds. -/
def finalBindings : Option Block → Multiset Binding
  | none => 0
  | some block => block.bindings

end

attribute [simp] Stmt.bindings elseBindings stmtsBindings branchesBindings Block.bindings
  handlerBindings finalBindings

/-- The names that are bound in the body of a function. -/
def Func.bindings : Func → Multiset Binding
  | .mk _ _ body => stmtsBindings body

/-! ## Bindings as an account of declarations -/

/-- The account that takes down the names that are bound. -/
def DeclAccount.bindings : DeclAccount Binding where
  atVar _ mode names := if mode = .var then names.map (Prod.mk BindingKind.var) else 0
  atFunc _ name := {(.func, name)}

/-- No hoisted binding may get lost. -/
theorem DeclAccount.bindings_allow : DeclAccount.bindings.Allows Eq where
  refl _ := rfl
  trans first second := first.trans second
  add first second := by rw [first, second]
  lexical _ _ _ other := (if_neg other).symm

/-- The bindings of a declaration are one account of it. -/
theorem VarDecl.declared_bindings (decl : VarDecl) : decl.declared .bindings = decl.bindings := by
  obtain ⟨span, mode, declarators⟩ := decl
  have same : ∀ d : Declarator, (BindingKind.var, d.name) = d.binding := by
    rintro ⟨name, init⟩
    rfl
  simp only [declared, DeclAccount.bindings, bindings, names, VarDecl.mode, VarDecl.declarators,
    List.map_map, Function.comp_def, same]

/-- So are the bindings of the head of a loop. -/
theorem LoopHead.declared_bindings (head : LoopHead) : head.declared .bindings = head.bindings := by
  cases head with
  | decl d => exact d.declared_bindings
  | expr e => rfl

theorem loopInitDeclared_bindings (init : Option LoopHead) :
    loopInitDeclared .bindings init = loopInitBindings init := by
  cases init with
  | none => rfl
  | some head => exact head.declared_bindings

mutual

/-- The bindings of a statement are what is taken down at its declarations. -/
theorem Stmt.declared_bindings : (s : Stmt) → s.declared .bindings = s.bindings
  | .block _ body => stmtsDeclared_bindings body
  | .doWhile _ body _ | .label _ _ body | .whileLoop _ _ body | .withObject _ _ body =>
    body.declared_bindings
  | .forIn _ target _ body => congrArg₂ (· + ·) target.declared_bindings body.declared_bindings
  | .forLoop _ init _ _ body =>
    congrArg₂ (· + ·) (loopInitDeclared_bindings init) body.declared_bindings
  | .ite _ _ yes no => congrArg₂ (· + ·) yes.declared_bindings (elseDeclared_bindings no)
  | .switch _ _ branches => branchesDeclared_bindings branches
  | .tryCatch _ (.mk _ body) handler final =>
    congrArg₂ (· + ·) (stmtsDeclared_bindings body)
      (congrArg₂ (· + ·) (handlerDeclared_bindings handler) (finalDeclared_bindings final))
  | .var _ decl => decl.declared_bindings
  | .breakTo _ _ | .continueTo _ _ | .debugger _ | .empty _ | .expr _ _ | .func _ _ _ | .ret _ _
  | .throw _ _ => rfl

theorem elseDeclared_bindings : (no : Option Stmt) → elseDeclared .bindings no = elseBindings no
  | none => rfl
  | some s => s.declared_bindings

/-- So are the bindings of a list of statements. -/
theorem stmtsDeclared_bindings : (body : List Stmt) →
    stmtsDeclared .bindings body = stmtsBindings body
  | [] => rfl
  | s :: rest => congrArg₂ (· + ·) s.declared_bindings (stmtsDeclared_bindings rest)

theorem branchesDeclared_bindings : (branches : List Branch) →
    branchesDeclared .bindings branches = branchesBindings branches
  | [] => rfl
  | .mk _ _ body :: rest =>
    congrArg₂ (· + ·) (stmtsDeclared_bindings body) (branchesDeclared_bindings rest)

theorem handlerDeclared_bindings : (handler : Option Handler) →
    handlerDeclared .bindings handler = handlerBindings handler
  | none => rfl
  | some (.mk _ _ body) => stmtsDeclared_bindings body

theorem finalDeclared_bindings : (final : Option Block) →
    finalDeclared .bindings final = finalBindings final
  | none => rfl
  | some (.mk _ body) => stmtsDeclared_bindings body

end

/-- Two lists bind what the one and the other bind. -/
theorem stmtsBindings_append (a b : List Stmt) :
    stmtsBindings (a ++ b) = stmtsBindings a + stmtsBindings b := by
  simp only [← stmtsDeclared_bindings, stmtsDeclared_append]

variable {o : Options}

/-- No change to a list changes its bindings. -/
theorem stmtsBindings_tighten (stmts : List Stmt) :
    stmtsBindings (tighten o stmts).value = stmtsBindings stmts := by
  have kept := stmtsDeclared_tighten DeclAccount.bindings_allow (o := o) stmts
  rwa [stmtsDeclared_bindings, stmtsDeclared_bindings] at kept

/-- Simplified statements have the bindings of the statements. -/
theorem stmtsBindings_minify (body : List Stmt) :
    stmtsBindings (minifyStmts o body).value = stmtsBindings body := by
  have kept := stmtsDeclared_minify DeclAccount.bindings_allow (o := o) body
  rwa [stmtsDeclared_bindings, stmtsDeclared_bindings] at kept

/-- A simplified function has the bindings of the function. -/
theorem Func.bindings_minify (fn : Func) : (fn.minify o).value.bindings = fn.bindings := by
  obtain ⟨span, params, body⟩ := fn
  simp only [Func.minify, Report.value_bind, Report.value_pure, bindings, stmtsBindings_tighten,
    stmtsBindings_minify body]

/-! ## Functions that are left -/

/-- The statements of a function. -/
def Func.body : Func → List Stmt
  | .mk _ _ body => body

/-- The body of a simplified function is its simplified body. -/
theorem Func.body_minify (fn : Func) : (fn.minify o).value.body = (minifyBody o fn.body).value := by
  obtain ⟨span, params, body⟩ := fn
  rfl

/-- No rule makes a function that was not there before. -/
theorem functions_follow (o : Options) :
    Census.Follows o (· ≤ ·) .functions (Census.functions.map fun fn => (Func.minify o fn).value) where
  refl := le_refl
  trans := le_trans
  add := add_le_add
  drop _ := Multiset.zero_le
  blind _ _ := rfl
  head _ := rfl
  func _ := le_refl _

/-- The functions in a simplified list are simplified functions of the list, each of another one. -/
theorem stmtsFunctions_minifyBody (o : Options) (body : List Stmt) :
    ∃ survivors ≤ stmtsFunctions body,
      stmtsFunctions (minifyBody o body).value =
        survivors.map fun fn => (Func.minify o fn).value := by
  have within : stmtsFunctions (minifyBody o body).value ≤
      (stmtsFunctions body).map fun fn => (Func.minify o fn).value := by
    rw [stmtsFunctions, stmtsFunctions, ← stmtsCensus_map]
    exact (functions_follow o).tighten (stmtsCensus_minify (functions_follow o) body)
  obtain ⟨found, foundEq⟩ := Quot.exists_rep (stmtsFunctions (minifyBody o body).value)
  obtain ⟨all, allEq⟩ := Quot.exists_rep (stmtsFunctions body)
  rw [← foundEq, ← allEq] at within
  obtain ⟨listed, perm, sublist⟩ := Multiset.coe_le.mp within
  obtain ⟨survivors, part, rfl⟩ := List.sublist_map_iff.mp sublist
  refine ⟨survivors, ?_, ?_⟩
  · rw [← allEq]
    exact Multiset.coe_le.mpr part.subperm
  · rw [← foundEq]
    exact (Multiset.coe_eq_coe.mpr perm).symm

/-- Each function in a simplified list is the simplified form of a function of the list. -/
theorem exists_origin {body : List Stmt} {fn : Func}
    (mem : fn ∈ stmtsFunctions (minifyBody o body).value) :
    ∃ origin ∈ stmtsFunctions body, fn = (origin.minify o).value := by
  obtain ⟨survivors, part, shape⟩ := stmtsFunctions_minifyBody o body
  rw [shape] at mem
  obtain ⟨origin, survives, rfl⟩ := Multiset.mem_map.mp mem
  exact ⟨origin, Multiset.mem_of_le part survives, rfl⟩

/-- Simplifying keeps the bindings of every list of statements. The functions that are left in a
simplified program are simplified functions of the program, each of another one, and have kept the
bindings of their bodies. -/
theorem bindings_kept (o : Options) :
    (∀ body, stmtsBindings (minifyBody o body).value = stmtsBindings body) ∧
    ∀ p : Program, stmtsBindings (p.minify o).value.body = stmtsBindings p.body ∧
      ∃ survivors ≤ stmtsFunctions p.body,
        stmtsFunctions (p.minify o).value.body =
            survivors.map (fun fn => (Func.minify o fn).value) ∧
          ∀ fn ∈ survivors, (Func.minify o fn).value.bindings = fn.bindings := by
  have inList (body : List Stmt) : stmtsBindings (minifyBody o body).value = stmtsBindings body := by
    rw [minifyBody, Report.value_bind, stmtsBindings_tighten, stmtsBindings_minify]
  refine ⟨inList, fun p => ⟨inList p.body, ?_⟩⟩
  obtain ⟨survivors, part, found⟩ := stmtsFunctions_minifyBody o p.body
  exact ⟨survivors, part, found, fun fn _ => fn.bindings_minify⟩

end Minifier
