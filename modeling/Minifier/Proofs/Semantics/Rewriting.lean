import Minifier.Proofs.Census
import Minifier.Proofs.Semantics.Negation
import Minifier.Simplify

/-!
# Simplified expressions mean the same

Each rule for expressions keeps what an expression gives: folding a constant, writing a point for
brackets, turning a conditional expression around. The rules are applied from the parts upward, so
all of an expression without functions keeps its meaning. The relations are the exception: turned
around they differ where NaN is involved, so they are taken to be left alone.
-/

namespace Minifier

/-- What is known of an expression is its constant value. -/
theorem Expr.constant?_of_known? {o : Options} {e : Expr} {c : Constant}
    (known : e.known? o = some c) : e.constant? = some c := by
  unfold known? at known
  split at known
  · exact known
  · cases known

namespace Semantics

variable {S V R : Type} {sem : Semantics S V R} {o : Options}

/-- Folding does not change what an operand gives. -/
theorem operand_folded (laws : sem.Lawful) (e : Expr) :
    sem.operand (e.folded o) = sem.operand e := by
  unfold Expr.folded
  split
  · next c known =>
    rw [operand_toExpr, operand_of_constant laws (Expr.constant?_of_known? known)]
  · rfl

/-- A binary expression may differ from its parts in the operator only if comparisons are to be
loosened. -/
theorem operand_binaryExpr (laws : sem.Lawful) (off : o.comparisons = false) (pl : Place)
    (op : Operator) (left right : Expr) :
    sem.operand (binaryExpr o pl op left right) = sem.operand (.binary pl op left right) := by
  unfold binaryExpr
  split
  · rfl
  · simp only [off]
    exact operand_folded laws _

/-- An access by a constant key gives the same as an access by name. -/
theorem operand_indexExpr (pl : Place) (object key : Expr) :
    sem.operand (indexExpr o pl object key) = sem.operand (.index pl object key) := by
  unfold indexExpr
  split
  · next place name =>
    split
    · simp [operand]
    · rfl
  · rfl

/-- A conditional expression may be turned around, since its test matters only for its truth. -/
theorem operand_condExpr (laws : sem.Logical) (off : o.comparisons = false) (span : Span)
    (pl : Place) (test yes no : Expr) :
    sem.operand (condExpr o span test yes no) = sem.operand (.cond pl test yes no) := by
  have turned : sem.condOf (sem.operand (test.negate o)) (sem.operand no) (sem.operand yes) =
      sem.condOf (sem.operand test) (sem.operand yes) (sem.operand no) := by
    have negated := laws.holds_negate off test
    simp only [condOf, read_operand]
    calc (sem.value (test.negate o) >>= fun v =>
          if sem.truthy v then sem.value no else sem.value yes)
        = (sem.holds (test.negate o) >>= fun b => if b then sem.value no else sem.value yes) := by
          simp [holds]
      _ = (sem.value test >>= fun v =>
            if !sem.truthy v then sem.value no else sem.value yes) := by
          rw [negated]
          simp [holds]
      _ = _ := by
          congr 1
          funext v
          cases sem.truthy v <;> rfl
  unfold condExpr Expr.shorter
  split
  · simp only [operand, turned]
  · simp only [operand]

mutual

/-- An expression without functions gives the same after simplification as before. -/
theorem operand_minify (laws : sem.Lawful) (off : o.comparisons = false) :
    (e : Expr) → e.functions = 0 → sem.operand (e.minify o).value = sem.operand e
  | .binary pl op left right, free => by
    obtain ⟨freeLeft, freeRight⟩ : left.functions = 0 ∧ right.functions = 0 := by
      simpa [Expr.functions, Expr.census, Census.functions, add_eq_zero] using free
    simp only [Expr.minify, Report.value_bind, Report.value_pure, operand_binaryExpr laws off,
      operand, operand_minify laws off left freeLeft, operand_minify laws off right freeRight]
  | .call pl isNew callee args, free => by
    obtain ⟨freeCallee, freeArgs⟩ : callee.functions = 0 ∧ exprsCensus .functions args = 0 := by
      simpa [Expr.functions, Expr.census, Census.functions, add_eq_zero] using free
    simp only [Expr.minify, Report.value_bind, Report.value_pure, operand,
      operand_minify laws off callee freeCallee, arguments_minify laws off args freeArgs]
  | .index pl object key, free => by
    obtain ⟨freeObject, freeKey⟩ : object.functions = 0 ∧ key.functions = 0 := by
      simpa [Expr.functions, Expr.census, Census.functions, add_eq_zero] using free
    simp only [Expr.minify, Report.value_bind, Report.value_pure, operand_indexExpr, operand,
      operand_minify laws off object freeObject, operand_minify laws off key freeKey]
  | .cond pl test yes no, free => by
    obtain ⟨⟨freeTest, freeYes⟩, freeNo⟩ :
        (test.functions = 0 ∧ yes.functions = 0) ∧ no.functions = 0 := by
      simpa [Expr.functions, Expr.census, Census.functions, add_eq_zero] using free
    simp only [Expr.minify, Report.value_bind, Report.value_pure]
    split
    all_goals simp only [operand_condExpr laws.toLogical off _ pl, operand,
      operand_minify laws off test freeTest, operand_minify laws off yes freeYes,
      operand_minify laws off no freeNo]
  | .func pl name (.mk span params body), free => by
    simp [Expr.functions, Expr.census, Func.census, Census.functions] at free
  | .member pl object name, free => by
    have freeObject : object.functions = 0 := by
      simpa [Expr.functions, Expr.census, Census.functions] using free
    simp only [Expr.minify, Report.value_bind, Report.value_pure, operand,
      operand_minify laws off object freeObject]
  | .unary pl op arg, free => by
    have freeArg : arg.functions = 0 := by
      simpa [Expr.functions, Expr.census, Census.functions] using free
    simp only [Expr.minify, Report.value_bind, Report.value_pure, operand_folded laws, operand,
      operand_minify laws off arg freeArg]
  | .update pl op arg, free => by
    have freeArg : arg.functions = 0 := by
      simpa [Expr.functions, Expr.census, Census.functions] using free
    simp only [Expr.minify, Report.value_bind, Report.value_pure, operand,
      operand_minify laws off arg freeArg]
  | .array pl elements, free => by
    have freeElements : elementsCensus .functions elements = 0 := by
      simpa [Expr.functions, Expr.census, Census.functions] using free
    simp only [Expr.minify, Report.value_bind, Report.value_pure, operand,
      elementValues_minify laws off elements freeElements]
  | .object pl members, free => by
    have freeMembers : membersCensus .functions members = 0 := by
      simpa [Expr.functions, Expr.census, Census.functions] using free
    simp only [Expr.minify, Report.value_bind, Report.value_pure, operand,
      properties_minify laws off members freeMembers]
  | .ident _ _, _ | .this _, _ | .bool _ _, _ | .null _, _ | .num _ _, _ | .regex _ _, _
  | .str _ _, _ | .undef _, _ => rfl

/-- Simplified arguments have the same values. -/
theorem arguments_minify (laws : sem.Lawful) (off : o.comparisons = false) :
    (args : List Expr) → exprsCensus .functions args = 0 →
      sem.arguments (minifyExprs o args).value = sem.arguments args
  | [], _ => rfl
  | e :: rest, free => by
    obtain ⟨freeHead, freeRest⟩ : e.functions = 0 ∧ exprsCensus .functions rest = 0 := by
      simpa [exprsCensus, Expr.functions, add_eq_zero] using free
    simp only [minifyExprs, Report.value_bind, Report.value_pure, arguments,
      operand_minify laws off e freeHead, arguments_minify laws off rest freeRest]

theorem elementValues_minify (laws : sem.Lawful) (off : o.comparisons = false) :
    (elements : List (Option Expr)) → elementsCensus .functions elements = 0 →
      sem.elementValues (minifyElements o elements).value = sem.elementValues elements
  | [], _ => rfl
  | none :: rest, free => by
    have freeRest : elementsCensus .functions rest = 0 := by
      simpa [elementsCensus, optionCensus] using free
    simp only [minifyElements, minifyOption, Report.value_bind, Report.value_pure, elementValues,
      elementValues_minify laws off rest freeRest]
  | some e :: rest, free => by
    obtain ⟨freeHead, freeRest⟩ : e.functions = 0 ∧ elementsCensus .functions rest = 0 := by
      simpa [elementsCensus, optionCensus, Expr.functions, add_eq_zero] using free
    simp only [minifyElements, minifyOption, Report.value_bind, Report.value_pure, elementValues,
      operand_minify laws off e freeHead, elementValues_minify laws off rest freeRest]

theorem properties_minify (laws : sem.Lawful) (off : o.comparisons = false) :
    (members : List Member) → membersCensus .functions members = 0 →
      sem.properties (minifyMembers o members).value = sem.properties members
  | [], _ => rfl
  | .value span key e :: rest, free => by
    obtain ⟨freeHead, freeRest⟩ : e.functions = 0 ∧ membersCensus .functions rest = 0 := by
      simpa [membersCensus, Expr.functions, add_eq_zero] using free
    simp only [minifyMembers, Report.value_bind, Report.value_pure, properties,
      operand_minify laws off e freeHead, properties_minify laws off rest freeRest]
  | .getter _ _ (.mk _ _ _) :: _, free | .setter _ _ (.mk _ _ _) :: _, free => by
    simp [membersCensus, Func.census, Census.functions] at free

end

/-- A simplified expression has the same value and effects. -/
theorem value_minified (laws : sem.Lawful) (off : o.comparisons = false) (e : Expr)
    (free : e.functions = 0) : sem.value (e.minify o).value = sem.value e := by
  rw [value, operand_minify laws off e free, value]

/-- A simplified condition holds in the same cases. -/
theorem holds_minified (laws : sem.Lawful) (off : o.comparisons = false) (e : Expr)
    (free : e.functions = 0) : sem.holds (e.minify o).value = sem.holds e := by
  rw [holds, value_minified laws off e free, holds]

/-- Simplifying an expression changes neither its value, nor what it throws, nor the state it leaves
behind, from whatever state it is evaluated. -/
theorem value_minify (laws : sem.Lawful) (off : o.comparisons = false) (e : Expr)
    (free : e.functions = 0) (s : S) : sem.value (e.minify o).value s = sem.value e s := by
  rw [value_minified laws off e free]

/-- The case of `!c ? a["b"] : 1 + f()`, which is turned around and loses its brackets. -/
theorem value_minify_turned :
    let here : Place := default
    let e := Expr.cond here (.unary here .logicalNot (.ident here "c"))
      (.index here (.ident here "a") (.str here "b"))
      (.binary here .addition (.num here (.ofNat 1)) (.call here false (.ident here "f") []))
    Lawful tracing ∧ e.functions = 0 ∧ ∀ s,
      tracing.value (e.minify { Options.all true with comparisons := false }).value s =
        tracing.value e s := by
  have free : (Expr.cond default (.unary default .logicalNot (.ident default "c"))
      (.index default (.ident default "a") (.str default "b"))
      (.binary default .addition (.num default (.ofNat 1))
        (.call default false (.ident default "f") []))).functions = 0 := by
    simp [Expr.functions, Expr.census, exprsCensus, Census.functions]
  exact ⟨tracing_lawful, free, value_minify tracing_lawful rfl _ free⟩

end Semantics

end Minifier
