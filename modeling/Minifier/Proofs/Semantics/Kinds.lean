import Minifier.Proofs.Semantics.Negation
import Minifier.Simplify.Kind

/-!
# Kinds of values

An expression whose form tells that it gives a boolean gives one, if it gives anything, and the same
goes for strings. So where both sides of a strict equality are known to be of one kind, the shorter
equality with conversions does the same, provided that the two agree on values of that kind. A strict
inequality is loosened likewise, and there the two equalities say nothing by themselves: it takes the
inequalities to be their opposites.

What a *string* is remains open, apart from what the operators have to do with it. The values of the
language need not all have a literal.
-/

namespace Minifier

/-- The operators that ask a question about two values. -/
def Operator.questions : List Operator :=
  [.equal, .notEqual, .strictEqual, .strictNotEqual, .less, .lessEq, .greater, .greaterEq, .isIn,
    .instanceOf]

/-- The operators that ask a question are the comparisons. -/
theorem Operator.mem_questions_iff {op : Operator} :
    op ∈ Operator.questions ↔ op.isComparison = true := by
  cases op <;> decide

/-- A question about two constants is answered with a boolean. -/
theorem Operator.bool_of_fold? {op : Operator} (asks : op ∈ questions) {a b c : Constant}
    (folds : op.fold? a b = some c) : ∃ v, c = .bool v := by
  cases op with
  | equal | notEqual | less | lessEq | greater | greaterEq =>
    obtain ⟨v, _, rfl⟩ := Option.map_eq_some_iff.mp folds
    exact ⟨_, rfl⟩
  | strictEqual | strictNotEqual => exact ⟨_, (Option.some.inj folds).symm⟩
  | isIn | instanceOf => cases folds
  | _ => exact absurd asks (by decide)

/-- The sum of two constants is a string if one of them is. -/
theorem Operator.str_of_fold? {a b c : Constant} (strings : (∃ s, a = .str s) ∨ ∃ s, b = .str s)
    (folds : Operator.addition.fold? a b = some c) : ∃ s, c = .str s := by
  rcases strings with ⟨s, rfl⟩ | ⟨s, rfl⟩
  · exact ⟨_, (Option.some.inj folds).symm⟩
  · cases a <;> exact ⟨_, (Option.some.inj folds).symm⟩

theorem Constant.looseEq?_bool (a b : Bool) : looseEq? (.bool a) (.bool b) = some (a == b) := by
  cases a <;> cases b <;> decide +kernel

namespace Semantics

variable {S V R α β : Type} {sem : Semantics S V R}

/-! ## What a computation can give -/

/-- Every value that a computation gives has a property, from whatever state. -/
def Gives (x : Effect S V α) (p : α → Prop) : Prop :=
  ∀ s a t, x s = some (.ok a, t) → p a

theorem Gives.any (x : Effect S V α) : Gives x fun _ => True :=
  fun _ _ _ _ => trivial

theorem gives_pure {p : α → Prop} {a : α} (holds : p a) : Gives (pure a : Effect S V α) p := by
  rintro s _ t ⟨⟩
  exact holds

/-- One computation after another gives what the second gives for what the first gives. -/
theorem Gives.bind {p : α → Prop} {q : β → Prop} {x : Effect S V α} {f : α → Effect S V β}
    (first : Gives x p) (next : ∀ a, p a → Gives (f a) q) : Gives (x >>= f) q := by
  intro s b t ran
  change (x s).bind _ = _ at ran
  rcases found : x s with _ | ⟨_ | a, u⟩
  · simp [found] at ran
  · rw [found] at ran
    cases ran
  · rw [found] at ran
    exact next a (first s a u found) u b t ran

/-- What comes after a computation matters only for the values the computation gives. -/
theorem Gives.bind_congr {p : α → Prop} {x : Effect S V α} {f g : α → Effect S V β}
    (first : Gives x p) (same : ∀ a, p a → f a = g a) : x >>= f = x >>= g := by
  funext s
  change (x s).bind _ = (x s).bind _
  rcases found : x s with _ | ⟨_ | a, u⟩
  · rfl
  · rfl
  · exact congrFun (same a (first s a u found)) u

/-! ## Booleans and strings -/

/-- The value is one of the two booleans. -/
def IsBool (sem : Semantics S V R) (v : V) : Prop :=
  ∃ b, v = sem.constant (.bool b)

/-- What operators have to do with booleans and strings. -/
structure Typed (sem : Semantics S V R) (isText : V → Prop) : Prop where
  text : ∀ s, isText (sem.constant (.str s))
  question : ∀ op ∈ Operator.questions, ∀ a b, Gives (sem.binary op a b) sem.IsBool
  delete : ∀ x, Gives (sem.unary .delete x) sem.IsBool
  typeOf : ∀ x, Gives (sem.unary .typeOf x) isText
  addition : ∀ a b, isText a ∨ isText b → Gives (sem.binary .addition a b) isText
  assign : ∀ target old v, Gives (sem.store .assign target old v) (· = v)

variable {isText : V → Prop}

theorem value_bool (pl : Place) (b : Bool) :
    sem.value (.bool pl b) = pure (sem.constant (.bool b)) :=
  read_pure_value _

theorem value_str (pl : Place) (s : String) :
    sem.value (.str pl s) = pure (sem.constant (.str s)) :=
  read_pure_value _

/-- A question evaluates both operands. -/
theorem isStrict_of_mem_questions {op : Operator} (asks : op ∈ Operator.questions) :
    op.isStrict = true := by
  revert asks
  cases op <;> decide

/-- An assignment gives the value of its right side. -/
theorem Typed.gives_assign (typed : sem.Typed isText) {p : V → Prop} {right : Expr}
    (gives : Gives (sem.value right) p) (left : Effect S V (Operand V R)) :
    Gives (sem.binaryOf .assign left (sem.operand right)) p :=
  (Gives.any left).bind fun target _ => (Gives.any _).bind fun old _ => gives.bind fun v holds =>
    fun s w t ran => typed.assign target old v s w t ran ▸ holds

/-- An expression that tells by its form that it gives a boolean gives one. -/
theorem Typed.gives_of_isBoolean (typed : sem.Typed isText) {e : Expr} (boolean : e.isBoolean = true) :
    Gives (sem.value e) sem.IsBool := by
  fun_induction Expr.isBoolean e with
  | case1 pl value =>
    rw [value_bool]
    exact gives_pure ⟨value, rfl⟩
  | case2 pl op arg =>
    rw [value_unary]
    simp only [Bool.or_eq_true, beq_iff_eq] at boolean
    rcases boolean with rfl | rfl
    · exact (Gives.any _).bind fun v _ => gives_pure ⟨_, rfl⟩
    · exact (Gives.any _).bind fun x _ => typed.delete x
  | case3 pl op left right asks =>
    have asks := Operator.mem_questions_iff.mpr asks
    rw [value_binary, binaryOf_strict (isStrict_of_mem_questions asks)]
    exact (Gives.any _).bind fun a _ => (Gives.any _).bind fun b _ => typed.question op asks a b
  | case4 pl left right _ ihLeft ihRight =>
    obtain ⟨onLeft, onRight⟩ := Bool.and_eq_true_iff.mp boolean
    rw [value_binary, binaryOf_logicalAnd]
    refine (ihLeft onLeft).bind fun v isBool => ?_
    split
    · exact ihRight onRight
    · exact gives_pure isBool
  | case5 pl left right _ ihLeft ihRight =>
    obtain ⟨onLeft, onRight⟩ := Bool.and_eq_true_iff.mp boolean
    rw [value_binary, binaryOf_logicalOr]
    refine (ihLeft onLeft).bind fun v isBool => ?_
    split
    · exact gives_pure isBool
    · exact ihRight onRight
  | case6 pl left right _ ih =>
    rw [value_binary]
    exact typed.gives_assign (ih boolean) _
  | case7 pl left right _ ih =>
    rw [value_binary, binaryOf_comma]
    exact (Gives.any _).bind fun _ _ => ih boolean
  | case9 pl test yes no ihYes ihNo =>
    obtain ⟨onYes, onNo⟩ := Bool.and_eq_true_iff.mp boolean
    rw [value_cond]
    refine (Gives.any _).bind fun truth _ => ?_
    split
    · exact ihYes onYes
    · exact ihNo onNo
  | case8 | case10 => cases boolean

/-- An expression that tells by its form that it gives a string gives one. -/
theorem Typed.gives_of_isString (typed : sem.Typed isText) {e : Expr} (string : e.isString = true) :
    Gives (sem.value e) isText := by
  fun_induction Expr.isString e with
  | case1 pl value =>
    rw [value_str]
    exact gives_pure (typed.text value)
  | case2 pl op arg =>
    obtain rfl := beq_iff_eq.mp string
    rw [value_unary]
    exact (Gives.any _).bind fun x _ => typed.typeOf x
  | case3 pl left right ihLeft ihRight =>
    rw [value_binary, binaryOf_strict rfl]
    rcases Bool.or_eq_true_iff.mp string with onLeft | onRight
    · exact (ihLeft onLeft).bind fun a isLeft => (Gives.any _).bind fun b _ =>
        typed.addition a b (.inl isLeft)
    · exact (Gives.any _).bind fun a _ => (ihRight onRight).bind fun b isRight =>
        typed.addition a b (.inr isRight)
  | case4 pl left right ih =>
    rw [value_binary]
    exact typed.gives_assign (ih string) _
  | case5 | case6 => cases string

/-! ## Equality of two values of one kind -/

/-- The two equalities agree on two strings and on two booleans. -/
structure AgreeingEqualities (sem : Semantics S V R) (isText : V → Prop) : Prop where
  texts : ∀ a b, isText a → isText b → sem.binary .equal a b = sem.binary .strictEqual a b
  bools : ∀ a b, sem.IsBool a → sem.IsBool b → sem.binary .equal a b = sem.binary .strictEqual a b

/-- A computation that gives booleans is known by their truth. -/
theorem eq_of_truthy_eq (laws : sem.Complementary) {x y : Effect S V V} (onX : Gives x sem.IsBool)
    (onY : Gives y sem.IsBool) (same : sem.truthy <$> x = sem.truthy <$> y) : x = y := by
  have restored {z : Effect S V V} (onZ : Gives z sem.IsBool) :
      z = (fun b => sem.constant (.bool b)) <$> sem.truthy <$> z := by
    funext s
    rw [map_apply, map_apply]
    rcases found : z s with _ | ⟨_ | v, t⟩
    · rfl
    · rfl
    · obtain ⟨b, rfl⟩ := onZ s v t found
      simp [Except.map, laws.truthy_bool]
  rw [restored onX, same, ← restored onY]

/-- Where the equalities agree, so do the inequalities, since they are the opposites. -/
theorem Typed.notEqual_eq (typed : sem.Typed isText) (laws : sem.Complementary) {a b : V}
    (same : sem.binary .equal a b = sem.binary .strictEqual a b) :
    sem.binary .notEqual a b = sem.binary .strictNotEqual a b := by
  apply eq_of_truthy_eq laws (typed.question _ (by decide) a b) (typed.question _ (by decide) a b)
  rw [laws.notEqual, laws.strictNotEqual, same]

/-- Only strict comparisons of two operands of one kind are loosened. -/
theorem loosened?_cases {op loose : Operator} {left right : Expr}
    (loosened : op.loosened? left right = some loose) :
    ((left.isString = true ∧ right.isString = true) ∨
        (left.isBoolean = true ∧ right.isBoolean = true)) ∧
      ((op = .strictEqual ∧ loose = .equal) ∨ (op = .strictNotEqual ∧ loose = .notEqual)) := by
  unfold Operator.loosened? at loosened
  split at loosened
  · next kinds =>
    refine ⟨by simpa using kinds, ?_⟩
    split at loosened
    · exact .inl ⟨rfl, (Option.some.inj loosened).symm⟩
    · exact .inr ⟨rfl, (Option.some.inj loosened).symm⟩
    · cases loosened
  · cases loosened

/-- A comparison of two operands of one kind may be loosened, since it is only made if both operands
have given a value of that kind. -/
theorem Typed.value_loosened (typed : sem.Typed isText) (agree : sem.AgreeingEqualities isText)
    {op loose : Operator} (laws : op = .strictNotEqual → sem.Complementary) {left right : Expr}
    (loosened : op.loosened? left right = some loose) (pl : Place) :
    sem.value (.binary pl loose left right) = sem.value (.binary pl op left right) := by
  obtain ⟨kinds, ops⟩ := loosened?_cases loosened
  have strict : op.isStrict = true ∧ loose.isStrict = true := by
    rcases ops with ⟨rfl, rfl⟩ | ⟨rfl, rfl⟩ <;> decide
  have sameOp {a b : V} (same : sem.binary .equal a b = sem.binary .strictEqual a b) :
      sem.binary loose a b = sem.binary op a b := by
    rcases ops with ⟨rfl, rfl⟩ | ⟨rfl, rfl⟩
    · exact same
    · exact typed.notEqual_eq (laws rfl) same
  rw [value_binary, value_binary, binaryOf_strict strict.1, binaryOf_strict strict.2]
  rcases kinds with ⟨onLeft, onRight⟩ | ⟨onLeft, onRight⟩
  · exact (typed.gives_of_isString onLeft).bind_congr fun a isLeft =>
      (typed.gives_of_isString onRight).bind_congr fun b isRight =>
        sameOp (agree.texts a b isLeft isRight)
  · exact (typed.gives_of_isBoolean onLeft).bind_congr fun a isLeft =>
      (typed.gives_of_isBoolean onRight).bind_congr fun b isRight =>
        sameOp (agree.bools a b isLeft isRight)

/-- The tests for kinds are right: a value of an expression that passes a test is of the kind. For that
reason a comparison gives the same value, throws the same and leaves the same state if it is loosened
wherever the tests allow it. An inequality is the same only if inequalities are the opposites of the
equalities, which is a law of its own. -/
theorem kinds_sound (typed : sem.Typed isText) :
    (∀ e s v t, sem.value e s = some (.ok v, t) →
      (e.isBoolean = true → sem.IsBool v) ∧ (e.isString = true → isText v)) ∧
    (sem.AgreeingEqualities isText → ∀ pl op left right s,
      (op = .strictNotEqual → sem.Complementary) →
      sem.value (.binary pl ((op.loosened? left right).getD op) left right) s =
        sem.value (.binary pl op left right) s) := by
  constructor
  · intro e s v t ran
    exact ⟨fun boolean => typed.gives_of_isBoolean boolean s v t ran,
      fun string => typed.gives_of_isString string s v t ran⟩
  · intro agree pl op left right s laws
    cases loosened : op.loosened? left right with
    | none => rfl
    | some loose => exact congrFun (typed.value_loosened agree laws loosened pl) s

/-! ## Constants as values

Every constant is of the kind that the tests tell. -/

/-- Constants as values, with a trace. Each operator looks at the value of its operand, but `delete`
looks at nothing. -/
def valued : Semantics (List String) Constant String :=
  { tracing with
    unary := fun op x => match op with
      | .delete => do
        let _ ← traced "delete"
        return .bool true
      | op => do
        let c ← tracing.get x
        orThrow (op.foldUnary? c) }

/-- What is not thrown has the property that was asked for. -/
theorem gives_orThrow {p : Constant → Prop} {x : Option Constant} (found : ∀ c ∈ x, p c) :
    Gives (orThrow x) p := by
  cases x with
  | none => rintro s c t ⟨⟩
  | some c => exact gives_pure (found c rfl)

/-- What counts as a string among constants. -/
def IsStr (c : Constant) : Prop :=
  ∃ s, c = .str s

/-- Operators on constants keep to the kinds of their operands. -/
theorem valued_typed : Typed valued IsStr where
  text s := ⟨s, rfl⟩
  question _ asks _ _ := gives_orThrow fun _ folds => Operator.bool_of_fold? asks folds
  delete _ := (Gives.any _).bind fun _ _ => gives_pure ⟨true, rfl⟩
  typeOf _ := (Gives.any _).bind fun c _ => gives_orThrow fun _ folds =>
    ⟨c.typeName, (Option.some.inj folds).symm⟩
  addition _ _ strings := gives_orThrow fun _ folds => Operator.str_of_fold? strings folds
  assign _ _ _ := (Gives.any _).bind fun _ _ => gives_pure rfl

/-- Operators on constants obey the laws that simplification needs. -/
theorem valued_lawful : Lawful valued where
  truthy_constant := tracing_lawful.truthy_constant
  notEqual := tracing_lawful.notEqual
  strictNotEqual := tracing_lawful.strictNotEqual
  unary_constant op c d folds := by
    cases op with
    | delete => cases folds
    | _ => exact tracing_lawful.unary_constant _ c d folds
  binary_constant := tracing_lawful.binary_constant

/-- The two equalities agree on constants of one kind. -/
theorem valued_agreeing : AgreeingEqualities valued IsStr where
  texts := by
    rintro _ _ ⟨s, rfl⟩ ⟨t, rfl⟩
    rfl
  bools := by
    rintro _ _ ⟨a, rfl⟩ ⟨b, rfl⟩
    change orThrow ((Constant.looseEq? (.bool a) (.bool b)).map Constant.bool) = _
    rw [Constant.looseEq?_bool]
    rfl

/-- The case of `typeof a !== (b = "c")`, which is loosened, and of `!a && b === null`, which gives a
boolean. -/
theorem kinds_sound_loosened :
    let here : Place := default
    let left := Expr.unary here .typeOf (.ident here "a")
    let right := Expr.binary here .assign (.ident here "b") (.str here "c")
    let e := Expr.binary here .logicalAnd (.unary here .logicalNot (.ident here "a"))
      (.binary here .strictEqual (.ident here "b") (.null here))
    Typed valued IsStr ∧ AgreeingEqualities valued IsStr ∧ Complementary valued ∧
      Operator.strictNotEqual.loosened? left right = some .notEqual ∧
      (∀ s, valued.value (.binary here .notEqual left right) s =
        valued.value (.binary here .strictNotEqual left right) s) ∧
      valued.value e [] = some (.ok (.bool false), ["b", "a"]) ∧ e.isBoolean = true ∧
      valued.IsBool (.bool false) := by
  intro here left right e
  have complementary : Complementary valued := valued_lawful.toLogical.complementary
  have ran : valued.value e [] = some (.ok (.bool false), ["b", "a"]) := rfl
  refine ⟨valued_typed, valued_agreeing, complementary, rfl, fun s => ?_, ran, rfl, ?_⟩
  · exact (kinds_sound valued_typed).2 valued_agreeing here .strictNotEqual left right s
      fun _ => complementary
  · exact ((kinds_sound valued_typed).1 e [] _ _ ran).1 rfl

/-- As `valued`, but every two values count as different where `!=` asks for it. -/
def discerning : Semantics (List String) Constant String :=
  { valued with
    binary := fun op a b => if op = .notEqual then pure (.bool true) else valued.binary op a b }

/-- The answers of `!=` are still booleans. -/
theorem discerning_typed : Typed discerning IsStr where
  text := valued_typed.text
  question op asks a b := by
    change Gives (if op = .notEqual then _ else _) valued.IsBool
    split
    · exact gives_pure ⟨true, rfl⟩
    · exact valued_typed.question op asks a b
  delete := valued_typed.delete
  typeOf := valued_typed.typeOf
  addition := valued_typed.addition
  assign := valued_typed.assign

/-- The two equalities are not changed, so they still agree. -/
theorem discerning_agreeing : AgreeingEqualities discerning IsStr where
  texts := valued_agreeing.texts
  bools := valued_agreeing.bools

/-- The case of `typeof a !== "undefined"` where `!=` has nothing to do with `==`. The two equalities
agree, and still the comparison gives another value once it is loosened. -/
theorem value_loosened_ne :
    let here : Place := default
    let left := Expr.unary here .typeOf (.ident here "a")
    let right := Expr.str here "undefined"
    Typed discerning IsStr ∧ AgreeingEqualities discerning IsStr ∧
      Operator.strictNotEqual.loosened? left right = some .notEqual ∧
      discerning.value (.binary here .strictNotEqual left right) [] =
        some (.ok (.bool false), ["a"]) ∧
      discerning.value (.binary here .notEqual left right) [] = some (.ok (.bool true), ["a"]) :=
  ⟨discerning_typed, discerning_agreeing, rfl, rfl, rfl⟩

end Semantics

end Minifier
