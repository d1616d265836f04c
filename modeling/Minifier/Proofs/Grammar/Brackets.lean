import Minifier.Printer

/-!
# Brackets in printed expressions

What a reader of statements has to know about the tokens of an expression: how they begin, and which
of them stand outside of all brackets. Printed tokens are balanced. So `in` stands outside of brackets
only if it is an operator of the expression that binds no tighter than a comparison.
-/

namespace Minifier.Grammar

/-- Whether a token opens a bracket of any kind. -/
def isOpening (t : Token) : Bool :=
  t == .punct "(" || t == .punct "[" || t == .punct "\x7b"

/-- Whether a token closes a bracket of any kind. -/
def isClosing (t : Token) : Bool :=
  t == .punct ")" || t == .punct "]" || t == .punct "\x7d"

/-- The tokens outside of all brackets, where `depth` brackets are open at the start. -/
def outside : Nat → List Token → List Token
  | _, [] => []
  | depth, t :: rest =>
    if isOpening t then outside (depth + 1) rest
    else if isClosing t then outside (depth - 1) rest
    else if depth = 0 then t :: outside depth rest
    else outside depth rest

/-- Every bracket that is opened is closed again, by one of any kind. -/
inductive Balanced : List Token → Prop
  | nil : Balanced []
  | cons {t : Token} {ts : List Token} (noOpening : isOpening t = false)
    (noClosing : isClosing t = false) (rest : Balanced ts) : Balanced (t :: ts)
  | group {opening closing : Token} {ts us : List Token} (opens : isOpening opening = true)
    (closes : isClosing closing = true) (inner : Balanced ts) (rest : Balanced us) :
    Balanced (opening :: (ts ++ closing :: us))

/-- Only punctuators open brackets. -/
theorem isOpening_of_kind {t : Token} (other : t.kind ≠ .punctuator) : isOpening t = false := by
  simp only [isOpening, Bool.or_eq_false_iff, beq_eq_false_iff_ne]
  refine ⟨⟨?_, ?_⟩, ?_⟩ <;> rintro rfl <;> exact other rfl

/-- Only punctuators close brackets. -/
theorem isClosing_of_kind {t : Token} (other : t.kind ≠ .punctuator) : isClosing t = false := by
  simp only [isClosing, Bool.or_eq_false_iff, beq_eq_false_iff_ne]
  refine ⟨⟨?_, ?_⟩, ?_⟩ <;> rintro rfl <;> exact other rfl

/-- No token both opens and closes a bracket. -/
theorem isOpening_of_isClosing {t : Token} (closes : isClosing t = true) : isOpening t = false := by
  simp only [isClosing, Bool.or_eq_true, beq_iff_eq] at closes
  obtain (rfl | rfl) | rfl := closes <;> decide

namespace Balanced

variable {ts us : List Token}

/-- Balanced lists of tokens stay balanced one behind the other. -/
theorem append (first : Balanced ts) (second : Balanced us) : Balanced (ts ++ us) := by
  induction first with
  | nil => exact second
  | cons noOpening noClosing _ ih => exact .cons noOpening noClosing ih
  | group opens closes inner _ _ ih =>
    rw [List.cons_append, List.append_assoc, List.cons_append]
    exact .group opens closes inner ih

theorem parens (inner : Balanced ts) : Balanced (inParens ts) :=
  .group rfl rfl inner .nil

theorem braces (inner : Balanced ts) : Balanced (inBraces ts) :=
  .group rfl rfl inner .nil

/-- A token that is no punctuator does not disturb the balance. -/
theorem plain {t : Token} (other : t.kind ≠ .punctuator) (rest : Balanced ts) : Balanced (t :: ts) :=
  .cons (isOpening_of_kind other) (isClosing_of_kind other) rest

theorem word (text : String) (rest : Balanced ts) : Balanced (.word text :: ts) :=
  .plain (by simp [Token.word]) rest

theorem name (text : String) (rest : Balanced ts) : Balanced (.name text :: ts) :=
  .plain (by simp [Token.name]) rest

theorem digits (text : String) (rest : Balanced ts) : Balanced (.digits text :: ts) :=
  .plain (by simp [Token.digits]) rest

/-- Commas between balanced lists leave the whole balanced. -/
theorem commaJoined {lists : List (List Token)} (each : ∀ ts ∈ lists, Balanced ts) :
    Balanced (commaJoined lists) := by
  induction lists with
  | nil => exact .nil
  | cons ts rest ih =>
    obtain ⟨head, tail⟩ := List.forall_mem_cons.mp each
    cases rest with
    | nil => exact head
    | cons us more => exact head.append (.cons rfl rfl (ih tail))

/-- Below an open bracket balanced tokens are passed over. -/
theorem outside_succ (balanced : Balanced ts) (depth : Nat) (rest : List Token) :
    outside (depth + 1) (ts ++ rest) = outside (depth + 1) rest := by
  induction balanced generalizing depth rest with
  | nil => rfl
  | cons noOpening noClosing _ ih => simp [outside, noOpening, noClosing, ih]
  | group opens closes _ _ ihInner ihRest =>
    simp [outside, opens, closes, isOpening_of_isClosing closes, ihInner, ihRest]

/-- A balanced group in brackets adds nothing to what stands outside of all brackets. -/
theorem outside_group (balanced : Balanced ts) {opening closing : Token}
    (opens : isOpening opening = true) (closes : isClosing closing = true) (rest : List Token) :
    outside 0 (opening :: (ts ++ closing :: rest)) = outside 0 rest := by
  simp [outside, opens, closes, isOpening_of_isClosing closes, balanced.outside_succ]

/-- Behind a balanced list one is outside of all brackets again. -/
theorem outside_append (balanced : Balanced ts) (rest : List Token) :
    outside 0 (ts ++ rest) = outside 0 ts ++ outside 0 rest := by
  induction balanced with
  | nil => rfl
  | cons noOpening noClosing _ ih => simp [outside, noOpening, noClosing, ih]
  | group opens closes inner _ _ ihRest =>
    rw [List.cons_append, List.append_assoc, List.cons_append, inner.outside_group opens closes,
      inner.outside_group opens closes, ihRest]

end Balanced

/-! ## Printed tokens are balanced -/

/-- An operator between two operands is no bracket. -/
theorem balanced_infixToken (op : Operator) {ts : List Token} (rest : Balanced ts) :
    Balanced (op.infixToken :: ts) := by
  cases op <;> exact .cons (by decide) (by decide) rest

/-- Nor is one before its operand. -/
theorem balanced_unaryToken (op : Operator) {ts : List Token} (rest : Balanced ts) :
    Balanced (op.unaryToken :: ts) := by
  cases op <;> exact .cons (by decide) (by decide) rest

theorem balanced_operator (op : Operator) : Balanced [.punct op.text] := by
  cases op <;> exact .cons (by decide) (by decide) .nil

/-- Parentheses that are put around an operand keep the balance. -/
theorem Balanced.fit {ts : List Token} (inner : Balanced ts) (least : Nat) (e : Expr) :
    Balanced (e.fit least ts) := by
  unfold Expr.fit
  split
  · exact inner.parens
  · exact inner

/-- A number is written without brackets. -/
theorem balanced_number (v : Double) : Balanced v.tokens := by
  cases v with
  | nan => exact .digits _ (.cons rfl rfl (.digits _ .nil))
  | infinite negative =>
    have quotient : Balanced [.digits "1", .punct "/", .digits "0"] :=
      .digits _ (.cons rfl rfl (.digits _ .nil))
    cases negative with
    | false => exact quotient
    | true => exact .cons rfl rfl quotient
  | finite negative code =>
    cases negative with
    | false => exact .digits _ .nil
    | true => exact .cons rfl rfl (.digits _ .nil)

theorem balanced_numberBeforeMember (v : Double) : Balanced v.tokensBeforeMember := by
  unfold Double.tokensBeforeMember
  dsimp only
  split
  · exact .digits _ .nil
  · exact .digits _ (.cons rfl rfl .nil)

/-- The key of a member is a name, a number or a string. -/
theorem balanced_keyToken (key : String) {ts : List Token} (rest : Balanced ts) :
    Balanced (keyToken key :: ts) := by
  unfold keyToken
  split
  · exact .name _ rest
  · split
    · exact .digits _ rest
    · exact .plain (by simp) rest

/-- Parameters are written as their names alone. -/
theorem balanced_params (params : List Param) :
    ∀ ts ∈ params.map fun p => [Token.name p.name], Balanced ts := by
  intro ts mem
  obtain ⟨p, _, rfl⟩ := List.mem_map.mp mem
  exact .name p.name .nil

/-- A jump is written as a keyword, a label and a semicolon. -/
theorem balanced_jump (word : String) (label : Option String) : Balanced (jumpTokens word label) := by
  cases label with
  | none => exact .word _ (.cons rfl rfl .nil)
  | some name => exact .word _ (.name _ (.cons rfl rfl .nil))

mutual

/-- The printed tokens of every expression are balanced. -/
theorem balanced_expr : (e : Expr) → Balanced e.tokens
  | .binary _ op left right =>
    ((balanced_expr left).fit _ _).append (balanced_infixToken op ((balanced_expr right).fit _ _))
  | .call _ isNew callee args => by
    have arguments := (Balanced.commaJoined (balanced_arguments args)).parens
    have head := (balanced_expr callee).fit accessLevel callee
    simp only [Expr.tokens]
    refine .append ?_ arguments
    split
    · refine .word _ ?_
      split
      · exact (balanced_expr callee).parens
      · exact head
    · exact head
  | .index _ object key => by
    simp only [Expr.tokens, List.append_assoc, List.cons_append]
    exact ((balanced_expr object).fit _ _).append (.group rfl rfl (balanced_expr key) .nil)
  | .cond _ test yes no => by
    simp only [Expr.tokens, List.append_assoc, List.cons_append]
    exact ((balanced_expr test).fit _ _).append (.cons rfl rfl (((balanced_expr yes).fit _ _).append
      (.cons rfl rfl ((balanced_expr no).fit _ _))))
  | .func _ name fn => by
    cases name with
    | none => exact .word _ (balanced_func fn)
    | some name => exact .word _ (.name _ (balanced_func fn))
  | .ident _ name => .name _ .nil
  | .member _ object name => by
    have head := (balanced_expr object).fit accessLevel object
    simp only [Expr.tokens]
    refine .append ?_ (.cons rfl rfl (.name _ .nil))
    split
    · split
      · exact balanced_numberBeforeMember _
      · exact head
    · exact head
  | .this _ => .word _ .nil
  | .unary _ op arg => balanced_unaryToken op ((balanced_expr arg).fit _ _)
  | .update _ op arg => ((balanced_expr arg).fit _ _).append (balanced_operator op)
  | .array _ elements => by
    have items := Balanced.commaJoined (balanced_elements elements)
    simp only [Expr.tokens, List.append_assoc, List.cons_append]
    rw [← List.append_assoc]
    refine .group rfl rfl (.append items ?_) .nil
    split
    · exact .cons rfl rfl .nil
    · exact .nil
  | .bool _ _ => .word _ .nil
  | .null _ => .word _ .nil
  | .num _ v => balanced_number v
  | .object _ members => (Balanced.commaJoined (balanced_members members)).braces
  | .regex _ text => .plain (by simp) .nil
  | .str _ value => .plain (by simp) .nil
  | .undef _ => .word _ (.digits _ .nil)

theorem balanced_arguments : (args : List Expr) → ∀ ts ∈ argumentTokens args, Balanced ts
  | [] => by simp [argumentTokens]
  | e :: rest => List.forall_mem_cons.mpr ⟨(balanced_expr e).fit _ _, balanced_arguments rest⟩

theorem balanced_elements : (es : List (Option Expr)) → ∀ ts ∈ elementTokens es, Balanced ts
  | [] => by simp [elementTokens]
  | none :: rest => List.forall_mem_cons.mpr ⟨.nil, balanced_elements rest⟩
  | some e :: rest => List.forall_mem_cons.mpr ⟨(balanced_expr e).fit _ _, balanced_elements rest⟩

theorem balanced_members : (ms : List Member) → ∀ ts ∈ memberTokens ms, Balanced ts
  | [] => by simp [memberTokens]
  | .value _ key e :: rest => List.forall_mem_cons.mpr
      ⟨balanced_keyToken key (.cons rfl rfl ((balanced_expr e).fit _ _)), balanced_members rest⟩
  | .getter _ key fn :: rest => List.forall_mem_cons.mpr
      ⟨.name _ (balanced_keyToken key (balanced_func fn)), balanced_members rest⟩
  | .setter _ key fn :: rest => List.forall_mem_cons.mpr
      ⟨.name _ (balanced_keyToken key (balanced_func fn)), balanced_members rest⟩

theorem balanced_func : (fn : Func) → Balanced fn.tokens
  | .mk _ params body =>
    (Balanced.commaJoined (balanced_params params)).parens.append (balanced_stmts body).braces

theorem balanced_declarators (inHead : Bool) :
    (ds : List Declarator) → ∀ ts ∈ declaratorTokens inHead ds, Balanced ts
  | [] => by simp [declaratorTokens]
  | .mk name none :: rest =>
    List.forall_mem_cons.mpr ⟨.name _ .nil, balanced_declarators inHead rest⟩
  | .mk name (some init) :: rest => by
    refine List.forall_mem_cons.mpr ⟨.name _ (.cons rfl rfl ?_), balanced_declarators inHead rest⟩
    split
    · exact (balanced_expr init).parens
    · exact (balanced_expr init).fit _ _

theorem balanced_decl (inHead : Bool) : (decl : VarDecl) → Balanced (decl.tokens inHead)
  | .mk _ _ declarators => .word _ (.commaJoined (balanced_declarators inHead declarators))

theorem balanced_option : (e : Option Expr) → Balanced (optionTokens e)
  | none => .nil
  | some e => balanced_expr e

theorem balanced_loopInit : (init : Option LoopHead) → Balanced (loopInitTokens init)
  | none => .nil
  | some (.decl decl) => balanced_decl true decl
  | some (.expr e) => by
    simp only [loopInitTokens]
    split
    · exact (balanced_expr e).parens
    · exact balanced_expr e

theorem balanced_target : (head : LoopHead) → Balanced head.targetTokens
  | .decl decl => balanced_decl true decl
  | .expr e => (balanced_expr e).fit _ _

theorem balanced_branches : (branches : List Branch) → Balanced (branchesTokens branches)
  | [] => .nil
  | .mk _ none body :: rest =>
    .word _ (.cons rfl rfl ((balanced_stmts body).append (balanced_branches rest)))
  | .mk _ (some e) body :: rest => by
    have tail := (balanced_stmts body).append (balanced_branches rest)
    have clause := (Balanced.word "case" (balanced_expr e)).append (.cons (t := .punct ":") rfl rfl tail)
    simpa only [branchesTokens, List.append_assoc, List.cons_append] using clause

/-- The printed tokens of every statement are balanced. -/
theorem balanced_stmt : (s : Stmt) → Balanced s.tokens
  | .block _ body => (balanced_stmts body).braces
  | .breakTo _ label => balanced_jump _ label
  | .continueTo _ label => balanced_jump _ label
  | .debugger _ => .word _ (.cons rfl rfl .nil)
  | .doWhile _ body test => by
    simp only [Stmt.tokens, List.append_assoc, List.cons_append]
    exact .word _ ((balanced_stmt body).append (.word _ ((balanced_expr test).parens.append
      (.cons rfl rfl .nil))))
  | .empty _ => .cons rfl rfl .nil
  | .expr _ e => by
    simp only [Stmt.tokens]
    refine .append ?_ (.cons rfl rfl .nil)
    split
    · exact (balanced_expr e).parens
    · exact balanced_expr e
  | .forIn _ target object body => by
    have head := ((balanced_target target).append (.word "in" (balanced_expr object))).parens
    exact .word _ (head.append (balanced_stmt body))
  | .forLoop _ init test step body => by
    have tail := (balanced_option test).append (.cons (t := .punct ";") rfl rfl (balanced_option step))
    have head := ((balanced_loopInit init).append (.cons (t := .punct ";") rfl rfl tail)).parens
    simp only [Stmt.tokens, List.append_assoc, List.cons_append]
    exact .word _ (head.append (balanced_stmt body))
  | .func _ name fn => .word _ (.name _ (balanced_func fn))
  | .ite _ test yes none => .word _ ((balanced_expr test).parens.append (balanced_stmt yes))
  | .ite _ test yes (some no) => by
    simp only [Stmt.tokens, List.append_assoc, List.cons_append]
    refine .word _ ((balanced_expr test).parens.append (.append ?_ (.word _ (balanced_stmt no))))
    split
    · exact (balanced_stmt yes).braces
    · exact balanced_stmt yes
  | .label _ name body => .name _ (.cons rfl rfl (balanced_stmt body))
  | .ret _ value => .word _ ((balanced_option value).append (.cons rfl rfl .nil))
  | .switch _ subject branches =>
    .word _ ((balanced_expr subject).parens.append (balanced_branches branches).braces)
  | .throw _ value => .word _ ((balanced_expr value).append (.cons rfl rfl .nil))
  | .tryCatch _ (.mk _ body) handler final => by
    simp only [Stmt.tokens, List.append_assoc, List.cons_append]
    exact .word _ ((balanced_stmts body).braces.append
      ((balanced_handler handler).append (balanced_final final)))
  | .var _ decl => (balanced_decl false decl).append (.cons rfl rfl .nil)
  | .whileLoop _ test body => .word _ ((balanced_expr test).parens.append (balanced_stmt body))
  | .withObject _ object body => .word _ ((balanced_expr object).parens.append (balanced_stmt body))

theorem balanced_handler : (handler : Option Handler) → Balanced (handlerTokens handler)
  | none => .nil
  | some (.mk _ none body) => .word _ (balanced_stmts body).braces
  | some (.mk _ (some param) body) =>
    .word _ ((Balanced.name param .nil).parens.append (balanced_stmts body).braces)

theorem balanced_final : (final : Option Block) → Balanced (finalTokens final)
  | none => .nil
  | some (.mk _ body) => .word _ (balanced_stmts body).braces

/-- So are those of a list of statements. -/
theorem balanced_stmts : (stmts : List Stmt) → Balanced (stmtsTokens stmts)
  | [] => .nil
  | s :: rest => (balanced_stmt s).append (balanced_stmts rest)

end

/-! ## The operator `in` -/

/-- The word `in` stands outside of brackets. -/
def HasBareIn (ts : List Token) : Prop :=
  .word "in" ∈ outside 0 ts

section HasBareIn

variable {t : Token} {ts us : List Token} {e : Expr} {least : Nat}

/-- An `in` outside of all brackets stands in the one or in the other of two lists. -/
theorem hasBareIn_append (balanced : Balanced ts) :
    HasBareIn (ts ++ us) ↔ HasBareIn ts ∨ HasBareIn us := by
  rw [HasBareIn, balanced.outside_append, List.mem_append, HasBareIn, HasBareIn]

theorem not_hasBareIn_append (balanced : Balanced ts) (first : ¬HasBareIn ts)
    (second : ¬HasBareIn us) : ¬HasBareIn (ts ++ us) := by
  rw [hasBareIn_append balanced]
  exact not_or.mpr ⟨first, second⟩

/-- A token that is no bracket is bare itself, and so is whatever was bare behind it. -/
theorem hasBareIn_cons (noOpening : isOpening t = false) (noClosing : isClosing t = false) :
    HasBareIn (t :: ts) ↔ t = .word "in" ∨ HasBareIn ts := by
  simp [HasBareIn, outside, noOpening, noClosing, eq_comm]

theorem not_hasBareIn_nil : ¬HasBareIn [] := by
  simp [HasBareIn, outside]

/-- A token that is no punctuator and not `in` itself adds no bare `in`. -/
theorem not_hasBareIn_plain (plain : t.kind ≠ .punctuator) (other : t ≠ .word "in")
    (rest : ¬HasBareIn ts) : ¬HasBareIn (t :: ts) := by
  rw [hasBareIn_cons (isOpening_of_kind plain) (isClosing_of_kind plain)]
  exact not_or.mpr ⟨other, rest⟩

/-- Inside of brackets no `in` is bare. -/
theorem not_hasBareIn_group {opening closing : Token} (opens : isOpening opening = true)
    (closes : isClosing closing = true) (balanced : Balanced ts) :
    ¬HasBareIn (opening :: (ts ++ [closing])) := by
  rw [HasBareIn, balanced.outside_group opens closes]
  exact not_hasBareIn_nil

theorem not_hasBareIn_parens (balanced : Balanced ts) : ¬HasBareIn (inParens ts) :=
  not_hasBareIn_group rfl rfl balanced

theorem not_hasBareIn_braces (balanced : Balanced ts) : ¬HasBareIn (inBraces ts) :=
  not_hasBareIn_group rfl rfl balanced

/-- An operand has a bare `in` only if it needs no parentheses. -/
theorem hasBareIn_fit (bare : HasBareIn (e.fit least e.tokens)) :
    HasBareIn e.tokens ∧ least ≤ e.level := by
  unfold Expr.fit at bare
  split at bare
  · exact absurd bare (not_hasBareIn_parens (balanced_expr e))
  · next tight => exact ⟨bare, Nat.not_lt.mp tight⟩

/-- An operand that has to bind tighter than `in` has no bare `in`: if it had one, it would stand in
parentheses. -/
theorem not_hasBareIn_fit (high : Operator.isIn.precedence < least)
    (low : HasBareIn e.tokens → e.level ≤ Operator.isIn.precedence) :
    ¬HasBareIn (e.fit least e.tokens) := by
  intro bare
  obtain ⟨bare, tight⟩ := hasBareIn_fit bare
  have := low bare
  omega

end HasBareIn

/-- Operators between operands are no brackets. -/
theorem infixToken_plain (op : Operator) :
    isOpening op.infixToken = false ∧ isClosing op.infixToken = false := by
  cases op <;> decide

/-- The one operator that is written `in` is the test for a key. -/
theorem isIn_of_infixToken {op : Operator} (shape : op.infixToken = .word "in") : op = .isIn := by
  cases op <;> first | rfl | exact absurd shape (by decide)

/-- Operators before an operand are neither brackets nor `in`. -/
theorem unaryToken_plain (op : Operator) :
    isOpening op.unaryToken = false ∧ isClosing op.unaryToken = false ∧
      op.unaryToken ≠ .word "in" := by
  cases op <;> decide

/-- The text of an operator is no bracket. -/
theorem operator_plain (op : Operator) :
    isOpening (.punct op.text) = false ∧ isClosing (.punct op.text) = false := by
  cases op <;> decide

/-- The left operand binds at least as tightly as the operator. -/
theorem precedence_le_leftLevel (op : Operator) : op.precedence ≤ op.leftLevel := by
  cases op <;> decide

/-- The right operand binds at least as tightly as the operator. -/
theorem precedence_le_rightLevel (op : Operator) : op.precedence ≤ op.rightLevel := by
  cases op <;> decide

theorem not_hasBareIn_digits (text : String) {ts : List Token} (rest : ¬HasBareIn ts) :
    ¬HasBareIn (.digits text :: ts) :=
  not_hasBareIn_plain (by simp [Token.digits]) (by simp [Token.digits, Token.word]) rest

theorem not_hasBareIn_name (text : String) {ts : List Token} (rest : ¬HasBareIn ts) :
    ¬HasBareIn (.name text :: ts) :=
  not_hasBareIn_plain (by simp [Token.name]) (by simp [Token.name, Token.word]) rest

/-- A punctuator that is no bracket adds no bare `in`. -/
theorem not_hasBareIn_punct {text : String} (noOpening : isOpening (.punct text) = false)
    (noClosing : isClosing (.punct text) = false) {ts : List Token} (rest : ¬HasBareIn ts) :
    ¬HasBareIn (.punct text :: ts) := by
  rw [hasBareIn_cons noOpening noClosing]
  exact not_or.mpr ⟨by simp [Token.punct, Token.word], rest⟩

/-- No `in` stands in a number. -/
theorem not_hasBareIn_number (v : Double) : ¬HasBareIn v.tokens := by
  have quotient (text : String) : ¬HasBareIn [.digits text, .punct "/", .digits "0"] :=
    not_hasBareIn_digits _ (not_hasBareIn_punct rfl rfl (not_hasBareIn_digits _ not_hasBareIn_nil))
  cases v with
  | nan => exact quotient "0"
  | infinite negative =>
    cases negative with
    | false => exact quotient "1"
    | true => exact not_hasBareIn_punct rfl rfl (quotient "1")
  | finite negative code =>
    have magnitude := not_hasBareIn_digits (Double.finite false code).source not_hasBareIn_nil
    cases negative with
    | false => exact magnitude
    | true => exact not_hasBareIn_punct rfl rfl magnitude

theorem not_hasBareIn_numberBeforeMember (v : Double) : ¬HasBareIn v.tokensBeforeMember := by
  unfold Double.tokensBeforeMember
  dsimp only
  split
  · exact not_hasBareIn_digits _ not_hasBareIn_nil
  · exact not_hasBareIn_digits _ (not_hasBareIn_punct rfl rfl not_hasBareIn_nil)

/-- What stands in a function stands in brackets, the parameters as well as the body. -/
theorem not_hasBareIn_func (fn : Func) : ¬HasBareIn fn.tokens := by
  obtain ⟨span, params, body⟩ := fn
  have names := Balanced.commaJoined (balanced_params params)
  exact not_hasBareIn_append names.parens (not_hasBareIn_parens names)
    (not_hasBareIn_braces (balanced_stmts body))

/-- If `in` stands outside of brackets, then it is an operator of the expression, and the expression
binds no tighter than this operator. -/
theorem mark_of_hasBareIn : (e : Expr) → HasBareIn e.tokens →
    .operator .isIn ∈ e.marks ∧ e.level ≤ Operator.isIn.precedence
  | .binary _ op left right, bare => by
    have inLeft := precedence_le_leftLevel op
    have inRight := precedence_le_rightLevel op
    rw [Expr.tokens, hasBareIn_append ((balanced_expr left).fit _ _),
      hasBareIn_cons (infixToken_plain op).1 (infixToken_plain op).2] at bare
    obtain bare | here | bare := bare
    · obtain ⟨bare, tight⟩ := hasBareIn_fit bare
      obtain ⟨mark, low⟩ := mark_of_hasBareIn left bare
      exact ⟨by simp [Expr.marks, mark], by simp only [Expr.level]; omega⟩
    · obtain rfl := isIn_of_infixToken here
      exact ⟨by simp [Expr.marks], Nat.le_refl _⟩
    · obtain ⟨bare, tight⟩ := hasBareIn_fit bare
      obtain ⟨mark, low⟩ := mark_of_hasBareIn right bare
      exact ⟨by simp [Expr.marks, mark], by simp only [Expr.level]; omega⟩
  | .cond _ test yes no, bare => by
    have low : Operator.conditional.precedence ≤ Operator.isIn.precedence := by decide
    simp only [Expr.tokens, List.append_assoc, List.cons_append] at bare
    rw [hasBareIn_append ((balanced_expr test).fit _ _), hasBareIn_cons rfl rfl,
      hasBareIn_append ((balanced_expr yes).fit _ _), hasBareIn_cons rfl rfl] at bare
    refine ⟨?_, low⟩
    obtain bare | here | bare | here | bare := bare
    · simp [Expr.marks, (mark_of_hasBareIn test (hasBareIn_fit bare).1).1]
    · exact absurd here (by decide)
    · simp [Expr.marks, (mark_of_hasBareIn yes (hasBareIn_fit bare).1).1]
    · exact absurd here (by decide)
    · simp [Expr.marks, (mark_of_hasBareIn no (hasBareIn_fit bare).1).1]
  | .call _ isNew callee args, bare => by
    have head : ¬HasBareIn (callee.fit accessLevel callee.tokens) :=
      not_hasBareIn_fit (by decide) fun bare => (mark_of_hasBareIn callee bare).2
    refine absurd bare ?_
    simp only [Expr.tokens]
    have balanced : Balanced (callee.fit accessLevel callee.tokens) := (balanced_expr callee).fit _ _
    have arguments := not_hasBareIn_parens (.commaJoined (balanced_arguments args))
    cases isNew with
    | false => exact not_hasBareIn_append balanced head arguments
    | true =>
      simp only [if_true, List.cons_append]
      refine not_hasBareIn_plain (by decide) (by decide) ?_
      split
      · exact not_hasBareIn_append (balanced_expr callee).parens
          (not_hasBareIn_parens (balanced_expr callee)) arguments
      · exact not_hasBareIn_append balanced head arguments
  | .index _ object key, bare => by
    have head : ¬HasBareIn (object.fit accessLevel object.tokens) :=
      not_hasBareIn_fit (by decide) fun bare => (mark_of_hasBareIn object bare).2
    simp only [Expr.tokens, List.append_assoc, List.cons_append] at bare
    exact absurd bare (not_hasBareIn_append ((balanced_expr object).fit _ _) head
      (not_hasBareIn_group rfl rfl (balanced_expr key)))
  | .func _ name fn, bare => by
    refine absurd bare (not_hasBareIn_plain (by decide) (by decide) ?_)
    cases name with
    | none => exact not_hasBareIn_func fn
    | some name => exact not_hasBareIn_name name (not_hasBareIn_func fn)
  | .ident _ name, bare => absurd bare (not_hasBareIn_name name not_hasBareIn_nil)
  | .member _ object name, bare => by
    have head : ¬HasBareIn (object.fit accessLevel object.tokens) :=
      not_hasBareIn_fit (by decide) fun bare => (mark_of_hasBareIn object bare).2
    have balanced : Balanced (object.fit accessLevel object.tokens) := (balanced_expr object).fit _ _
    have access : ¬HasBareIn [.punct ".", .name name] :=
      not_hasBareIn_punct rfl rfl (not_hasBareIn_name name not_hasBareIn_nil)
    refine absurd bare ?_
    have apart : ¬HasBareIn (object.fit accessLevel object.tokens ++ [.punct ".", .name name]) :=
      not_hasBareIn_append balanced head access
    cases object with
    | num pl v =>
      simp only [Expr.tokens]
      split
      · exact not_hasBareIn_append (balanced_numberBeforeMember v)
          (not_hasBareIn_numberBeforeMember v) access
      · exact apart
    | _ => exact apart
  | .this _, bare => absurd bare (not_hasBareIn_plain (by decide) (by decide) not_hasBareIn_nil)
  | .unary _ op arg, bare => by
    have inArg : ¬HasBareIn (arg.fit unaryLevel arg.tokens) :=
      not_hasBareIn_fit (by decide) fun bare => (mark_of_hasBareIn arg bare).2
    obtain ⟨noOpening, noClosing, other⟩ := unaryToken_plain op
    rw [Expr.tokens, hasBareIn_cons noOpening noClosing] at bare
    exact absurd bare (not_or.mpr ⟨other, inArg⟩)
  | .update _ op arg, bare => by
    have inArg : ¬HasBareIn (arg.fit targetLevel arg.tokens) :=
      not_hasBareIn_fit (by decide) fun bare => (mark_of_hasBareIn arg bare).2
    obtain ⟨noOpening, noClosing⟩ := operator_plain op
    rw [Expr.tokens] at bare
    exact absurd bare (not_hasBareIn_append ((balanced_expr arg).fit _ _) inArg
      (not_hasBareIn_punct noOpening noClosing not_hasBareIn_nil))
  | .array _ elements, bare => by
    refine absurd bare ?_
    have items := Balanced.commaJoined (balanced_elements elements)
    simp only [Expr.tokens]
    refine not_hasBareIn_group rfl rfl (.append items ?_)
    split
    · exact .cons rfl rfl .nil
    · exact .nil
  | .bool _ value, bare => by
    refine absurd bare ?_
    cases value <;> exact not_hasBareIn_plain (by decide) (by decide) not_hasBareIn_nil
  | .null _, bare => absurd bare (not_hasBareIn_plain (by decide) (by decide) not_hasBareIn_nil)
  | .num _ v, bare => absurd bare (not_hasBareIn_number v)
  | .object _ members, bare =>
    absurd bare (not_hasBareIn_braces (.commaJoined (balanced_members members)))
  | .regex _ text, bare => absurd bare
    (not_hasBareIn_plain (by simp) (by simp [Token.word]) not_hasBareIn_nil)
  | .str _ value, bare => absurd bare
    (not_hasBareIn_plain (by simp) (by simp [Token.word]) not_hasBareIn_nil)
  | .undef _, bare => absurd bare (not_hasBareIn_plain (by decide) (by decide)
    (not_hasBareIn_digits _ not_hasBareIn_nil))

/-! ## First tokens -/

/-- Whether tokens begin like a function declaration or a block. -/
def opensStmt (ts : List Token) : Bool :=
  ts.head? == some (.word "function") || ts.head? == some (.punct "\x7b")

/-- How a list of tokens begins does not depend on what follows it. -/
theorem opensStmt_append {ts : List Token} (some : ts ≠ []) (us : List Token) :
    opensStmt (ts ++ us) = opensStmt ts := by
  cases ts with
  | nil => exact absurd rfl some
  | cons t rest => rfl

/-- Only a keyword or a punctuator makes an expression begin like a statement of another kind. -/
theorem opensStmt_of_kind {t : Token} (name : t.kind ≠ .keyword) (plain : t.kind ≠ .punctuator)
    (ts : List Token) : opensStmt (t :: ts) = false := by
  simp only [opensStmt, List.head?_cons, Bool.or_eq_false_iff, beq_eq_false_iff_ne, ne_eq,
    Option.some.injEq]
  constructor
  · rintro rfl
    exact name rfl
  · rintro rfl
    exact plain rfl

/-- A number does not begin like a statement of another kind. -/
theorem opensStmt_number (v : Double) : opensStmt v.tokens = false := by
  have digits (text : String) (ts : List Token) : opensStmt (.digits text :: ts) = false :=
    opensStmt_of_kind (by simp [Token.digits]) (by simp [Token.digits]) ts
  cases v with
  | nan => exact digits _ _
  | infinite negative =>
    cases negative with
    | false => exact digits _ _
    | true => rfl
  | finite negative code =>
    cases negative with
    | false => exact digits _ _
    | true => rfl

/-- Nor does an operator before its operand. -/
theorem opensStmt_unaryToken (op : Operator) (ts : List Token) :
    opensStmt (op.unaryToken :: ts) = false := by
  cases op <;> rfl

/-- Every expression is written with some token. -/
theorem tokens_ne_nil (e : Expr) : e.tokens ≠ [] := by
  cases e with
  | num pl v =>
    cases v with
    | nan => simp [Expr.tokens, Double.tokens]
    | infinite negative => cases negative <;> simp [Expr.tokens, Double.tokens]
    | finite negative code => cases negative <;> simp [Expr.tokens, Double.tokens]
  | _ => simp [Expr.tokens, inParens, inBraces]

theorem fit_ne_nil (least : Nat) (e : Expr) : e.fit least e.tokens ≠ [] := by
  unfold Expr.fit
  split
  · simp [inParens]
  · exact tokens_ne_nil e

/-- An operand begins like a statement of another kind only if it stands without parentheses and does so
by itself. -/
theorem opensStmt_fit {e : Expr} {least : Nat} (ih : e.startsLikeStmt = false → opensStmt e.tokens = false)
    (other : (decide (least ≤ e.level) && e.startsLikeStmt) = false) (ts : List Token) :
    opensStmt (e.fit least e.tokens ++ ts) = false := by
  rw [opensStmt_append (fit_ne_nil least e)]
  unfold Expr.fit
  split
  · rfl
  · next tight =>
    rw [decide_eq_true (Nat.not_lt.mp tight), Bool.true_and] at other
    exact ih other

/-- An expression that is not said to begin like a statement does not. -/
theorem opensStmt_tokens : (e : Expr) → e.startsLikeStmt = false → opensStmt e.tokens = false
  | .binary _ op left right, other => opensStmt_fit (opensStmt_tokens left) other _
  | .call _ isNew callee args, other => by
    cases isNew with
    | true => rfl
    | false => exact opensStmt_fit (opensStmt_tokens callee) other _
  | .index _ object key, other => by
    simp only [Expr.tokens, List.append_assoc]
    exact opensStmt_fit (opensStmt_tokens object) other _
  | .cond _ test yes no, other => by
    simp only [Expr.tokens, List.append_assoc]
    exact opensStmt_fit (opensStmt_tokens test) other _
  | .func .., other => by cases other
  | .ident _ name, _ => opensStmt_of_kind (by simp [Token.name]) (by simp [Token.name]) _
  | .member _ object name, other => by
    have apart := opensStmt_fit (opensStmt_tokens object) other [.punct ".", .name name]
    cases object with
    | num pl v =>
      simp only [Expr.tokens]
      split
      · unfold Double.tokensBeforeMember
        dsimp only
        split <;> exact opensStmt_of_kind (by simp [Token.digits]) (by simp [Token.digits]) _
      · exact apart
    | _ => exact apart
  | .unary _ op arg, _ => opensStmt_unaryToken op _
  | .update _ op arg, other => opensStmt_fit (opensStmt_tokens arg) other _
  | .bool _ value, _ => by cases value <;> rfl
  | .num _ v, _ => opensStmt_number v
  | .regex .., _ | .str .., _ => opensStmt_of_kind (by simp) (by simp) _
  | .object .., other => by cases other
  | .this .., _ | .array .., _ | .null .., _ | .undef .., _ => rfl

end Minifier.Grammar
