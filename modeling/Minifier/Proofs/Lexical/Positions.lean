import Minifier.Proofs.Grammar.Brackets
import Minifier.Proofs.Grammar.Printing
import Minifier.Proofs.Lexical.Steps
import Minifier.Proofs.Nodes

/-!
# Printed tokens come where they are expected

The tokens of an expression lead a reader from where an operand is to come to where one has ended, with
the same brackets open; the tokens of a statement lead it back to where a statement is to come. So
regular expressions stand only where a slash begins one, and operators only behind operands. The text
of a program is therefore split into its tokens again, unless a regular expression without flags stands
before a word.
-/

namespace Minifier

/-! ## Programs with proper names and operators -/

/-- Whether all parameters are names. -/
def Func.hasPlainParams : Func → Bool
  | .mk _ params _ => params.all fun p => Text.isPlainName p.name

/-- Whether all parameters of an accessor are names. -/
def Member.hasPlainParams : Member → Bool
  | .value .. => true
  | .getter _ _ fn | .setter _ _ fn => fn.hasPlainParams

/-- Whether all declared variables are names. -/
def VarDecl.hasPlainNames : VarDecl → Bool
  | .mk _ _ declarators => declarators.all fun | .mk name _ => Text.isPlainName name

/-- Whether all variables declared in the head of a loop are names. -/
def LoopHead.hasPlainNames : LoopHead → Bool
  | .decl d => d.hasPlainNames
  | .expr _ => true

/-- Whether the parameter of a `catch` part is a name. -/
def Handler.hasPlainParam : Handler → Bool
  | .mk _ param _ => param.all Text.isPlainName

/-- An expression has its operator where this belongs, and the names and the literal at its root are
proper ones. -/
def Expr.IsProper : Expr → Prop
  | .binary _ op _ _ => op.position? = some .between
  | .unary _ op _ => op.position? = some .before
  | .update _ op _ => op.position? = some .behind
  | .ident _ name => Text.isPlainName name = true
  | .member _ _ name => Text.isIdentifier name = true
  | .func _ name fn => name.all Text.isPlainName = true ∧ fn.hasPlainParams = true
  | .object _ members => members.all Member.hasPlainParams = true
  | .regex _ text => ∃ body flags, Lexical.IsRegex text.toList body flags
  | _ => True

/-- The names at the root of a statement are proper ones. -/
def Stmt.IsProper : Stmt → Prop
  | .breakTo _ target | .continueTo _ target => target.all Text.isPlainName = true
  | .func _ name fn => Text.isPlainName name = true ∧ fn.hasPlainParams = true
  | .label _ name _ => Text.isPlainName name = true
  | .forIn _ target _ _ => target.hasPlainNames = true
  | .forLoop _ init _ _ _ => init.all LoopHead.hasPlainNames = true
  | .tryCatch _ _ handler _ => handler.all Handler.hasPlainParam = true
  | .var _ decl => decl.hasPlainNames = true
  | _ => True

/-- All names and regular expressions are proper ones, and all operators stand where they belong. -/
def Check.proper : Check where
  expr := Expr.IsProper
  stmt := Stmt.IsProper
  body _ := True

namespace Lexical

open Grammar (isWhole joinPoints endsWhole startsWithPoint opensStmt opensStmt_tokens infixToken_apart
  endsWhole_fit endsWhole_concat)

/-! ## Parts of expressions -/

section Operands

variable {n : Nat} {outer : List (Frame × Nat)} {ts : List Token} {e : Expr} {p : Position}

/-- The innermost open bracket is one of an object literal. -/
def InObject (outer : List (Frame × Nat)) : Prop :=
  outer.head?.map Prod.fst = some .object

/-- The tokens are read as an operand. In an object literal, a comma would end it. -/
def IsOperand (e : Expr) : Prop :=
  ∀ (n : Nat) (outer : List (Frame × Nat)), (InObject outer → assignmentLevel ≤ e.level) →
    Reads ⟨.operand, n, outer⟩ e.tokens ⟨.operator, n, outer⟩

/-- Tokens in parentheses. -/
theorem Reads.inParens {r : Reader} {f : Frame} (p : Position)
    (step : r.afterPunctuator "(" = ⟨.operand, 0, (f, n) :: outer⟩)
    (inner : Reads ⟨.operand, 0, (f, n) :: outer⟩ ts ⟨p, 0, (f, n) :: outer⟩) :
    Reads r (inParens ts) ⟨f.behind, n, outer⟩ :=
  .punct (by decide) step (inner.append (.punct (by decide) rfl .nil) (.inr rfl))

/-- Tokens in braces. -/
theorem Reads.inBraces {r : Reader} {f : Frame} {first : Position} (p : Position)
    (step : r.afterPunctuator "\x7b" = ⟨first, 0, (f, n) :: outer⟩)
    (inner : Reads ⟨first, 0, (f, n) :: outer⟩ ts ⟨p, 0, (f, n) :: outer⟩) :
    Reads r (inBraces ts) ⟨f.behind, n, outer⟩ :=
  .punct (by decide) step (inner.append (.punct (by decide) rfl .nil) (.inr rfl))

/-- In parentheses every operand can stand where one is to come, a comma in it or not. -/
theorem IsOperand.parens (operand : IsOperand e) :
    Reads ⟨.operand, n, outer⟩ (inParens e.tokens) ⟨.operator, n, outer⟩ :=
  .inParens .operator rfl (operand 0 ((.group, n) :: outer) (by simp [InObject]))

/-- An operand is read in parentheses if it needs some, and without them otherwise. -/
theorem IsOperand.fit (operand : IsOperand e) {least : Nat}
    (fits : InObject outer → assignmentLevel ≤ least) :
    Reads ⟨.operand, n, outer⟩ (e.fit least e.tokens) ⟨.operator, n, outer⟩ := by
  rw [Expr.fit]
  split
  · exact operand.parens
  · next high => exact operand n outer fun inside => Nat.le_trans (fits inside) (Nat.le_of_not_lt high)

/-- Each of the lists of tokens is read as an operand, or is a hole. -/
def AreItems (first : Position) (n : Nat) (outer : List (Frame × Nat)) (items : List (List Token)) :
    Prop :=
  ∀ ts ∈ items, ts = [] ∨ Reads ⟨first, n, outer⟩ ts ⟨.operator, n, outer⟩

theorem AreItems.nil {first : Position} : AreItems first n outer [] := by
  simp [AreItems]

/-- Nothing has to be read where there is a hole. -/
theorem AreItems.hole {first : Position} {items : List (List Token)}
    (rest : AreItems first n outer items) : AreItems first n outer ([] :: items) :=
  List.forall_mem_cons.mpr ⟨.inl rfl, rest⟩

/-- One more item is read like the others. -/
theorem AreItems.cons {first : Position} {items : List (List Token)}
    (reads : Reads ⟨first, n, outer⟩ ts ⟨.operator, n, outer⟩) (rest : AreItems first n outer items) :
    AreItems first n outer (ts :: items) :=
  List.forall_mem_cons.mpr ⟨.inr reads, rest⟩

/-- Lists with commas between them. The position at the end is that before the first item if there are
none, or if a hole comes last. -/
theorem reads_commaJoined {first : Position}
    (comma : ∀ p, Reader.afterPunctuator ⟨p, n, outer⟩ "," = ⟨first, n, outer⟩) :
    {items : List (List Token)} → AreItems first n outer items →
    ∃ p, (p = first ∨ p = .operator) ∧ Reads ⟨first, n, outer⟩ (commaJoined items) ⟨p, n, outer⟩
  | [], _ => ⟨first, .inl rfl, .nil⟩
  | [ts], each => by
    obtain rfl | reads := each ts List.mem_cons_self
    · exact ⟨first, .inl rfl, .nil⟩
    · exact ⟨.operator, .inr rfl, reads⟩
  | ts :: next :: rest, each => by
    obtain ⟨p, ends, others⟩ := reads_commaJoined comma fun us mem => each us (.tail ts mem)
    refine ⟨p, ends, ?_⟩
    obtain rfl | reads := each ts List.mem_cons_self
    · exact .punct (by decide) (comma _) others
    · exact reads.append (.punct (by decide) (comma _) others) (.inr rfl)

/-- A comma asks for another operand, unless it ends a member of an object literal. -/
theorem after_comma (outside : ¬InObject outer) (p : Position) :
    Reader.afterPunctuator ⟨p, n, outer⟩ "," = ⟨.operand, n, outer⟩ :=
  congrArg (Reader.expect _) (if_neg outside)

/-- A colon for which a question mark is open asks for the other branch. -/
theorem after_choice {p : Position} :
    Reader.afterPunctuator ⟨p, n + 1, outer⟩ ":" = ⟨.operand, n, outer⟩ := by
  simp [Reader.afterPunctuator]

/-- An operator between operands comes behind the one and asks for the other. In an object literal it is
no comma. -/
theorem reads_between {op : Operator} {r' : Reader} (between : op.position? = some .between)
    (fits : InObject outer → assignmentLevel ≤ op.precedence)
    (rest : Reads ⟨.operand, n, outer⟩ ts r') :
    Reads ⟨.operator, n, outer⟩ (op.infixToken :: ts) r' := by
  cases op with
  | isIn | instanceOf => exact .keyword (by decide) rfl rfl rest
  | comma =>
    have outside : ¬InObject outer := fun inside => absurd (fits inside) (by decide)
    exact .operator (by decide) rfl (after_comma outside _) rest
  | bitNot | conditional | delete | logicalNot | postDecrement | postIncrement | preDecrement
  | preIncrement | typeOf | unaryMinus | unaryPlus | void => cases between
  | _ => exact .operator (by decide) rfl rfl rest

/-- An operator before its operand comes where an operand is to come. -/
theorem reads_before {op : Operator} {r' : Reader} (before : op.position? = some .before)
    (rest : Reads ⟨.operand, n, outer⟩ ts r') :
    Reads ⟨.operand, n, outer⟩ (op.unaryToken :: ts) r' := by
  cases op with
  | delete | typeOf | void => exact .keyword (by decide) rfl rfl rest
  | bitNot | logicalNot | preDecrement | preIncrement | unaryMinus | unaryPlus =>
    exact .punct (by decide) rfl rest
  | _ => cases before

/-- An operator behind its operand comes where the operand has ended. -/
theorem reads_behind {op : Operator} (behind : op.position? = some .behind) :
    Reads ⟨.operator, n, outer⟩ [.punct op.text] ⟨.operator, n, outer⟩ := by
  cases op with
  | postDecrement | postIncrement => exact .punct (by decide) rfl .nil
  | _ => cases behind

/-- A point and a name come behind an operand, and the name may be a reserved word. -/
theorem reads_member {pl : Place} {object : Expr} {name : String}
    (isName : Text.isIdentifier name = true)
    (base : Reads ⟨.operand, n, outer⟩ (object.fit accessLevel object.tokens) ⟨.operator, n, outer⟩) :
    Reads ⟨.operand, n, outer⟩ (Expr.member pl object name).tokens ⟨.operator, n, outer⟩ := by
  cases object with
  | num place v =>
    obtain ⟨code, rfl⟩ | low := Grammar.bare_or_level_lt v
    · exact reads_numberAccess code isName
    · have loose : v.level ≠ primaryLevel := fun primary => absurd low (by rw [primary]; decide)
      have whole : endsWhole ((Expr.num place v).fit accessLevel (Expr.num place v).tokens) = false := by
        rw [Expr.fit, if_pos (show (Expr.num place v).level < accessLevel from low)]
        exact endsWhole_concat _ _
      rw [Expr.tokens]
      simp only [if_neg loose]
      exact base.append (reads_access isName) (.inl whole)
  | _ => exact base.append (reads_access isName) (.inl (endsWhole_fit (by simp)))

/-- An accessor begins with `get` or `set`, which is followed by a key and not by a colon. -/
theorem reads_accessor {word key : String} {r' : Reader} (accessor : word = "get" ∨ word = "set")
    (body : Reads ⟨.func false, n, outer⟩ ts r') :
    Reads ⟨.key, n, outer⟩ (.name word :: keyToken key :: ts) r' := by
  have rest : Reads ⟨.accessor, n, outer⟩ (keyToken key :: ts) r' :=
    .key key (.inr rfl) body body (body.startsWithPoint_eq_false (by simp))
  obtain rfl | rfl := accessor <;> exact .name (by decide) (.inl (by decide)) rfl rest

/-- Parameters lead from the head of a function to its body. -/
theorem reads_params {params : List Param}
    (fine : (params.all fun p => Text.isPlainName p.name) = true) (declared : Bool) :
    Reads ⟨.func declared, n, outer⟩ (inParens (commaJoined (params.map fun p => [.name p.name])))
      ⟨.body declared, n, outer⟩ := by
  have names : AreItems .operand 0 ((.params declared, n) :: outer)
      (params.map fun p => [.name p.name]) := by
    intro ts mem
    obtain ⟨p, found, rfl⟩ := List.mem_map.mp mem
    exact .inr (.plainName (List.all_eq_true.1 fine p found) rfl .nil)
  obtain ⟨p, -, inner⟩ := reads_commaJoined (after_comma (by simp [InObject])) names
  exact .inParens p rfl inner

/-- Only a brace and a function mean something else at the beginning of a statement. -/
theorem after_statement {t : Token} (noFunction : t ≠ .word "function") (noBrace : t ≠ .punct "\x7b") :
    Reader.after ⟨.statement, n, outer⟩ t = Reader.after ⟨.operand, n, outer⟩ t := by
  obtain ⟨kind, text⟩ := t
  cases kind with
  | keyword =>
    simp only [Reader.after]
    unfold Reader.afterKeyword
    split <;> simp_all [Reader.expect, Token.word]
  | punctuator =>
    simp only [Reader.after]
    unfold Reader.afterPunctuator
    split
    case h_3 => exact absurd rfl noBrace
    all_goals rfl
  | _ => rfl

/-- Where a statement is to come, an operand can come that does not begin like one. -/
theorem Reads.fromStatement {r' : Reader} (reads : Reads ⟨.operand, n, outer⟩ ts r')
    (nonempty : ts ≠ []) (apart : opensStmt ts = false) : Reads ⟨.statement, n, outer⟩ ts r' := by
  obtain ⟨t, rest, rfl⟩ := List.exists_cons_of_ne_nil nonempty
  obtain ⟨u, us, shape, head⟩ := exists_joinPoints_head t rest
  have other : u ≠ .word "function" ∧ u ≠ .punct "\x7b" := by
    obtain rfl | ⟨-, rfl⟩ := head
    · simpa [opensStmt] using apart
    · simp [Token.digits, Token.word, Token.punct]
  rw [Reads, shape] at reads ⊢
  cases reads with
  | cons lexeme admits point rest =>
    refine .cons lexeme ?_ point (after_statement other.1 other.2 ▸ rest)
    obtain ⟨kind, text⟩ := u
    cases kind with
    | number | regex => simp [Reader.Admits]
    | punctuator => exact admits.imp_right (by simp)
    | _ => exact admits

/-- Statements can come in the innermost open bracket. -/
def HoldsStmts (outer : List (Frame × Nat)) : Prop :=
  ¬InObject outer ∧ outer.head?.map Prod.fst ≠ some .head

/-- A semicolon outside of the head of a loop asks for a statement. -/
theorem after_semicolon (holds : HoldsStmts outer) (p : Position) :
    Reader.afterPunctuator ⟨p, n, outer⟩ ";" = ⟨.statement, n, outer⟩ :=
  congrArg (Reader.expect _) (if_neg holds.2)

/-- So does a colon for which no question mark is open, behind a label or a branch. -/
theorem after_colon (holds : HoldsStmts outer) (p : Position) :
    Reader.afterPunctuator ⟨p, 0, outer⟩ ":" = ⟨.statement, 0, outer⟩ :=
  if_neg holds.1

/-- The tokens are read as statements. -/
def AreStmts (ts : List Token) : Prop :=
  ∀ outer, HoldsStmts outer → Reads ⟨.statement, 0, outer⟩ ts ⟨.statement, 0, outer⟩

/-- A block, or the block of a `catch` part. -/
theorem AreStmts.block (stmts : AreStmts ts) (start : p = .statement ∨ p = .head) :
    Reads ⟨p, n, outer⟩ (inBraces ts) ⟨.statement, n, outer⟩ := by
  have inner := stmts ((.block, n) :: outer) (by simp [HoldsStmts, InObject])
  obtain rfl | rfl := start <;> exact .inBraces .statement rfl inner

/-- Outside of object literals an expression is read with its commas. -/
theorem IsOperand.whole (operand : IsOperand e) (outside : ¬InObject outer) :
    Reads ⟨.operand, n, outer⟩ e.tokens ⟨.operator, n, outer⟩ :=
  operand n outer fun inside => absurd inside outside

/-- The parenthesis of a statement such as `if`. -/
theorem IsOperand.head (operand : IsOperand e) :
    Reads ⟨.head, n, outer⟩ (inParens e.tokens) ⟨.statement, n, outer⟩ :=
  .inParens .operator rfl (operand 0 ((.head, n) :: outer) (by simp [InObject]))

/-- An expression can stand as a statement, in parentheses if it begins like one of another kind. -/
theorem IsOperand.statement (operand : IsOperand e) (outside : ¬InObject outer) :
    Reads ⟨.statement, n, outer⟩ (if e.startsLikeStmt then inParens e.tokens else e.tokens)
      ⟨.operator, n, outer⟩ := by
  split
  · exact operand.parens.fromStatement (by simp [inParens]) rfl
  · next other =>
    have apart := opensStmt_tokens e (Bool.not_eq_true _ ▸ other)
    exact (operand.whole outside).fromStatement (Grammar.tokens_ne_nil e) apart

theorem reads_semicolon (holds : HoldsStmts outer) (p : Position) :
    Reads ⟨p, n, outer⟩ [.punct ";"] ⟨.statement, n, outer⟩ :=
  .punct (by decide) (after_semicolon holds p) .nil

/-- A jump is read from its keyword to its semicolon. -/
theorem reads_jump {word : String} {target : Option String} (holds : HoldsStmts outer)
    (reserved : word ∈ ["break", "continue"]) (fine : target.all Text.isPlainName = true) :
    Reads ⟨.statement, n, outer⟩ (jumpTokens word target) ⟨.statement, n, outer⟩ := by
  have name : ∃ p, Reads ⟨.operand, n, outer⟩ (target.toList.map Token.name) ⟨p, n, outer⟩ := by
    cases target with
    | none => exact ⟨_, .nil⟩
    | some name => exact ⟨_, .plainName fine rfl .nil⟩
  obtain ⟨p, name⟩ := name
  have rest := name.append (reads_semicolon holds p) (.inr rfl)
  obtain rfl | rfl := List.mem_pair.1 reserved <;> exact .keyword (by decide) rfl rfl rest

end Operands

/-! ## Expressions and statements -/

mutual

/-- The tokens of an expression are read as an operand. -/
theorem reads_expr : (e : Expr) → e.Meets .proper → IsOperand e
  | .binary _ op left right, ⟨between, fineLeft, fineRight⟩, n, outer, fits => by
    have first : Reads ⟨.operand, n, outer⟩ (left.fit op.leftLevel left.tokens) _ :=
      (reads_expr left fineLeft).fit fun inside =>
        Nat.le_trans (fits inside) (Grammar.precedence_le_leftLevel op)
    have second : Reads ⟨.operand, n, outer⟩ (right.fit op.rightLevel right.tokens) _ :=
      (reads_expr right fineRight).fit fun inside =>
        Nat.le_trans (fits inside) (Grammar.precedence_le_rightLevel op)
    refine first.append (reads_between between fits second) (.inr ?_)
    simp [startsWithPoint, (infixToken_apart op).1]
  | .call _ isNew callee args, ⟨_, fineCallee, fineArgs⟩, n, outer, _ => by
    have operand := reads_expr callee fineCallee
    have bare : Reads ⟨.operand, n, outer⟩ (callee.fit accessLevel callee.tokens) _ :=
      operand.fit fun _ => by decide
    obtain ⟨p, -, inner⟩ := reads_commaJoined (after_comma (by simp [InObject]))
      (reads_arguments args fineArgs 0 ((.group, n) :: outer))
    have tail : Reads ⟨.operator, n, outer⟩ (inParens (commaJoined (argumentTokens args))) _ :=
      .inParens p rfl inner
    rw [Expr.tokens]
    refine Reads.append ?_ tail (.inr rfl)
    cases isNew with
    | false => exact bare
    | true =>
      refine .keyword (by decide) rfl rfl ?_
      split
      · exact operand.parens
      · exact bare
  | .index _ object key, ⟨_, fineObject, fineKey⟩, n, outer, _ => by
    have base : Reads ⟨.operand, n, outer⟩ (object.fit accessLevel object.tokens) _ :=
      (reads_expr object fineObject).fit fun _ => by decide
    have inner := reads_expr key fineKey 0 ((.bracket, n) :: outer) (by simp [InObject])
    have tail : Reads ⟨.operator, n, outer⟩ (.punct "[" :: (key.tokens ++ [.punct "]"]))
        ⟨.operator, n, outer⟩ :=
      .punct (by decide) rfl (inner.append (.punct (by decide) rfl .nil) (.inr rfl))
    simpa [Expr.tokens] using base.append tail (.inr rfl)
  | .cond _ test yes no, ⟨_, fineTest, fineYes, fineNo⟩, n, outer, _ => by
    have first : Reads ⟨.operand, n, outer⟩
        (test.fit (Operator.conditional.precedence + 1) test.tokens) _ :=
      (reads_expr test fineTest).fit fun _ => by decide
    have second : Reads ⟨.operand, n + 1, outer⟩ (yes.fit assignmentLevel yes.tokens) _ :=
      (reads_expr yes fineYes).fit fun _ => Nat.le_refl _
    have third : Reads ⟨.operand, n, outer⟩ (no.fit assignmentLevel no.tokens) _ :=
      (reads_expr no fineNo).fit fun _ => Nat.le_refl _
    have otherwise : Reads ⟨.operator, n + 1, outer⟩
        (.punct ":" :: no.fit assignmentLevel no.tokens) ⟨.operator, n, outer⟩ :=
      .punct (by decide) after_choice third
    have tail : Reads ⟨.operator, n, outer⟩ (.punct "?" :: (yes.fit assignmentLevel yes.tokens ++
        .punct ":" :: no.fit assignmentLevel no.tokens)) ⟨.operator, n, outer⟩ :=
      .operator (by decide) rfl rfl (second.append otherwise (.inr rfl))
    simpa [Expr.tokens] using first.append tail (.inr rfl)
  | .func _ name fn, ⟨⟨plain, params⟩, fineBody⟩, n, outer, _ => by
    have rest := reads_func fn fineBody params false n outer
    refine .keyword (by decide) rfl rfl ?_
    cases name with
    | none => exact rest
    | some name => exact .plainName plain rfl rest
  | .ident _ name, plain, _, _, _ => .plainName plain rfl .nil
  | .member _ object name, ⟨isName, fineObject⟩, _, _, _ =>
    reads_member isName ((reads_expr object fineObject).fit fun _ => by decide)
  | .this _, _, _, _, _ => .keyword (by decide) rfl rfl .nil
  | .unary _ op arg, ⟨before, fineArg⟩, _, _, _ =>
    reads_before before ((reads_expr arg fineArg).fit fun _ => by decide)
  | .update _ op arg, ⟨behind, fineArg⟩, n, outer, _ => by
    have operand : Reads ⟨.operand, n, outer⟩ (arg.fit targetLevel arg.tokens) _ :=
      (reads_expr arg fineArg).fit fun _ => by decide
    exact operand.append (reads_behind behind) (.inr (by cases op <;> rfl))
  | .array _ elements, ⟨_, fineElements⟩, n, outer, _ => by
    obtain ⟨p, -, items⟩ := reads_commaJoined (after_comma (by simp [InObject]))
      (reads_elements elements fineElements 0 ((.bracket, n) :: outer))
    simp only [Expr.tokens, List.append_assoc, List.cons_append]
    refine .punct (by decide) rfl (items.append ?_ (.inr ?_))
    · split
      · exact .punct (by decide) rfl (.punct (by decide) rfl .nil)
      · exact .punct (by decide) rfl .nil
    · split <;> rfl
  | .bool _ value, _, _, _, _ => by
    cases value <;> exact .keyword (by decide) rfl rfl .nil
  | .null _, _, _, _, _ => .keyword (by decide) rfl rfl .nil
  | .num _ v, _, _, _, _ => reads_number v
  | .object _ members, ⟨params, fineMembers⟩, n, outer, _ => by
    obtain ⟨p, -, inner⟩ := reads_commaJoined (fun _ => rfl)
      (reads_members members fineMembers params n outer)
    exact .inBraces p rfl inner
  | .regex _ text, isRegex, _, _, _ => .cons (.inl rfl) isRegex (by simp [Reader.Admits]) rfl .nil
  | .str _ value, _, _, _, _ => .literal value rfl .nil
  | .undef _, _, n, outer, _ => by
    have zero : Decimal.Spelled "0".toList ⟨0, 0⟩ := .run ⟨by simp, by simp⟩
    exact .keyword (by decide) rfl rfl (reads_digits zero (.inr rfl) .nil)
termination_by structural e => e

/-- The arguments of a call are read one by one. -/
theorem reads_arguments : (args : List Expr) → exprsMeet .proper args → (n : Nat) →
    (outer : List (Frame × Nat)) → AreItems .operand n outer (argumentTokens args)
  | [], _, _, _ => .nil
  | e :: rest, ⟨fine, fineRest⟩, n, outer =>
    .cons ((reads_expr e fine).fit fun _ => Nat.le_refl _) (reads_arguments rest fineRest n outer)
termination_by structural args => args

theorem reads_elements : (elements : List (Option Expr)) → elementsMeet .proper elements → (n : Nat) →
    (outer : List (Frame × Nat)) → AreItems .operand n outer (elementTokens elements)
  | [], _, _, _ => .nil
  | none :: rest, ⟨_, fineRest⟩, n, outer => .hole (reads_elements rest fineRest n outer)
  | some e :: rest, ⟨fine, fineRest⟩, n, outer =>
    .cons ((reads_expr e fine).fit fun _ => Nat.le_refl _) (reads_elements rest fineRest n outer)
termination_by structural elements => elements

/-- The members of an object literal are read one by one, each from its key on. -/
theorem reads_members : (members : List Member) → membersMeet .proper members →
    members.all Member.hasPlainParams = true → (n : Nat) → (outer : List (Frame × Nat)) →
    AreItems .key 0 ((.object, n) :: outer) (memberTokens members)
  | [], _, _, _, _ => .nil
  | .value _ key e :: rest, ⟨fine, fineRest⟩, params, n, outer => by
    rw [List.all_cons, Bool.and_eq_true] at params
    have others := reads_members rest fineRest params.2 n outer
    have value : Reads ⟨.operand, 0, (.object, n) :: outer⟩ (e.fit assignmentLevel e.tokens) _ :=
      (reads_expr e fine).fit fun _ => Nat.le_refl _
    refine .cons (.key key (.inl rfl) ?_ ?_ rfl) others <;> exact .punct (by decide) rfl value
  | .getter _ key fn :: rest, ⟨fine, fineRest⟩, params, n, outer => by
    rw [List.all_cons, Bool.and_eq_true] at params
    have body := reads_func fn fine params.1 false 0 ((.object, n) :: outer)
    exact .cons (reads_accessor (.inl rfl) body) (reads_members rest fineRest params.2 n outer)
  | .setter _ key fn :: rest, ⟨fine, fineRest⟩, params, n, outer => by
    rw [List.all_cons, Bool.and_eq_true] at params
    have body := reads_func fn fine params.1 false 0 ((.object, n) :: outer)
    exact .cons (reads_accessor (.inr rfl) body) (reads_members rest fineRest params.2 n outer)
termination_by structural members => members

/-- A function is read from its parameters on, and leads to where one goes on behind it. -/
theorem reads_func : (fn : Func) → fn.Meets .proper → fn.hasPlainParams = true → (declared : Bool) →
    (n : Nat) → (outer : List (Frame × Nat)) →
    Reads ⟨.func declared, n, outer⟩ fn.tokens ⟨(Frame.body declared).behind, n, outer⟩
  | .mk _ params body, ⟨_, fine⟩, plain, declared, n, outer => by
    have inner := reads_stmts body fine ((.body declared, n) :: outer) (by simp [HoldsStmts, InObject])
    exact (reads_params plain declared).andThen (.inBraces .statement rfl inner) (by simp)
termination_by structural fn => fn

/-- Where an expression may be absent, a reader does not know what comes next, but the same brackets are
open. -/
theorem reads_option : (value : Option Expr) → optionMeets .proper value → (n : Nat) →
    (outer : List (Frame × Nat)) → ¬InObject outer →
    ∃ p, Reads ⟨.operand, n, outer⟩ (optionTokens value) ⟨p, n, outer⟩
  | none, _, _, _, _ => ⟨_, .nil⟩
  | some e, fine, _, _, outside => ⟨_, (reads_expr e fine).whole outside⟩
termination_by structural value => value

theorem reads_declarators (inHead : Bool) : (declarators : List Declarator) →
    declaratorsMeet .proper declarators →
    (declarators.all fun | .mk name _ => Text.isPlainName name) = true →
    (n : Nat) → (outer : List (Frame × Nat)) →
    AreItems .operand n outer (declaratorTokens inHead declarators)
  | [], _, _, _, _ => .nil
  | .mk name none :: rest, ⟨_, fineRest⟩, plain, n, outer => by
    rw [List.all_cons, Bool.and_eq_true] at plain
    exact .cons (.plainName plain.1 rfl .nil) (reads_declarators inHead rest fineRest plain.2 n outer)
  | .mk name (some init) :: rest, ⟨fine, fineRest⟩, plain, n, outer => by
    rw [List.all_cons, Bool.and_eq_true] at plain
    have operand := reads_expr init fine
    refine .cons (.plainName plain.1 rfl (.operator (by decide) rfl rfl ?_))
      (reads_declarators inHead rest fineRest plain.2 n outer)
    split
    · exact operand.parens
    · exact operand.fit fun _ => Nat.le_refl _
termination_by structural declarators => declarators

/-- A declaration is read where a statement or an operand is to come. -/
theorem reads_decl (inHead : Bool) : (decl : VarDecl) → decl.Meets .proper →
    decl.hasPlainNames = true → (n : Nat) → (outer : List (Frame × Nat)) → ¬InObject outer →
    (start : Position) → (start = .statement ∨ start = .operand) →
    ∃ p, (p = .operand ∨ p = .operator) ∧
      Reads ⟨start, n, outer⟩ (decl.tokens inHead) ⟨p, n, outer⟩
  | .mk _ mode declarators, fine, plain, n, outer, outside, start, begins => by
    obtain ⟨p, ends, names⟩ := reads_commaJoined (after_comma outside)
      (reads_declarators inHead declarators fine plain n outer)
    refine ⟨p, ends, ?_⟩
    obtain rfl | rfl := begins <;> cases mode <;> exact .keyword (by decide) rfl rfl names
termination_by structural decl => decl

theorem reads_loopInit : (init : Option LoopHead) → loopInitMeets .proper init →
    init.all LoopHead.hasPlainNames = true → (n : Nat) → (outer : List (Frame × Nat)) →
    ∃ p, Reads ⟨.operand, 0, (.head, n) :: outer⟩ (loopInitTokens init) ⟨p, 0, (.head, n) :: outer⟩
  | none, _, _, _, _ => ⟨_, .nil⟩
  | some (.decl decl), fine, plain, n, outer => by
    obtain ⟨p, -, reads⟩ := reads_decl true decl fine plain 0 ((.head, n) :: outer)
      (by simp [InObject]) _ (.inr rfl)
    exact ⟨p, reads⟩
  | some (.expr e), fine, _, n, outer => by
    have operand := reads_expr e fine
    refine ⟨.operator, ?_⟩
    rw [loopInitTokens]
    split
    · exact operand.parens
    · exact operand.whole (by simp [InObject])
termination_by structural init => init

theorem reads_target : (target : LoopHead) → target.Meets .proper →
    target.hasPlainNames = true → (n : Nat) → (outer : List (Frame × Nat)) →
    ∃ p, (p = .operand ∨ p = .operator) ∧
      Reads ⟨.operand, 0, (.head, n) :: outer⟩ target.targetTokens ⟨p, 0, (.head, n) :: outer⟩
  | .decl decl, fine, plain, n, outer =>
    reads_decl true decl fine plain 0 ((.head, n) :: outer) (by simp [InObject]) _ (.inr rfl)
  | .expr e, fine, _, _, _ => ⟨_, .inr rfl, (reads_expr e fine).fit fun _ => by decide⟩
termination_by structural target => target

/-- The branches of a `switch` are read like statements. -/
theorem reads_branches : (branches : List Branch) → branchesMeet .proper branches →
    AreStmts (branchesTokens branches)
  | [], _, _, _ => .nil
  | .mk _ test body :: rest, ⟨fineTest, fineBody, fineRest⟩, outer, holds => by
    have stmts := (reads_stmts body fineBody.2 outer holds).andThen
      (reads_branches rest fineRest outer holds) (by simp)
    have tail : Reads ⟨.operator, 0, outer⟩ (.punct ":" :: (stmtsTokens body ++ branchesTokens rest)) _ :=
      .punct (by decide) (after_colon holds _) stmts
    cases test with
    | none => exact .keyword (by decide) rfl rfl tail
    | some e =>
      have test : Reads ⟨.operand, 0, outer⟩ e.tokens _ := (reads_expr e fineTest).whole holds.1
      simp only [branchesTokens, List.append_assoc, List.cons_append]
      exact .keyword (by decide) rfl rfl (test.append tail (.inr rfl))
termination_by structural branches => branches

/-- The tokens of a statement lead back to where a statement is to come. -/
theorem reads_stmt : (s : Stmt) → s.Meets .proper → AreStmts s.tokens
  | .block _ body, fine, _, _ => (reads_stmts body fine.2.2).block (.inl rfl)
  | .breakTo _ label, plain, _, holds => reads_jump holds (by simp) plain
  | .continueTo _ label, plain, _, holds => reads_jump holds (by simp) plain
  | .debugger _, _, _, holds => .keyword (by decide) rfl rfl (reads_semicolon holds _)
  | .doWhile _ body test, ⟨_, fineBody, fineTest⟩, outer, holds => by
    have loop : Reads ⟨.head, 0, outer⟩ (inParens test.tokens ++ [.punct ";"]) _ :=
      (reads_expr test fineTest).head.andThen (reads_semicolon holds _) (by simp)
    simp only [Stmt.tokens, List.append_assoc, List.cons_append]
    refine .keyword (by decide) rfl rfl ((reads_stmt body fineBody outer holds).andThen ?_ (by simp))
    exact .keyword (by decide) rfl rfl loop
  | .empty _, _, _, holds => reads_semicolon holds _
  | .expr _ e, ⟨_, fine⟩, _, holds =>
    ((reads_expr e fine).statement holds.1).append (reads_semicolon holds _) (.inr rfl)
  | .forIn _ target object body, ⟨plain, fineTarget, fineObject, fineBody⟩, outer, holds => by
    obtain ⟨p, ends, first⟩ := reads_target target fineTarget plain 0 outer
    have second : Reads ⟨.operand, 0, (.head, 0) :: outer⟩ object.tokens _ :=
      (reads_expr object fineObject).whole (by simp [InObject])
    have tail : Reads ⟨p, 0, (.head, 0) :: outer⟩ (.word "in" :: object.tokens)
        ⟨.operator, 0, (.head, 0) :: outer⟩ := by
      obtain rfl | rfl := ends <;> exact .keyword (by decide) rfl rfl second
    have head : Reads ⟨.head, 0, outer⟩
        (inParens (target.targetTokens ++ .word "in" :: object.tokens)) ⟨.statement, 0, outer⟩ :=
      .inParens .operator rfl (first.append tail (.inr rfl))
    exact .keyword (by decide) rfl rfl
      (head.andThen (reads_stmt body fineBody outer holds) (by simp))
  | .forLoop _ init test step body, ⟨plain, fineInit, fineTest, fineStep, fineBody⟩, outer, holds => by
    have outside : ¬InObject ((.head, 0) :: outer) := by simp [InObject]
    obtain ⟨p, first⟩ := reads_loopInit init fineInit plain 0 outer
    obtain ⟨q, second⟩ := reads_option test fineTest 0 ((.head, 0) :: outer) outside
    obtain ⟨r, third⟩ := reads_option step fineStep 0 ((.head, 0) :: outer) outside
    have inner : Reads ⟨.operand, 0, (.head, 0) :: outer⟩ (loopInitTokens init ++ .punct ";" ::
        optionTokens test ++ .punct ";" :: optionTokens step) ⟨r, 0, (.head, 0) :: outer⟩ := by
      rw [List.append_assoc]
      exact first.append (.punct (by decide) rfl
        (second.append (.punct (by decide) rfl third) (.inr rfl))) (.inr rfl)
    have head : Reads ⟨.head, 0, outer⟩ _ ⟨.statement, 0, outer⟩ := .inParens r rfl inner
    exact .keyword (by decide) rfl rfl
      (head.andThen (reads_stmt body fineBody outer holds) (by simp))
  | .func _ name fn, ⟨⟨plain, params⟩, fine⟩, outer, _ =>
    .keyword (by decide) rfl rfl (.plainName plain rfl (reads_func fn fine params true 0 outer))
  | .ite _ test yes none, ⟨_, fineTest, fineYes, _⟩, outer, holds =>
    .keyword (by decide) rfl rfl
      ((reads_expr test fineTest).head.andThen (reads_stmt yes fineYes outer holds) (by simp))
  | .ite _ test yes (some no), ⟨_, fineTest, fineYes, fineNo⟩, outer, holds => by
    have otherwise : Reads ⟨.statement, 0, outer⟩ (.word "else" :: no.tokens) _ :=
      .keyword (by decide) rfl rfl (reads_stmt no fineNo outer holds)
    have stmts := reads_stmt yes fineYes
    simp only [Stmt.tokens, List.append_assoc, List.cons_append]
    refine .keyword (by decide) rfl rfl ((reads_expr test fineTest).head.andThen ?_ (by simp))
    refine Reads.andThen ?_ otherwise (by simp)
    split
    · exact stmts.block (.inl rfl)
    · exact stmts outer holds
  | .label _ name body, ⟨plain, fine⟩, outer, holds =>
    .plainName plain rfl (.punct (by decide) (after_colon holds _) (reads_stmt body fine outer holds))
  | .ret _ value, ⟨_, fine⟩, outer, holds => by
    obtain ⟨p, reads⟩ := reads_option value fine 0 outer holds.1
    exact .keyword (by decide) rfl rfl (reads.append (reads_semicolon holds p) (.inr rfl))
  | .switch _ subject branches, ⟨_, fineSubject, fineBranches⟩, _, _ =>
    .keyword (by decide) rfl rfl ((reads_expr subject fineSubject).head.andThen
      ((reads_branches branches fineBranches).block (.inl rfl)) (by simp))
  | .throw _ value, ⟨_, fine⟩, _, holds =>
    .keyword (by decide) rfl rfl
      (((reads_expr value fine).whole holds.1).append (reads_semicolon holds _) (.inr rfl))
  | .tryCatch _ (.mk _ body) handler final, ⟨plain, fineBody, fineHandler, fineFinal⟩, outer, holds => by
    have block : Reads ⟨.statement, 0, outer⟩ (inBraces (stmtsTokens body)) _ :=
      (reads_stmts body fineBody.2).block (.inl rfl)
    have tail := (reads_handler handler fineHandler plain outer holds).andThen
      (reads_final final fineFinal outer holds) (by simp)
    simp only [Stmt.tokens, List.append_assoc, List.cons_append]
    exact .keyword (by decide) rfl rfl (block.andThen tail (by simp))
  | .var _ decl, ⟨plain, fine⟩, outer, holds => by
    obtain ⟨p, -, reads⟩ := reads_decl false decl fine plain 0 outer holds.1 _ (.inl rfl)
    exact reads.append (reads_semicolon holds p) (.inr rfl)
  | .whileLoop _ test body, ⟨_, fineTest, fineBody⟩, outer, holds =>
    .keyword (by decide) rfl rfl
      ((reads_expr test fineTest).head.andThen (reads_stmt body fineBody outer holds) (by simp))
  | .withObject _ object body, ⟨_, fineObject, fineBody⟩, outer, holds =>
    .keyword (by decide) rfl rfl
      ((reads_expr object fineObject).head.andThen (reads_stmt body fineBody outer holds) (by simp))
termination_by structural s => s

theorem reads_handler : (handler : Option Handler) → handlerMeets .proper handler →
    handler.all Handler.hasPlainParam = true → AreStmts (handlerTokens handler)
  | none, _, _, _, _ => .nil
  | some (.mk _ none body), ⟨_, fine⟩, _, _, _ =>
    .keyword (by decide) rfl rfl ((reads_stmts body fine).block (.inr rfl))
  | some (.mk _ (some param) body), ⟨_, fine⟩, plain, outer, _ => by
    have block : Reads ⟨.statement, 0, outer⟩ (inBraces (stmtsTokens body)) _ :=
      (reads_stmts body fine).block (.inl rfl)
    have head : Reads ⟨.head, 0, outer⟩ (inParens [.name param]) ⟨.statement, 0, outer⟩ :=
      Reads.inParens (f := .head) .operator rfl (.plainName plain rfl .nil)
    exact .keyword (by decide) rfl rfl (head.andThen block (by simp))
termination_by structural handler => handler

theorem reads_final : (final : Option Block) → finalMeets .proper final → AreStmts (finalTokens final)
  | none, _, _, _ => .nil
  | some (.mk _ body), ⟨_, fine⟩, _, _ =>
    .keyword (by decide) rfl rfl ((reads_stmts body fine).block (.inl rfl))
termination_by structural final => final

/-- The statements of a list are read one by one. -/
theorem reads_stmts : (body : List Stmt) → stmtsMeet .proper body → AreStmts (stmtsTokens body)
  | [], _, _, _ => .nil
  | s :: rest, ⟨fine, fineRest⟩, outer, holds =>
    (reads_stmt s fine outer holds).andThen (reads_stmts rest fineRest outer holds) (by simp)
termination_by structural body => body

end

/-! ## The text of a program -/

/-- Splitting the text of a program gives the tokens that were written, each whole number together with
its point, unless a regular expression without flags stands directly before a word: no blank is written
there, and the word is read as flags. -/
theorem lex_render_iff {p : Program} (proper : p.Meets .proper) :
    lex p.render = some (joinPoints (stmtsTokens p.body)) ↔
      regexMeetsWord (joinPoints (stmtsTokens p.body)) = false := by
  have reads : Reads .start (stmtsTokens p.body) .start :=
    reads_stmts p.body proper.2 [] (by simp [HoldsStmts, InObject])
  exact reads.lex_spell_iff

/-- The case of `if(a)/[/]/g.test(b);c=5..d/+e- -f;h={get 5(){}}/i;function j(){}/k/.l;`: slashes stand
behind parentheses and braces of both kinds, a number has a point of its own, and signs are kept
apart. -/
theorem lex_render_slashes :
    let here : Place := default
    let name (text : String) : Expr := .ident here text
    let search := Expr.member here (.regex here "/[/]/g") "test"
    let quotient := Expr.binary here .division (.member here (.num here (.ofNat 5)) "d")
      (.unary here .unaryPlus (name "e"))
    let getter := Expr.object here [.getter default "5" (.mk default [] [])]
    let p : Program := ⟨default, [
      .ite here (name "a") (.expr here (.call here false search [name "b"])) none,
      .expr here (.binary here .assign (name "c")
        (.binary here .subtraction quotient (.unary here .unaryMinus (name "f")))),
      .expr here (.binary here .assign (name "h") (.binary here .division getter (name "i"))),
      .func here "j" (.mk default [] []),
      .expr here (.member here (.regex here "/k/") "l")]⟩
    p.Meets .proper ∧ lex p.render = some (joinPoints (stmtsTokens p.body)) := by
  intro here name search quotient getter p
  have plain : ∀ text ∈ ["a", "b", "c", "e", "f", "h", "i", "j"], Text.isPlainName text = true := by
    decide +kernel
  have member : ∀ text ∈ ["test", "d", "l"], Text.isIdentifier text = true := by decide +kernel
  have first : IsRegex "/[/]/g".toList "[/]".toList "g".toList :=
    ⟨rfl, by decide, by decide, by decide, List.all_eq_true.1 (by decide +kernel)⟩
  have second : IsRegex "/k/".toList "k".toList [] := ⟨rfl, by decide, by decide, by decide, by simp⟩
  have proper : p.Meets .proper := by
    refine ⟨trivial, ⟨trivial, plain _ (by simp), ?_, trivial⟩, ⟨trivial, ?_⟩, ⟨trivial, ?_⟩, ?_, ?_,
      trivial⟩
    · exact ⟨trivial, trivial, ⟨member _ (by simp), _, _, first⟩, plain _ (by simp), trivial⟩
    · exact ⟨rfl, plain _ (by simp), rfl, ⟨rfl, ⟨member _ (by simp), trivial⟩, rfl, plain _ (by simp)⟩,
        rfl, plain _ (by simp)⟩
    · exact ⟨rfl, plain _ (by simp), rfl, ⟨rfl, ⟨trivial, trivial⟩, trivial⟩, plain _ (by simp)⟩
    · exact ⟨⟨plain _ (by simp), rfl⟩, trivial, trivial⟩
    · exact ⟨trivial, member _ (by simp), _, _, second⟩
  exact ⟨proper, (lex_render_iff proper).2 (by decide +kernel)⟩

/-- No blank is written in `/a/in b;`, and `in` is read as flags of the regular expression. -/
theorem lex_render_regex_in :
    let here : Place := default
    let p : Program := ⟨default,
      [.expr here (.binary here .isIn (.regex here "/a/") (.ident here "b"))]⟩
    p.Meets .proper ∧ p.render = "/a/in b;" ∧
      lex p.render = some [⟨.regex, "/a/in"⟩, .name "b", .punct ";"] ∧
      lex p.render ≠ some (joinPoints (stmtsTokens p.body)) := by
  intro here p
  have regex : IsRegex "/a/".toList "a".toList [] := ⟨rfl, by decide, by decide, by decide, by simp⟩
  have name : Text.isPlainName "b" = true := by decide +kernel
  have proper : p.Meets .proper := ⟨trivial, ⟨trivial, rfl, ⟨_, _, regex⟩, name⟩, trivial⟩
  have text : p.render = "/a/in b;" := by decide
  have swallowed : IsRegex "/a/in".toList "a".toList "in".toList :=
    ⟨rfl, by decide, by decide, by decide, List.all_eq_true.1 (by decide +kernel)⟩
  have reads : Reads .start [⟨.regex, "/a/in"⟩, .name "b", .punct ";"] .start :=
    .cons (.inl rfl) ⟨_, _, swallowed⟩ (by simp [Reader.Admits, Reader.start]) rfl
      (.plainName name rfl (.punct (by decide) rfl .nil))
  have spelled : Token.spell [⟨.regex, "/a/in"⟩, .name "b", .punct ";"] = p.render := by decide
  have split := reads.lex_spell_iff.2 (by decide)
  rw [spelled] at split
  exact ⟨proper, text, split, by rw [split]; decide⟩

end Lexical

end Minifier
