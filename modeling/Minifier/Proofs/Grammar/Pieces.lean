import Minifier.Proofs.Grammar.Statement
import Minifier.Proofs.Grammar.Tokens

/-!
# Printed statements in pieces

The tokens of statements, taken apart so that each printed expression is one piece. Together with it
come the statements that the printer is meant for, and what they are once they have been written: the
places are gone, and an `if` that would take the `else` of another one stands in braces.

The printer takes trees that the grammar has no text for: a declaration can be the body of a loop, and a
`switch` can have two defaults. Which trees are free of that is a question of its own, `isGrammatical`.
-/

namespace Minifier

/-- Whether at least one name is declared, and all are identifiers. -/
def VarDecl.isWellFormed : VarDecl → Bool
  | .mk _ _ declarators =>
    !declarators.isEmpty && declarators.all fun | .mk name _ => Text.isPlainName name

/-- Whether a counting loop can start from it. -/
def LoopHead.isWellFormed : LoopHead → Bool
  | .decl d => d.isWellFormed
  | .expr _ => true

/-- Whether a loop over the keys of an object can store them there: into one declared name, or into
an expression that can be stored into. -/
def LoopHead.isTarget : LoopHead → Bool
  | .decl (.mk _ _ [.mk name _]) => Text.isPlainName name
  | .decl _ => false
  | .expr e => e.isTarget

mutual

/-- Whether the parts of a statement can be written: names are identifiers, declarations declare
something, loops over keys have a target, and a `try` has a `catch` or a `finally`. Expressions are
not looked into. -/
def Stmt.isWellFormed : Stmt → Bool
  | .block _ body => stmtsWellFormed body
  | .breakTo _ label | .continueTo _ label => label.all Text.isPlainName
  | .debugger _ | .empty _ | .expr _ _ | .ret _ _ | .throw _ _ => true
  | .doWhile _ body _ | .whileLoop _ _ body | .withObject _ _ body => body.isWellFormed
  | .forIn _ target _ body => target.isTarget && body.isWellFormed
  | .forLoop _ init _ _ body => init.all LoopHead.isWellFormed && body.isWellFormed
  | .func _ name fn => Text.isPlainName name && fn.isWellFormed
  | .ite _ _ yes none => yes.isWellFormed
  | .ite _ _ yes (some no) => yes.isWellFormed && no.isWellFormed
  | .label _ name body => Text.isPlainName name && body.isWellFormed
  | .switch _ _ branches => branchesWellFormed branches
  | .tryCatch _ body handler final => (handler.isSome || final.isSome) && body.isWellFormed &&
    handlerWellFormed handler && finalWellFormed final
  | .var _ decl => decl.isWellFormed

/-- Whether a function has identifiers for parameters and a well-formed body. -/
def Func.isWellFormed : Func → Bool
  | .mk _ params body => (params.all fun p => Text.isPlainName p.name) && stmtsWellFormed body

/-- Whether the branches of a `switch` are well formed. -/
def branchesWellFormed : List Branch → Bool
  | [] => true
  | .mk _ _ body :: rest => stmtsWellFormed body && branchesWellFormed rest

/-- Whether a block of a `try` statement is well formed. -/
def Block.isWellFormed : Block → Bool
  | .mk _ body => stmtsWellFormed body

/-- Whether the `catch` part of a `try` statement is well formed. -/
def handlerWellFormed : Option Handler → Bool
  | none => true
  | some (.mk _ param body) => param.all Text.isPlainName && stmtsWellFormed body

/-- Whether the `finally` part of a `try` statement is well formed. -/
def finalWellFormed : Option Block → Bool
  | none => true
  | some block => block.isWellFormed

/-- Whether all statements of a list are well formed. -/
def stmtsWellFormed : List Stmt → Bool
  | [] => true
  | s :: rest => s.isWellFormed && stmtsWellFormed rest

end

/-- Whether a loop over keys can declare its names in this way: only behind `var` there is room for an
initial value. -/
def LoopHead.isBare : LoopHead → Bool
  | .decl (.mk _ mode declarators) => mode == .var || declarators.all fun d => !d.hasInit
  | .expr _ => true

/-- Whether the statement declares names with `let` or `const`. -/
def Stmt.isLexical : Stmt → Bool
  | .var _ decl => decl.mode != .var
  | _ => false

/-- Whether a branch of a `switch` is a default. -/
def Branch.isDefault : Branch → Bool
  | .mk _ test _ => test.isNone

mutual

/-- Whether the grammar has a place for all that a statement holds. The body of an `if`, a loop or a
`with` is no declaration, and what a label stands before is at most a function. A `switch` has no second
default, and a loop over keys gives no initial value to a name of `let` or `const`. -/
def Stmt.isGrammatical : Stmt → Bool
  | .block _ body => stmtsGrammatical body
  | .breakTo _ _ | .continueTo _ _ | .debugger _ | .empty _ | .expr _ _ | .ret _ _ | .throw _ _
  | .var _ _ => true
  | .doWhile _ body _ | .forLoop _ _ _ _ body | .whileLoop _ _ body | .withObject _ _ body =>
    !body.isScoped && body.isGrammatical
  | .forIn _ target _ body => target.isBare && !body.isScoped && body.isGrammatical
  | .func _ _ fn => fn.isGrammatical
  | .ite _ _ yes none => !yes.isScoped && yes.isGrammatical
  | .ite _ _ yes (some no) =>
    !yes.isScoped && yes.isGrammatical && !no.isScoped && no.isGrammatical
  | .label _ _ body => !body.isLexical && body.isGrammatical
  | .switch _ _ branches =>
    decide (branches.countP Branch.isDefault ≤ 1) && branchesGrammatical branches
  | .tryCatch _ body handler final =>
    body.isGrammatical && handlerGrammatical handler && finalGrammatical final

/-- Whether the body of a function is grammatical. -/
def Func.isGrammatical : Func → Bool
  | .mk _ _ body => stmtsGrammatical body

/-- Whether the bodies of the branches of a `switch` are grammatical. -/
def branchesGrammatical : List Branch → Bool
  | [] => true
  | .mk _ _ body :: rest => stmtsGrammatical body && branchesGrammatical rest

/-- Whether a block of a `try` statement is grammatical. -/
def Block.isGrammatical : Block → Bool
  | .mk _ body => stmtsGrammatical body

/-- Whether the `catch` part of a `try` statement is grammatical. -/
def handlerGrammatical : Option Handler → Bool
  | none => true
  | some (.mk _ _ body) => stmtsGrammatical body

/-- Whether the `finally` part of a `try` statement is grammatical. -/
def finalGrammatical : Option Block → Bool
  | none => true
  | some block => block.isGrammatical

/-- Whether all statements of a list are grammatical. -/
def stmtsGrammatical : List Stmt → Bool
  | [] => true
  | s :: rest => s.isGrammatical && stmtsGrammatical rest

end

attribute [simp] Stmt.isGrammatical Func.isGrammatical branchesGrammatical Block.isGrammatical
  finalGrammatical stmtsGrammatical

/-- A declaration as it is written. -/
def VarDecl.written : VarDecl → VarDecl
  | .mk _ mode declarators => .mk default mode declarators

/-- The head of a loop as it is written. -/
def LoopHead.written : LoopHead → LoopHead
  | .decl d => .decl d.written
  | .expr e => .expr e

mutual

/-- A statement as it is written. Expressions are left as they are. -/
def Stmt.written : Stmt → Stmt
  | .block _ body => .block default (writtenStmts body)
  | .breakTo _ label => .breakTo default label
  | .continueTo _ label => .continueTo default label
  | .debugger _ => .debugger default
  | .doWhile _ body test => .doWhile default body.written test
  | .empty _ => .empty default
  | .expr _ e => .expr default e
  | .forIn _ target object body => .forIn default target.written object body.written
  | .forLoop _ init test step body =>
    .forLoop default (init.map LoopHead.written) test step body.written
  | .func _ name fn => .func default name fn.written
  | .ite _ test yes none => .ite default test yes.written none
  | .ite _ test yes (some no) =>
    .ite default test (if yes.endsWithOpenIf then .block default [yes.written] else yes.written)
      (some no.written)
  | .label _ name body => .label default name body.written
  | .ret _ value => .ret default value
  | .switch _ subject branches => .switch default subject (writtenBranches branches)
  | .throw _ value => .throw default value
  | .tryCatch _ body handler final =>
    .tryCatch default body.written (writtenHandler handler) (writtenFinal final)
  | .var _ decl => .var default decl.written
  | .whileLoop _ test body => .whileLoop default test body.written
  | .withObject _ object body => .withObject default object body.written

/-- A function as it is written. -/
def Func.written : Func → Func
  | .mk _ params body => .mk default (params.map fun p => ⟨default, p.name⟩) (writtenStmts body)

/-- The branches of a `switch` as they are written. -/
def writtenBranches : List Branch → List Branch
  | [] => []
  | .mk _ test body :: rest => .mk default test (writtenStmts body) :: writtenBranches rest

/-- A block of a `try` statement as it is written. -/
def Block.written : Block → Block
  | .mk _ body => .mk default (writtenStmts body)

/-- The `catch` part of a `try` statement as it is written. -/
def writtenHandler : Option Handler → Option Handler
  | none => none
  | some (.mk _ param body) => some (.mk default param (writtenStmts body))

/-- The `finally` part of a `try` statement as it is written. -/
def writtenFinal : Option Block → Option Block
  | none => none
  | some block => some block.written

/-- Statements as they are written. -/
def writtenStmts : List Stmt → List Stmt
  | [] => []
  | s :: rest => s.written :: writtenStmts rest

end

namespace Grammar

/-! ## Pieces -/

/-- An expression that stands in parentheses if it binds less tightly than `least`. -/
def fitted (least : Nat) (e : Expr) : Piece :=
  .phrase (e.level < least) e

/-- The pieces of a declared name. -/
def declaratorPieces (inHead : Bool) : Declarator → List Piece
  | .mk name none => [.word name]
  | .mk name (some init) =>
    [.word name, .punct "=",
      if inHead && init.hasIn then .phrase true init else fitted assignmentLevel init]

/-- The pieces of declared names with commas between them. -/
def declaratorsPieces (inHead : Bool) : List Declarator → List Piece
  | [] => []
  | [d] => declaratorPieces inHead d
  | d :: rest => declaratorPieces inHead d ++ .punct "," :: declaratorsPieces inHead rest

/-- The pieces of a declaration. -/
def declPieces (inHead : Bool) : VarDecl → List Piece
  | .mk _ mode declarators => .word mode.keyword :: declaratorsPieces inHead declarators

/-- The pieces of an expression that may be absent. -/
def optionPieces (e : Option Expr) : List Piece :=
  e.toList.map (.phrase false)

/-- The pieces of what a counting loop starts from. -/
def loopInitPieces : Option LoopHead → List Piece
  | none => []
  | some (.decl decl) => declPieces true decl
  | some (.expr e) => [.phrase (e.hasIn || e.startsLikeStmt) e]

/-- The pieces of the target of a loop over the keys of an object. -/
def targetPieces : LoopHead → List Piece
  | .decl decl => declPieces true decl
  | .expr e => [fitted targetLevel e]

/-- The pieces of parameters with commas between them. -/
def paramsPieces : List Param → List Piece
  | [] => []
  | [p] => [.word p.name]
  | p :: rest => .word p.name :: .punct "," :: paramsPieces rest

/-- The pieces of a condition or another expression in the head of a statement. -/
def headPieces (e : Expr) : List Piece :=
  [.punct "(", .phrase false e, .punct ")"]

/-- Pieces between braces. -/
def bracedPieces (ps : List Piece) : List Piece :=
  .punct "\x7b" :: ps ++ [.punct "\x7d"]

mutual

/-- The pieces of a statement. -/
def stmtPieces : Stmt → List Piece
  | .block _ body => bracedPieces (stmtsPieces body)
  | .breakTo _ label => .word "break" :: label.toList.map Piece.word ++ [.punct ";"]
  | .continueTo _ label => .word "continue" :: label.toList.map Piece.word ++ [.punct ";"]
  | .debugger _ => [.word "debugger", .punct ";"]
  | .doWhile _ body test =>
    .word "do" :: stmtPieces body ++ .word "while" :: headPieces test ++ [.punct ";"]
  | .empty _ => [.punct ";"]
  | .expr _ e => [.phrase e.startsLikeStmt e, .punct ";"]
  | .forIn _ target object body =>
    .word "for" :: .punct "(" :: targetPieces target ++
      .word "in" :: .phrase false object :: .punct ")" :: stmtPieces body
  | .forLoop _ init test step body =>
    .word "for" :: .punct "(" :: loopInitPieces init ++ .punct ";" :: optionPieces test ++
      .punct ";" :: optionPieces step ++ .punct ")" :: stmtPieces body
  | .func _ name fn => .word "function" :: .word name :: funcPieces fn
  | .ite _ test yes none => .word "if" :: headPieces test ++ stmtPieces yes
  | .ite _ test yes (some no) =>
    .word "if" :: headPieces test ++
      (if yes.endsWithOpenIf then bracedPieces (stmtPieces yes) else stmtPieces yes) ++
      .word "else" :: stmtPieces no
  | .label _ name body => .word name :: .punct ":" :: stmtPieces body
  | .ret _ value => .word "return" :: optionPieces value ++ [.punct ";"]
  | .switch _ subject branches =>
    .word "switch" :: headPieces subject ++ bracedPieces (branchesPieces branches)
  | .throw _ value => [.word "throw", .phrase false value, .punct ";"]
  | .tryCatch _ body handler final =>
    .word "try" :: blockPieces body ++ handlerPieces handler ++ finalPieces final
  | .var _ decl => declPieces false decl ++ [.punct ";"]
  | .whileLoop _ test body => .word "while" :: headPieces test ++ stmtPieces body
  | .withObject _ object body => .word "with" :: headPieces object ++ stmtPieces body

/-- The pieces of a function from its parameters on. -/
def funcPieces : Func → List Piece
  | .mk _ params body =>
    .punct "(" :: paramsPieces params ++ .punct ")" :: bracedPieces (stmtsPieces body)

/-- The pieces of the branches of a `switch`. -/
def branchesPieces : List Branch → List Piece
  | [] => []
  | .mk _ none body :: rest =>
    .word "default" :: .punct ":" :: stmtsPieces body ++ branchesPieces rest
  | .mk _ (some test) body :: rest =>
    .word "case" :: .phrase false test :: .punct ":" :: stmtsPieces body ++ branchesPieces rest

/-- The pieces of a block of a `try` statement. -/
def blockPieces : Block → List Piece
  | .mk _ body => bracedPieces (stmtsPieces body)

/-- The pieces of the `catch` part of a `try` statement. -/
def handlerPieces : Option Handler → List Piece
  | none => []
  | some (.mk _ none body) => .word "catch" :: bracedPieces (stmtsPieces body)
  | some (.mk _ (some param) body) =>
    .word "catch" :: .punct "(" :: .word param :: .punct ")" :: bracedPieces (stmtsPieces body)

/-- The pieces of the `finally` part of a `try` statement. -/
def finalPieces : Option Block → List Piece
  | none => []
  | some block => .word "finally" :: blockPieces block

/-- The pieces of a list of statements. -/
def stmtsPieces : List Stmt → List Piece
  | [] => []
  | s :: rest => stmtPieces s ++ stmtsPieces rest

end

/-! ## Pieces and tokens -/

/-- The tokens that pieces stand for: a terminal is any token that is read as it, and an expression is
its printed tokens. -/
inductive Spelled : List Piece → List Token → Prop
  | nil : Spelled [] []
  | terminal {t : Token} {u : Terminal} {ps : List Piece} {ts : List Token}
    (read : terminal? t = some u) (rest : Spelled ps ts) : Spelled (.terminal u :: ps) (t :: ts)
  | phrase {parens : Bool} {e : Expr} {ps : List Piece} {ts : List Token} (rest : Spelled ps ts) :
    Spelled (.phrase parens e :: ps) (phraseTokens parens e ++ ts)

namespace Spelled

variable {ps qs : List Piece} {ts us : List Token}

/-- Pieces are spelled one after the other. -/
theorem append (first : Spelled ps ts) (second : Spelled qs us) : Spelled (ps ++ qs) (ts ++ us) := by
  induction first with
  | nil => exact second
  | terminal read _ ih => exact .terminal read ih
  | phrase _ ih =>
    rw [List.cons_append, List.append_assoc]
    exact .phrase ih

theorem word (text : String) (rest : Spelled ps ts) : Spelled (.word text :: ps) (.word text :: ts) :=
  .terminal rfl rest

/-- A name is spelled as a name token, though to the grammar it is a word like any other. -/
theorem name (text : String) (rest : Spelled ps ts) : Spelled (.word text :: ps) (.name text :: ts) :=
  .terminal rfl rest

theorem punct (text : String) (rest : Spelled ps ts) :
    Spelled (.punct text :: ps) (.punct text :: ts) :=
  .terminal rfl rest

/-- A printed expression is one piece. -/
theorem bare (e : Expr) (rest : Spelled ps ts) :
    Spelled (.phrase false e :: ps) (e.tokens ++ ts) :=
  .phrase rest

/-- An operand is one piece, with the parentheses that it needs. -/
theorem fitted (least : Nat) (e : Expr) : Spelled [fitted least e] (e.fit least e.tokens) := by
  have single := @Spelled.phrase (e.level < least) e [] [] .nil
  simpa [phraseTokens, Expr.fit, Grammar.fitted] using single

theorem braced (inner : Spelled ps ts) : Spelled (bracedPieces ps) (inBraces ts) :=
  .punct _ (inner.append (.punct _ .nil))

/-- The condition in the head of a statement stands in parentheses of the statement. -/
theorem head (e : Expr) : Spelled (headPieces e) (inParens e.tokens) :=
  .punct _ (.bare e (.punct _ .nil))

end Spelled

theorem spelled_declarator (inHead : Bool) (d : Declarator) (rest : List Declarator) :
    ∃ ts, declaratorTokens inHead (d :: rest) = ts :: declaratorTokens inHead rest ∧
      Spelled (declaratorPieces inHead d) ts := by
  obtain ⟨name, init⟩ := d
  cases init with
  | none => exact ⟨_, rfl, .name name .nil⟩
  | some init =>
    refine ⟨_, rfl, .name name (.punct "=" ?_)⟩
    split
    · simpa [phraseTokens] using @Spelled.phrase true init [] [] .nil
    · exact .fitted assignmentLevel init

/-- The names of a declaration are spelled with commas between them. -/
theorem spelled_declarators (inHead : Bool) (ds : List Declarator) :
    Spelled (declaratorsPieces inHead ds) (commaJoined (declaratorTokens inHead ds)) := by
  induction ds with
  | nil => exact .nil
  | cons d rest ih =>
    obtain ⟨ts, shape, first⟩ := spelled_declarator inHead d rest
    rw [shape]
    cases rest with
    | nil => exact first
    | cons next more =>
      obtain ⟨us, shape, -⟩ := spelled_declarator inHead next more
      rw [shape] at ih ⊢
      exact first.append (.punct "," ih)

/-- A declaration is spelled by its keyword and its names. -/
theorem spelled_decl (inHead : Bool) (decl : VarDecl) :
    Spelled (declPieces inHead decl) (decl.tokens inHead) := by
  obtain ⟨span, mode, declarators⟩ := decl
  exact .word _ (spelled_declarators inHead declarators)

theorem spelled_option (e : Option Expr) : Spelled (optionPieces e) (optionTokens e) := by
  cases e with
  | none => exact .nil
  | some e => simpa [optionPieces, optionTokens] using Spelled.bare e .nil

/-- What a counting loop starts from is spelled as it is printed, in parentheses if the printer puts
some. -/
theorem spelled_loopInit (init : Option LoopHead) :
    Spelled (loopInitPieces init) (loopInitTokens init) := by
  cases init with
  | none => exact .nil
  | some head =>
    cases head with
    | decl decl => exact spelled_decl true decl
    | expr e =>
      have single := @Spelled.phrase (e.hasIn || e.startsLikeStmt) e [] [] .nil
      simpa [phraseTokens, loopInitTokens, loopInitPieces] using single

/-- So is the target of a loop over keys. -/
theorem spelled_target (head : LoopHead) : Spelled (targetPieces head) head.targetTokens := by
  cases head with
  | decl decl => exact spelled_decl true decl
  | expr e => exact .fitted targetLevel e

/-- The parameters of a function are spelled with commas between them. -/
theorem spelled_params : (params : List Param) →
    Spelled (paramsPieces params) (commaJoined (params.map fun p => [.name p.name]))
  | [] => .nil
  | [p] => .name p.name .nil
  | p :: q :: rest => .name p.name (.punct "," (spelled_params (q :: rest)))

/-- A jump is spelled by its keyword, its label and a semicolon. -/
theorem spelled_jump (word : String) (label : Option String) :
    Spelled (.word word :: label.toList.map Piece.word ++ [.punct ";"]) (jumpTokens word label) := by
  cases label with
  | none => exact .word _ (.punct _ .nil)
  | some name => exact .word _ (.name _ (.punct _ .nil))

mutual

/-- The pieces of a statement stand for its tokens. -/
theorem spelled_stmt : (s : Stmt) → Spelled (stmtPieces s) s.tokens
  | .block _ body => (spelled_stmts body).braced
  | .breakTo _ label => spelled_jump "break" label
  | .continueTo _ label => spelled_jump "continue" label
  | .debugger _ => .word _ (.punct _ .nil)
  | .doWhile _ body test => by
    have ending : Spelled (.word "while" :: headPieces test ++ [.punct ";"])
        (.word "while" :: inParens test.tokens ++ [.punct ";"]) :=
      .word _ ((Spelled.head test).append (.punct _ .nil))
    simpa [stmtPieces, Stmt.tokens] using Spelled.word "do" ((spelled_stmt body).append ending)
  | .empty _ => .punct _ .nil
  | .expr _ e => .phrase (.punct _ .nil)
  | .forIn _ target object body => by
    have inner := (spelled_target target).append
      (.word "in" (.bare object (.punct ")" (spelled_stmt body))))
    simpa [stmtPieces, Stmt.tokens, inParens] using Spelled.word "for" (.punct "(" inner)
  | .forLoop _ init test step body => by
    have last := (spelled_option step).append (.punct ")" (spelled_stmt body))
    have second := (spelled_option test).append (.punct ";" last)
    have inner := (spelled_loopInit init).append (.punct ";" second)
    simpa [stmtPieces, Stmt.tokens, inParens] using Spelled.word "for" (.punct "(" inner)
  | .func _ name fn => .word _ (.name _ (spelled_func fn))
  | .ite _ test yes none => .word _ ((Spelled.head test).append (spelled_stmt yes))
  | .ite _ test yes (some no) => by
    have branch : Spelled
        (if yes.endsWithOpenIf then bracedPieces (stmtPieces yes) else stmtPieces yes)
        (if yes.endsWithOpenIf then inBraces yes.tokens else yes.tokens) := by
      split
      · exact (spelled_stmt yes).braced
      · exact spelled_stmt yes
    have other := branch.append (.word "else" (spelled_stmt no))
    simpa [stmtPieces, Stmt.tokens] using Spelled.word "if" ((Spelled.head test).append other)
  | .label _ name body => .name _ (.punct _ (spelled_stmt body))
  | .ret _ value => .word _ ((spelled_option value).append (.punct _ .nil))
  | .switch _ subject branches =>
    .word _ ((Spelled.head subject).append (spelled_branches branches).braced)
  | .throw _ value => .word _ (.bare value (.punct _ .nil))
  | .tryCatch _ (.mk _ body) handler final => by
    have parts := ((spelled_stmts body).braced.append (spelled_handler handler)).append
      (spelled_final final)
    simpa [stmtPieces, Stmt.tokens, blockPieces] using Spelled.word "try" parts
  | .var _ decl => (spelled_decl false decl).append (.punct _ .nil)
  | .whileLoop _ test body => .word _ ((Spelled.head test).append (spelled_stmt body))
  | .withObject _ object body => .word _ ((Spelled.head object).append (spelled_stmt body))

/-- The pieces of a function spell the tokens that are printed of it. -/
theorem spelled_func : (fn : Func) → Spelled (funcPieces fn) fn.tokens
  | .mk _ params body => by
    have inner := (spelled_params params).append (.punct ")" (spelled_stmts body).braced)
    simpa [funcPieces, Func.tokens, inParens] using Spelled.punct "(" inner

/-- The pieces of the branches of a `switch` spell theirs. -/
theorem spelled_branches : (branches : List Branch) →
    Spelled (branchesPieces branches) (branchesTokens branches)
  | [] => .nil
  | .mk _ none body :: rest =>
    .word _ (.punct _ ((spelled_stmts body).append (spelled_branches rest)))
  | .mk _ (some test) body :: rest => by
    have inner := (spelled_stmts body).append (spelled_branches rest)
    simpa [branchesPieces, branchesTokens] using Spelled.word "case" (.bare test (.punct ":" inner))

theorem spelled_handler : (handler : Option Handler) →
    Spelled (handlerPieces handler) (handlerTokens handler)
  | none => .nil
  | some (.mk _ none body) => .word _ (spelled_stmts body).braced
  | some (.mk _ (some _) body) =>
    .word _ (.punct _ (.name _ (.punct _ (spelled_stmts body).braced)))

theorem spelled_final : (final : Option Block) → Spelled (finalPieces final) (finalTokens final)
  | none => .nil
  | some (.mk _ body) => .word _ (spelled_stmts body).braced

/-- The pieces of a list of statements spell the tokens that are printed of it. -/
theorem spelled_stmts : (stmts : List Stmt) → Spelled (stmtsPieces stmts) (stmtsTokens stmts)
  | [] => .nil
  | s :: rest => (spelled_stmt s).append (spelled_stmts rest)

end

end Grammar

end Minifier
