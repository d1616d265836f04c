import Minifier.Proofs.Grammar.Grammatical
import Minifier.Proofs.Grammar.Printing

/-!
# Printed statements are read back

The pieces of statements are read as the statements they come from, and in no other way. Reading goes
along the syntax of what was printed: the first pieces of a statement decide which production it comes
from, and what follows a statement decides where a list of statements ends.
-/

namespace Minifier.Grammar

/-! ## Where statements begin and end -/

/-- Whether a statement can begin with a piece. -/
def isStart : Piece → Bool
  | .terminal (.word text) => !(["else", "finally", "case", "default"].contains text)
  | .terminal (.punct text) => text != "\x7d"
  | _ => true

/-- A name that may be referred to can begin a statement. -/
theorem isStart_of_isReference {name : String} (isName : isReference name = true) :
    isStart (.word name) = true := by
  have other : reservedWords.contains name = false := by
    simp only [isReference, Bool.and_eq_true, Bool.not_eq_true'] at isName
    exact isName.1
  simp only [isStart, Bool.not_eq_true', List.contains_eq_mem, decide_eq_false_iff_not] at other ⊢
  intro mem
  exact other (List.Subset.trans (by decide) (List.Subset.refl reservedWords) mem)

/-- So can the keyword of a declaration. -/
theorem isStart_keyword (mode : DeclMode) : isStart (.word mode.keyword) = true := by
  cases mode <;> decide

/-- A declaration begins like a statement. -/
theorem isStart_of_parsesDecl {inHead : Bool} {p : Piece} {ps rest : List Piece} {decl : VarDecl}
    (declares : ParsesDecl inHead (p :: ps) decl rest) : isStart p = true := by
  cases declares with
  | decl mode => exact isStart_keyword mode

/-- A statement begins with a piece that it can begin with. -/
theorem isStart_of_parsesStmt {p : Piece} {ps rest : List Piece} {s : Stmt}
    (parses : ParsesStmt (p :: ps) s rest) : isStart p = true := by
  cases parses with
  | label isName | labelledFunc isName => exact isStart_of_isReference isName
  | var _ declares => exact isStart_of_parsesDecl declares
  | expr => rfl
  | _ => decide

/-- What is read as a statement begins with a piece that can begin one. -/
theorem isStart_of_parsesItem {p : Piece} {ps rest : List Piece} {s : Stmt}
    (parses : ParsesItem (p :: ps) s rest) : isStart p = true := by
  cases parses with
  | stmt inner => exact isStart_of_parsesStmt inner
  | func => decide
  | lexical _ declares => exact isStart_of_parsesDecl declares

/-- The pieces of a statement are not empty, and begin with one that can begin a statement. -/
theorem exists_start {s : Stmt} (fine : s.isWellFormed = true) :
    ∃ p more, stmtPieces s = p :: more ∧ isStart p = true := by
  cases s with
  | var outer decl =>
    obtain ⟨span, mode, declarators⟩ := decl
    exact ⟨_, _, rfl, isStart_keyword mode⟩
  | label pl name body =>
    have isName : Text.isPlainName name = true := by
      simp only [Stmt.isWellFormed, Bool.and_eq_true] at fine
      exact fine.1
    exact ⟨_, _, rfl, isStart_of_isReference (isReference_of_isPlainName isName)⟩
  | ite pl test yes no => cases no <;> exact ⟨_, _, rfl, by decide⟩
  | expr pl e => exact ⟨_, _, rfl, rfl⟩
  | tryCatch pl body handler final => exact ⟨_, _, rfl, by decide⟩
  | _ => exact ⟨_, _, rfl, by decide⟩

/-- A piece that begins no statement does not come first in a list of statements, unless the list is
empty. -/
theorem stmtsPieces_head {body : List Stmt} (fine : stmtsWellFormed body = true) {rest : List Piece}
    {p : Piece} (other : isStart p = false) (after : rest.head? ≠ some p) :
    (stmtsPieces body ++ rest).head? ≠ some p := by
  cases body with
  | nil => exact after
  | cons s more =>
    simp only [stmtsWellFormed, Bool.and_eq_true] at fine
    obtain ⟨q, others, shape, start⟩ := exists_start fine.1
    simp only [stmtsPieces, shape, List.cons_append, List.head?_cons]
    rintro ⟨⟩
    exact absurd start (by simp [other])

/-! ## Every printed statement is read -/

/-- An expression without `in` is printed without a bare one. -/
theorem not_hasBareIn_of_hasIn {e : Expr} (free : e.hasIn = false) (parens : Bool) :
    ¬HasBareIn (phraseTokens parens e) := by
  cases parens with
  | true => exact not_hasBareIn_parens (balanced_expr e)
  | false =>
    intro bare
    have mark := (mark_of_hasBareIn e bare).1
    simp [Expr.hasIn, mark] at free

/-- What can be assigned to is printed without a bare `in`. -/
theorem not_hasBareIn_of_isTarget {e : Expr} (target : e.isTarget = true) (parens : Bool) :
    ¬HasBareIn (phraseTokens parens e) := by
  cases parens with
  | true => exact not_hasBareIn_parens (balanced_expr e)
  | false =>
    intro bare
    have low := (mark_of_hasBareIn e bare).2
    have high := isTarget_level target
    exact absurd (Nat.le_trans high low) (by decide)

/-- An initial value binds tightly enough, or it stands in parentheses. -/
theorem parens_of_isSequence {e : Expr} (several : isSequence e = true) :
    decide (e.level < assignmentLevel) = true := by
  unfold isSequence at several
  split at several
  · rfl
  · cases several

/-- A name with its initial value is read back as it was printed. -/
theorem parses_declarator {inHead : Bool} {name : String} (init : Option Expr)
    (isName : Text.isPlainName name = true) (rest : List Piece) :
    ParsesDeclarator inHead (declaratorPieces inHead (.mk name init) ++ rest) (.mk name init) rest := by
  have isName := isReference_of_isPlainName isName
  cases init with
  | none => exact .bare isName
  | some init =>
    simp only [declaratorPieces]
    split
    next _ =>
      exact .withValue isName (fun _ => rfl) fun _ => not_hasBareIn_parens (balanced_expr init)
    next free =>
      refine .withValue isName parens_of_isSequence fun inside => not_hasBareIn_of_hasIn ?_ _
      simpa [inside] using free

/-- The names of a declaration are read back. -/
theorem parses_declarators (inHead : Bool) : (ds : List Declarator) → ds ≠ [] →
    (ds.all fun | .mk name _ => Text.isPlainName name) = true → (rest : List Piece) →
    ParsesDeclarators inHead (declaratorsPieces inHead ds ++ rest) ds rest
  | [.mk name init], _, fine, rest => by
    simp only [List.all_cons, List.all_nil, Bool.and_true] at fine
    exact .last (parses_declarator init fine rest)
  | .mk name init :: next :: more, _, fine, rest => by
    rw [List.all_cons, Bool.and_eq_true] at fine
    have others := parses_declarators inHead (next :: more) (List.cons_ne_nil _ _) fine.2 rest
    rw [declaratorsPieces, List.append_assoc]
    · exact .more (parses_declarator init fine.1 _) others
    · simp

/-- A declaration is read back, but for its spans. -/
theorem parses_decl {inHead : Bool} {decl : VarDecl} (fine : decl.isWellFormed = true)
    (rest : List Piece) : ParsesDecl inHead (declPieces inHead decl ++ rest) decl.written rest := by
  obtain ⟨span, mode, declarators⟩ := decl
  simp only [VarDecl.isWellFormed, Bool.and_eq_true, Bool.not_eq_true', List.isEmpty_eq_false_iff]
    at fine
  exact .decl mode (parses_declarators inHead declarators fine.1 fine.2 rest)

/-- An expression that may be absent is read back. -/
theorem parses_option (e : Option Expr) (rest : List Piece) :
    ParsesOption (optionPieces e ++ rest) e rest := by
  cases e with
  | none => exact .absent
  | some e => exact .present

/-- What a counting loop starts from is read back. -/
theorem parses_loopInit {init : Option LoopHead} (fine : init.all LoopHead.isWellFormed = true)
    (rest : List Piece) :
    ParsesLoopInit (loopInitPieces init ++ rest) (init.map LoopHead.written) rest := by
  cases init with
  | none => exact .absent
  | some head =>
    cases head with
    | decl d => exact .decl (parses_decl fine rest)
    | expr e =>
      refine .expr ?_
      cases inside : e.hasIn with
      | true => exact not_hasBareIn_parens (balanced_expr e)
      | false => exact not_hasBareIn_of_hasIn inside _

/-- The target of a loop over keys is read back if only a `var` has an initial value there. -/
theorem parses_target {head : LoopHead} (fine : head.isTarget = true) (bare : head.isBare = true)
    (rest : List Piece) : ParsesTarget (targetPieces head ++ rest) head.written rest := by
  match head, fine with
  | .decl (.mk _ mode [.mk name init]), fine =>
    refine .decl mode (parses_declarator init fine rest) fun other => ?_
    simpa [LoopHead.isBare, other] using bare
  | .expr e, fine => exact .expr fine (not_hasBareIn_of_isTarget fine _)

/-- Parameters are read back, but for their spans. -/
theorem parses_params : (params : List Param) → params ≠ [] →
    (params.all fun p => Text.isPlainName p.name) = true → (rest : List Piece) →
    ParsesParams (paramsPieces params ++ .punct ")" :: rest)
      (params.map fun p => ⟨default, p.name⟩) rest
  | [p], _, fine, rest => by
    simp only [List.all_cons, List.all_nil, Bool.and_true] at fine
    exact .last (isReference_of_isPlainName fine)
  | p :: next :: more, _, fine, rest => by
    rw [List.all_cons, Bool.and_eq_true] at fine
    exact .more (isReference_of_isPlainName fine.1)
      (parses_params (next :: more) (List.cons_ne_nil _ _) fine.2 rest)

/-- What stands in a list is a statement, unless it is a declaration. -/
theorem ParsesItem.toStmt {s : Stmt} {ps rest : List Piece} (item : ParsesItem ps s.written rest)
    (plain : s.isScoped = false) : ParsesStmt ps s.written rest := by
  rw [← isScoped_written] at plain
  generalize s.written = tree at item plain
  cases item with
  | stmt inner => exact inner
  | func => cases plain
  | lexical isLexical => simp [Stmt.isScoped, isLexical] at plain

/-- What stands in a list can have a label, unless it declares with `let` or `const`. -/
theorem ParsesItem.labelled {s : Stmt} {name : String} {ps rest : List Piece}
    (item : ParsesItem ps s.written rest) (plain : s.isLexical = false)
    (isName : isReference name = true) :
    ParsesStmt (.word name :: .punct ":" :: ps) (.label default name s.written) rest := by
  rw [← isLexical_written] at plain
  generalize s.written = tree at item plain
  cases item with
  | stmt inner => exact .label isName inner
  | func isFuncName inner => exact .labelledFunc isName isFuncName inner
  | lexical isLexical => simp [Stmt.isLexical, isLexical] at plain

/-- A declaration is read back as a statement. -/
theorem parses_var {decl : VarDecl} (fine : decl.isWellFormed = true) (rest : List Piece) :
    ParsesItem (declPieces false decl ++ .punct ";" :: rest) (.var default decl.written) rest := by
  have declares : ParsesDecl false _ _ _ := parses_decl fine (.punct ";" :: rest)
  by_cases isVar : decl.written.mode = .var
  · exact .stmt (.var isVar declares)
  · exact .lexical isVar declares

mutual

/-- A printed statement is read as what is written of it, unless an `else` behind it would be taken for
its own. -/
theorem parses_item : (s : Stmt) → s.isWellFormed = true → s.isGrammatical = true →
    (rest : List Piece) → (s.endsWithOpenIf = true → rest.head? ≠ some (.word "else")) →
    ParsesItem (stmtPieces s ++ rest) s.written rest
  | .block _ body, fine, gram, rest, _ => by
    have inner := parses_stmts body fine gram (.punct "\x7d" :: rest) (by simp)
    simpa [stmtPieces, bracedPieces, Stmt.written] using ParsesItem.stmt (.block inner)
  | .breakTo _ none, _, _, rest, _ => .stmt .breakOut
  | .breakTo _ (some name), fine, _, rest, _ => .stmt (.breakTo (isReference_of_isPlainName fine))
  | .continueTo _ none, _, _, rest, _ => .stmt .continueNext
  | .continueTo _ (some name), fine, _, rest, _ =>
    .stmt (.continueTo (isReference_of_isPlainName fine))
  | .debugger _, _, _, rest, _ => .stmt .debugger
  | .doWhile _ body test, fine, gram, rest, _ => by
    simp only [Stmt.isGrammatical, Bool.and_eq_true, Bool.not_eq_true'] at gram
    have inner := parses_item body fine gram.2
      (.word "while" :: .punct "(" :: .phrase false test :: .punct ")" :: .punct ";" :: rest)
      fun _ => by simp
    simpa [stmtPieces, headPieces, Stmt.written] using
      ParsesItem.stmt (.doWhile (inner.toStmt gram.1))
  | .empty _, _, _, rest, _ => .stmt .empty
  | .expr _ e, _, _, rest, _ => by
    refine .stmt (.expr ?_)
    cases starts : e.startsLikeStmt with
    | true => rfl
    | false => exact opensStmt_tokens e starts
  | .forIn _ target object body, fine, gram, rest, after => by
    simp only [Stmt.isWellFormed, Bool.and_eq_true] at fine
    simp only [Stmt.isGrammatical, Bool.and_eq_true, Bool.not_eq_true'] at gram
    have head := parses_target fine.1 gram.1.1
      (.word "in" :: .phrase false object :: .punct ")" :: (stmtPieces body ++ rest))
    have inner := (parses_item body fine.2 gram.2 rest after).toStmt gram.1.2
    simpa [stmtPieces, Stmt.written] using ParsesItem.stmt (.forIn head inner)
  | .forLoop _ init test step body, fine, gram, rest, after => by
    simp only [Stmt.isWellFormed, Bool.and_eq_true] at fine
    simp only [Stmt.isGrammatical, Bool.and_eq_true, Bool.not_eq_true'] at gram
    have third := parses_option step (.punct ")" :: (stmtPieces body ++ rest))
    have second := parses_option test (.punct ";" :: (optionPieces step ++
      .punct ")" :: (stmtPieces body ++ rest)))
    have first := parses_loopInit fine.1 (.punct ";" :: (optionPieces test ++
      .punct ";" :: (optionPieces step ++ .punct ")" :: (stmtPieces body ++ rest))))
    have inner := (parses_item body fine.2 gram.2 rest after).toStmt gram.1
    simpa [stmtPieces, Stmt.written] using ParsesItem.stmt (.forLoop first second third inner)
  | .func _ name fn, fine, gram, rest, _ => by
    simp only [Stmt.isWellFormed, Bool.and_eq_true] at fine
    exact .func (isReference_of_isPlainName fine.1) (parses_func fn fine.2 gram rest)
  | .ite _ test yes none, fine, gram, rest, after => by
    simp only [Stmt.isGrammatical, Bool.and_eq_true, Bool.not_eq_true'] at gram
    have noElse := after rfl
    have first := (parses_item yes fine gram.2 rest fun _ => noElse).toStmt gram.1
    exact .stmt (.ifOnly first noElse)
  | .ite _ test yes (some no), fine, gram, rest, after => by
    simp only [Stmt.isWellFormed, Bool.and_eq_true] at fine
    simp only [Stmt.isGrammatical, Bool.and_eq_true, Bool.not_eq_true'] at gram
    obtain ⟨⟨⟨plainYes, gramYes⟩, plainNo⟩, gramNo⟩ := gram
    have second := (parses_item no fine.2 gramNo rest after).toStmt plainNo
    cases opened : yes.endsWithOpenIf with
    | false =>
      have first := (parses_item yes fine.1 gramYes (.word "else" :: (stmtPieces no ++ rest))
        (by simp [opened])).toStmt plainYes
      simpa [stmtPieces, headPieces, Stmt.written, opened] using
        ParsesItem.stmt (.ifElse first second)
    | true =>
      have inner := parses_item yes fine.1 gramYes
        (.punct "\x7d" :: .word "else" :: (stmtPieces no ++ rest)) fun _ => by simp
      have first := ParsesStmt.block (.cons inner .nil)
      simpa [stmtPieces, headPieces, bracedPieces, Stmt.written, opened] using
        ParsesItem.stmt (.ifElse first second)
  | .label _ name body, fine, gram, rest, after => by
    simp only [Stmt.isWellFormed, Bool.and_eq_true] at fine
    simp only [Stmt.isGrammatical, Bool.and_eq_true, Bool.not_eq_true'] at gram
    have inner := parses_item body fine.2 gram.2 rest after
    exact .stmt (inner.labelled gram.1 (isReference_of_isPlainName fine.1))
  | .ret _ value, _, _, rest, _ => by
    have result := parses_option value (.punct ";" :: rest)
    simpa [stmtPieces, Stmt.written] using ParsesItem.stmt (.ret result)
  | .switch _ subject branches, fine, gram, rest, _ => by
    simp only [Stmt.isGrammatical, Bool.and_eq_true, decide_eq_true_eq] at gram
    have inner := parses_branches branches fine gram.2 gram.1 (.punct "\x7d" :: rest) (by simp)
    simpa [stmtPieces, headPieces, bracedPieces, Stmt.written] using
      ParsesItem.stmt (.switch inner)
  | .throw _ value, _, _, rest, _ => .stmt .throw
  | .tryCatch _ body none none, fine, _, rest, _ => by
    simp [Stmt.isWellFormed] at fine
  | .tryCatch _ body (some handler) none, fine, gram, rest, _ => by
    simp only [Stmt.isWellFormed, Bool.and_eq_true] at fine
    simp only [Stmt.isGrammatical, Bool.and_eq_true] at gram
    obtain ⟨⟨⟨-, fineBody⟩, fineHandler⟩, -⟩ := fine
    obtain ⟨tree, written, second⟩ := parses_handler handler fineHandler gram.1.2 rest
    have inner := parses_block body fineBody gram.1.1 (handlerPieces (some handler) ++ rest)
    simpa [stmtPieces, finalPieces, Stmt.written, writtenFinal, written] using
      ParsesItem.stmt (.tryCatch inner second)
  | .tryCatch _ body none (some final), fine, gram, rest, _ => by
    simp only [Stmt.isWellFormed, Bool.and_eq_true] at fine
    simp only [Stmt.isGrammatical, Bool.and_eq_true] at gram
    obtain ⟨⟨⟨-, fineBody⟩, -⟩, fineFinal⟩ := fine
    have last := parses_block final fineFinal gram.2 rest
    have inner := parses_block body fineBody gram.1.1 (.word "finally" :: (blockPieces final ++ rest))
    simpa [stmtPieces, handlerPieces, finalPieces, Stmt.written, writtenHandler, writtenFinal] using
      ParsesItem.stmt (.tryFinally inner last)
  | .tryCatch _ body (some handler) (some final), fine, gram, rest, _ => by
    simp only [Stmt.isWellFormed, Bool.and_eq_true] at fine
    simp only [Stmt.isGrammatical, Bool.and_eq_true] at gram
    obtain ⟨⟨⟨-, fineBody⟩, fineHandler⟩, fineFinal⟩ := fine
    have last := parses_block final fineFinal gram.2 rest
    obtain ⟨tree, written, second⟩ :=
      parses_handler handler fineHandler gram.1.2 (.word "finally" :: (blockPieces final ++ rest))
    have inner := parses_block body fineBody gram.1.1
      (handlerPieces (some handler) ++ .word "finally" :: (blockPieces final ++ rest))
    simpa [stmtPieces, finalPieces, Stmt.written, writtenFinal, written] using
      ParsesItem.stmt (.tryCatchFinally inner second last)
  | .var _ decl, fine, _, rest, _ => by
    simpa [stmtPieces, Stmt.written] using parses_var fine rest
  | .whileLoop _ test body, fine, gram, rest, after => by
    simp only [Stmt.isGrammatical, Bool.and_eq_true, Bool.not_eq_true'] at gram
    exact .stmt (.whileLoop ((parses_item body fine gram.2 rest after).toStmt gram.1))
  | .withObject _ object body, fine, gram, rest, after => by
    simp only [Stmt.isGrammatical, Bool.and_eq_true, Bool.not_eq_true'] at gram
    exact .stmt (.withObject ((parses_item body fine gram.2 rest after).toStmt gram.1))

/-- A function is read back from its pieces. -/
theorem parses_func : (fn : Func) → fn.isWellFormed = true → fn.isGrammatical = true →
    (rest : List Piece) → ParsesFunc (funcPieces fn ++ rest) fn.written rest
  | .mk _ params body, fine, gram, rest => by
    simp only [Func.isWellFormed, Bool.and_eq_true] at fine
    have inner := parses_stmts body fine.2 gram (.punct "\x7d" :: rest) (by simp)
    cases params with
    | nil => simpa [funcPieces, paramsPieces, bracedPieces, Func.written] using ParsesFunc.noParams inner
    | cons p more =>
      have names := parses_params (p :: more) (List.cons_ne_nil _ _) fine.1
        (.punct "\x7b" :: (stmtsPieces body ++ .punct "\x7d" :: rest))
      simpa [funcPieces, bracedPieces, Func.written] using ParsesFunc.withParams names inner

/-- The branches of a `switch` are read back if there are not too many defaults among them. -/
theorem parses_branches : (branches : List Branch) → branchesWellFormed branches = true →
    branchesGrammatical branches = true → {defaults : Nat} →
    branches.countP Branch.isDefault ≤ defaults → (rest : List Piece) →
    rest.head? ≠ some (.word "else") →
    ParsesBranches defaults (branchesPieces branches ++ rest) (writtenBranches branches) rest
  | [], _, _, _, _, rest, _ => .nil
  | .mk _ test body :: more, fine, gram, defaults, few, rest, after => by
    simp only [branchesWellFormed, Bool.and_eq_true] at fine
    simp only [branchesGrammatical, Bool.and_eq_true] at gram
    have inner := parses_stmts body fine.1 gram.1 (branchesPieces more ++ rest) (by
      match more with
      | [] => exact after
      | .mk _ none _ :: _ | .mk _ (some _) _ :: _ => simp [branchesPieces])
    cases test with
    | none =>
      rw [List.countP_cons_of_pos rfl] at few
      obtain ⟨less, rfl⟩ : ∃ less, defaults = less + 1 := ⟨defaults - 1, by omega⟩
      have others := parses_branches more fine.2 gram.2 (Nat.le_of_succ_le_succ few) rest after
      simpa [branchesPieces, writtenBranches] using ParsesBranches.default inner others
    | some test =>
      rw [List.countP_cons_of_neg (by simp [Branch.isDefault])] at few
      have others := parses_branches more fine.2 gram.2 few rest after
      simpa [branchesPieces, writtenBranches] using ParsesBranches.case inner others

/-- A block is read back from its pieces. -/
theorem parses_block : (block : Block) → block.isWellFormed = true → block.isGrammatical = true →
    (rest : List Piece) → ParsesBlock (blockPieces block ++ rest) block.written rest
  | .mk _ body, fine, gram, rest => by
    have inner := parses_stmts body fine gram (.punct "\x7d" :: rest) (by simp)
    simpa [blockPieces, bracedPieces, Block.written] using ParsesBlock.mk inner

/-- A `catch` part is read back from its pieces. -/
theorem parses_handler : (handler : Handler) → handlerWellFormed (some handler) = true →
    handlerGrammatical (some handler) = true → (rest : List Piece) →
    ∃ tree, writtenHandler (some handler) = some tree ∧
      ParsesHandler (handlerPieces (some handler) ++ rest) tree rest
  | .mk _ param body, fine, gram, rest => by
    simp only [handlerWellFormed, Bool.and_eq_true] at fine
    have inner := parses_stmts body fine.2 gram (.punct "\x7d" :: rest) (by simp)
    refine ⟨_, rfl, ?_⟩
    cases param with
    | none => simpa [handlerPieces, bracedPieces] using ParsesHandler.noParam inner
    | some name =>
      have isName := isReference_of_isPlainName fine.1
      simpa [handlerPieces, bracedPieces] using ParsesHandler.withParam isName inner

/-- A printed list of statements is read back, if no `else` comes behind it. -/
theorem parses_stmts : (body : List Stmt) → stmtsWellFormed body = true →
    stmtsGrammatical body = true → (rest : List Piece) → rest.head? ≠ some (.word "else") →
    ParsesStmts (stmtsPieces body ++ rest) (writtenStmts body) rest
  | [], _, _, rest, _ => .nil
  | s :: more, fine, gram, rest, after => by
    simp only [stmtsWellFormed, Bool.and_eq_true] at fine
    simp only [stmtsGrammatical, Bool.and_eq_true] at gram
    have others := parses_stmts more fine.2 gram.2 rest after
    have first := parses_item s fine.1 gram.1 (stmtsPieces more ++ rest) fun _ =>
      stmtsPieces_head fine.2 (by decide) after
    simpa [stmtsPieces, writtenStmts] using ParsesStmts.cons first others

end

end Minifier.Grammar
