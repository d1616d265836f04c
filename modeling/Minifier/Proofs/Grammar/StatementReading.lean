import Minifier.Proofs.Grammar.StatementPrinting

/-!
# Printed statements are read in one way

What the pieces of statements are read as is what is written of these statements. The first pieces
leave one production each, an `if` with and one without `else` apart, and likewise a `try`: there what
follows the statement decides.
-/

namespace Minifier.Grammar

variable {rest rest' : List Piece}

/-! ## Declarations -/

/-- What can stand behind a declaration. -/
def Ends (rest : List Piece) : Prop :=
  rest.head? = some (.punct ";") ∨ rest.head? = some (.word "in")

/-- Behind a declaration there is no punctuator but the semicolon. -/
theorem Ends.head_ne (ends : Ends rest) {text : String} (other : text ≠ ";") :
    rest.head? ≠ some (.punct text) := by
  obtain head | head := ends
  · simpa [head] using other.symm
  · simp [head]

/-- No declaration ends where another begins. -/
theorem not_ends_keyword (mode : DeclMode) (ps : List Piece) : ¬Ends (.word mode.keyword :: ps) := by
  cases mode <;> simp [Ends, DeclMode.keyword]

/-- A declared name is read in one way, its initial value included. -/
theorem declarator_unique {inHead : Bool} {d d' : Declarator} (after : rest.head? ≠ some (.punct "="))
    (after' : rest'.head? ≠ some (.punct "="))
    (parses : ParsesDeclarator inHead (declaratorPieces inHead d ++ rest) d' rest') :
    d' = d ∧ rest' = rest := by
  obtain ⟨name, init⟩ := d
  cases init with
  | none =>
    generalize shape : declaratorPieces inHead (.mk name none) ++ rest = input at parses
    cases parses with
    | bare isName =>
      cases shape
      exact ⟨rfl, rfl⟩
    | withValue isName single noIn =>
      cases shape
      simp at after
  | some init =>
    generalize shape : declaratorPieces inHead (.mk name (some init)) ++ rest = input at parses
    cases parses with
    | bare isName =>
      cases shape
      simp at after'
    | withValue isName single noIn =>
      simp only [declaratorPieces, fitted] at shape
      split at shape <;> (cases shape; exact ⟨rfl, rfl⟩)

/-- So is a list of them: every name but the last is followed by a comma. -/
theorem declarators_unique {inHead : Bool} (after : Ends rest) (after' : Ends rest') :
    {ds ds' : List Declarator} → ds ≠ [] →
    ParsesDeclarators inHead (declaratorsPieces inHead ds ++ rest) ds' rest' →
    ds' = ds ∧ rest' = rest
  | [d], _, _, parses => by
    cases parses with
    | last single =>
      obtain ⟨rfl, rfl⟩ :=
        declarator_unique (after.head_ne (by decide)) (after'.head_ne (by decide)) single
      exact ⟨rfl, rfl⟩
    | more first others =>
      obtain ⟨-, rfl⟩ := declarator_unique (after.head_ne (by decide)) (by simp) first
      exact absurd rfl (after.head_ne (by decide))
  | d :: next :: more, _, _, parses => by
    rw [declaratorsPieces, List.append_assoc] at parses
    · cases parses with
      | last single =>
        obtain ⟨-, rfl⟩ := declarator_unique (by simp) (after'.head_ne (by decide)) single
        exact absurd rfl (after'.head_ne (by decide))
      | more first others =>
        obtain ⟨rfl, shape⟩ := declarator_unique (by simp) (by simp) first
        cases shape
        obtain ⟨rfl, rfl⟩ := declarators_unique after after' (List.cons_ne_nil _ _) others
        exact ⟨rfl, rfl⟩
    · simp

/-- The keyword of a declaration tells its mode. -/
theorem keyword_injective {mode mode' : DeclMode} (same : mode.keyword = mode'.keyword) :
    mode = mode' := by
  cases mode <;> cases mode' <;> simp_all [DeclMode.keyword]

/-- A declaration is read in one way, up to what ends it. -/
theorem decl_unique {inHead : Bool} {decl decl' : VarDecl} (fine : decl.isWellFormed = true)
    (after : Ends rest) (after' : Ends rest')
    (parses : ParsesDecl inHead (declPieces inHead decl ++ rest) decl' rest') :
    decl' = decl.written ∧ rest' = rest := by
  obtain ⟨span, mode, declarators⟩ := decl
  simp only [VarDecl.isWellFormed, Bool.and_eq_true, Bool.not_eq_true', List.isEmpty_eq_false_iff]
    at fine
  generalize shape : declPieces inHead (.mk span mode declarators) ++ rest = input at parses
  cases parses with
  | decl mode' names =>
    simp only [declPieces, List.cons_append, List.cons.injEq, Piece.terminal.injEq,
      Terminal.word.injEq] at shape
    obtain ⟨same, rfl⟩ := shape
    obtain rfl := keyword_injective same
    obtain ⟨rfl, rfl⟩ := declarators_unique after after' fine.1 names
    exact ⟨rfl, rfl⟩

/-- A declaration begins with its word and the first name. -/
theorem exists_decl_start (inHead : Bool) {decl : VarDecl} (fine : decl.isWellFormed = true) :
    ∃ mode name more, declPieces inHead decl = .word (DeclMode.keyword mode) :: .word name :: more := by
  match decl, fine with
  | .mk _ mode [.mk name none], _ => exact ⟨mode, name, _, rfl⟩
  | .mk _ mode [.mk name (some _)], _ => exact ⟨mode, name, _, rfl⟩
  | .mk _ mode (.mk name none :: _ :: _), _ => exact ⟨mode, name, _, rfl⟩
  | .mk _ mode (.mk name (some _) :: _ :: _), _ => exact ⟨mode, name, _, rfl⟩

/-! ## Heads of loops -/

/-- A target is also what a counting loop can start from. So one reading of both is enough. -/
theorem ParsesTarget.loopInit {ps : List Piece} {target : LoopHead}
    (parses : ParsesTarget ps target rest) : ParsesLoopInit ps (some target) rest := by
  cases parses with
  | decl mode declares bare => exact .decl (.decl mode (.last declares))
  | expr target noIn => exact .expr noIn

/-- A head that begins with a declaration is read as that declaration. -/
theorem loopInit_decl_unique {decl : VarDecl} {init' : Option LoopHead}
    (fine : decl.isWellFormed = true) (after : Ends rest) (after' : Ends rest')
    (parses : ParsesLoopInit (declPieces true decl ++ rest) init' rest') :
    init' = some (.decl decl.written) ∧ rest' = rest := by
  obtain ⟨mode, name, more, start⟩ := exists_decl_start true fine
  generalize shape : declPieces true decl ++ rest = input at parses
  cases parses with
  | absent =>
    subst shape
    rw [start] at after'
    exact absurd after' (not_ends_keyword mode _)
  | decl declares =>
    subst shape
    obtain ⟨rfl, rfl⟩ := decl_unique fine after after' declares
    exact ⟨rfl, rfl⟩
  | expr noIn =>
    rw [start] at shape
    simp at shape

/-- A head that begins with an expression is read as that expression. -/
theorem loopInit_expr_unique {parens : Bool} {e : Expr} {init' : Option LoopHead} (after' : Ends rest')
    (parses : ParsesLoopInit (.phrase parens e :: rest) init' rest') :
    init' = some (.expr e) ∧ rest' = rest := by
  cases parses with
  | absent => simp [Ends] at after'
  | decl declares => cases declares
  | expr noIn => exact ⟨rfl, rfl⟩

/-- What a counting loop starts from is read in one way. -/
theorem loopInit_unique {init init' : Option LoopHead} (fine : init.all LoopHead.isWellFormed = true)
    (after : Ends rest) (after' : Ends rest')
    (parses : ParsesLoopInit (loopInitPieces init ++ rest) init' rest') :
    init' = init.map LoopHead.written ∧ rest' = rest := by
  match init, fine with
  | some (.decl d), fine => exact loopInit_decl_unique fine after after' parses
  | some (.expr e), _ => exact loopInit_expr_unique after' parses
  | none, _ =>
    cases parses with
    | absent => exact ⟨rfl, rfl⟩
    | decl declares =>
      cases declares with
      | decl mode => exact absurd after (not_ends_keyword mode _)
    | expr noIn => simp [Ends] at after

/-- So is the target of a loop over keys. -/
theorem target_unique {head : LoopHead} {init' : Option LoopHead} (fine : head.isTarget = true)
    (after : Ends rest) (after' : Ends rest')
    (parses : ParsesLoopInit (targetPieces head ++ rest) init' rest') :
    init' = some head.written ∧ rest' = rest := by
  match head, fine with
  | .decl (.mk span mode [.mk name init]), fine =>
    refine loopInit_decl_unique ?_ after after' parses
    simpa [VarDecl.isWellFormed, LoopHead.isTarget] using fine
  | .expr e, _ => exact loopInit_expr_unique after' parses

/-! ## What the first word decides -/

/-- An expression in parentheses at the beginning. -/
def InHead (ps : List Piece) (e : Expr) (qs : List Piece) : Prop :=
  ∃ parens, ps = .punct "(" :: .phrase parens e :: .punct ")" :: qs

/-- A label in front of something, or a declaration. -/
def LabelOrDecl (text : String) (ps : List Piece) (tree : Stmt) (rest : List Piece) : Prop :=
  (∃ body qs, isReference text = true ∧ ps = .punct ":" :: qs ∧ tree = .label default text body ∧
    ParsesItem qs body rest) ∨
  ∃ decl, tree = .var default decl ∧ ParsesDecl false (.word text :: ps) decl (.punct ";" :: rest)

/-- What the rest of a statement or a declaration and its tree are like behind its first word. -/
def Continues (ps : List Piece) (tree : Stmt) (rest : List Piece) : String → Prop
  | "break" => ∃ label : Option String,
    ps = label.toList.map Piece.word ++ .punct ";" :: rest ∧ tree = .breakTo default label
  | "continue" => ∃ label : Option String,
    ps = label.toList.map Piece.word ++ .punct ";" :: rest ∧ tree = .continueTo default label
  | "debugger" => ps = .punct ";" :: rest ∧ tree = .debugger default
  | "do" => ∃ body test qs, tree = .doWhile default body test ∧
    ParsesStmt ps body (.word "while" :: qs) ∧ InHead qs test (.punct ";" :: rest)
  | "for" => ∃ qs body us, ps = .punct "(" :: qs ∧ ParsesStmt us body rest ∧
    ((∃ target parens object, tree = .forIn default target object body ∧
        ParsesTarget qs target (.word "in" :: .phrase parens object :: .punct ")" :: us)) ∨
      ∃ init test step vs ws, tree = .forLoop default init test step body ∧
        ParsesLoopInit qs init (.punct ";" :: vs) ∧ ParsesOption vs test (.punct ";" :: ws) ∧
        ParsesOption ws step (.punct ")" :: us))
  | "function" => ∃ name fn qs, ps = .word name :: qs ∧ tree = .func default name fn ∧
    ParsesFunc qs fn rest
  | "if" => ∃ test yes qs, InHead ps test qs ∧
    ((∃ no us, tree = .ite default test yes (some no) ∧ ParsesStmt qs yes (.word "else" :: us) ∧
        ParsesStmt us no rest) ∨
      tree = .ite default test yes none ∧ ParsesStmt qs yes rest ∧
        rest.head? ≠ some (.word "else"))
  | "return" => ∃ value, tree = .ret default value ∧ ParsesOption ps value (.punct ";" :: rest)
  | "switch" => ∃ subject branches qs, InHead ps subject (.punct "\x7b" :: qs) ∧
    tree = .switch default subject branches ∧ ParsesBranches 1 qs branches (.punct "\x7d" :: rest)
  | "throw" => ∃ parens value, ps = .phrase parens value :: .punct ";" :: rest ∧
    tree = .throw default value
  | "try" => ∃ body qs, ParsesBlock ps body qs ∧
    ((∃ handler, ParsesHandler qs handler rest ∧
        tree = .tryCatch default body (some handler) none) ∨
      (∃ final us, qs = .word "finally" :: us ∧ ParsesBlock us final rest ∧
        tree = .tryCatch default body none (some final)) ∨
      ∃ handler final us, ParsesHandler qs handler (.word "finally" :: us) ∧
        ParsesBlock us final rest ∧ tree = .tryCatch default body (some handler) (some final))
  | "while" => ∃ test body qs, InHead ps test qs ∧ tree = .whileLoop default test body ∧
    ParsesStmt qs body rest
  | "with" => ∃ object body qs, InHead ps object qs ∧ tree = .withObject default object body ∧
    ParsesStmt qs body rest
  | text => LabelOrDecl text ps tree rest

section

variable {ps : List Piece} {tree : Stmt} {text : String}

/-- A name at the beginning is a label, or the beginning of a declaration. -/
theorem continues_of_isReference (isName : isReference text = true) :
    Continues ps tree rest text ↔ LabelOrDecl text ps tree rest := by
  unfold Continues
  split
  case h_14 => exact Iff.rfl
  all_goals exact absurd isName (by decide)

/-- So is the keyword of a declaration. -/
theorem continues_keyword (mode : DeclMode) :
    Continues ps tree rest mode.keyword ↔ LabelOrDecl mode.keyword ps tree rest := by
  cases mode <;> exact Iff.rfl

theorem ParsesDecl.continues {decl : VarDecl}
    (declares : ParsesDecl false (.word text :: ps) decl (.punct ";" :: rest)) :
    Continues ps (.var default decl) rest text := by
  cases declares with
  | decl mode names => exact (continues_keyword mode).mpr (.inr ⟨_, rfl, .decl mode names⟩)

/-- The first word of a statement decides how it continues. -/
theorem ParsesStmt.continues (parses : ParsesStmt (.word text :: ps) tree rest) :
    Continues ps tree rest text := by
  cases parses with
  | breakOut => exact ⟨none, rfl, rfl⟩
  | breakTo => exact ⟨some _, rfl, rfl⟩
  | continueNext => exact ⟨none, rfl, rfl⟩
  | continueTo => exact ⟨some _, rfl, rfl⟩
  | debugger => exact ⟨rfl, rfl⟩
  | doWhile inner => exact ⟨_, _, _, rfl, inner, _, rfl⟩
  | forIn head inner => exact ⟨_, _, _, rfl, inner, .inl ⟨_, _, _, rfl, head⟩⟩
  | forLoop first second third inner =>
    exact ⟨_, _, _, rfl, inner, .inr ⟨_, _, _, _, _, rfl, first, second, third⟩⟩
  | ifElse first second => exact ⟨_, _, _, ⟨_, rfl⟩, .inl ⟨_, _, rfl, first, second⟩⟩
  | ifOnly first noElse => exact ⟨_, _, _, ⟨_, rfl⟩, .inr ⟨rfl, first, noElse⟩⟩
  | label isName inner =>
    exact (continues_of_isReference isName).mpr (.inl ⟨_, _, isName, rfl, rfl, .stmt inner⟩)
  | labelledFunc isLabel isName inner =>
    exact (continues_of_isReference isLabel).mpr (.inl ⟨_, _, isLabel, rfl, rfl, .func isName inner⟩)
  | ret result => exact ⟨_, rfl, result⟩
  | switch inner => exact ⟨_, _, _, ⟨_, rfl⟩, rfl, inner⟩
  | throw => exact ⟨_, _, rfl, rfl⟩
  | tryCatch inner second => exact ⟨_, _, inner, .inl ⟨_, second, rfl⟩⟩
  | tryFinally inner last => exact ⟨_, _, inner, .inr (.inl ⟨_, _, rfl, last, rfl⟩)⟩
  | tryCatchFinally inner second last =>
    exact ⟨_, _, inner, .inr (.inr ⟨_, _, _, second, last, rfl⟩)⟩
  | var _ declares => exact declares.continues
  | whileLoop inner => exact ⟨_, _, _, ⟨_, rfl⟩, rfl, inner⟩
  | withObject inner => exact ⟨_, _, _, ⟨_, rfl⟩, rfl, inner⟩

/-- The first word of what stands in a list decides how it continues. -/
theorem ParsesItem.continues (parses : ParsesItem (.word text :: ps) tree rest) :
    Continues ps tree rest text := by
  cases parses with
  | stmt inner => exact inner.continues
  | func isName inner => exact ⟨_, _, _, rfl, rfl, inner⟩
  | lexical _ declares => exact declares.continues

/-- A declaration begins with a word, so anything else begins a statement. -/
theorem ParsesItem.of_punct {text : String} (parses : ParsesItem (.punct text :: ps) tree rest) :
    ParsesStmt (.punct text :: ps) tree rest := by
  cases parses with
  | stmt inner => exact inner
  | lexical _ declares => cases declares

/-- What begins with a brace is a block. -/
theorem ParsesItem.after_brace (parses : ParsesItem (.punct "\x7b" :: ps) tree rest) :
    ∃ body, tree = .block default body ∧ ParsesStmts ps body (.punct "\x7d" :: rest) := by
  have parses := parses.of_punct
  generalize shape : (Piece.punct "\x7b" :: ps) = input at parses
  cases parses with
  | block inner =>
    cases shape
    exact ⟨_, rfl, inner⟩
  | empty => simp at shape
  | var _ declares =>
    subst shape
    cases declares
  | _ => cases shape

/-- What begins with a semicolon is an empty statement, and ends there. -/
theorem ParsesItem.after_semicolon (parses : ParsesItem (.punct ";" :: ps) tree rest) :
    tree = .empty default ∧ rest = ps := by
  have parses := parses.of_punct
  generalize shape : (Piece.punct ";" :: ps) = input at parses
  cases parses with
  | empty =>
    cases shape
    exact ⟨rfl, rfl⟩
  | block inner => simp at shape
  | var _ declares =>
    subst shape
    cases declares
  | _ => cases shape

/-- Behind the first word of a declaration there is a name. -/
theorem ParsesDecl.second {inHead : Bool} {decl : VarDecl}
    (declares : ParsesDecl inHead (.word text :: ps) decl rest) :
    ∃ name qs, ps = .word name :: qs := by
  cases declares with
  | decl mode names =>
    cases names with
    | last first => cases first <;> exact ⟨_, _, rfl⟩
    | more first => cases first <;> exact ⟨_, _, rfl⟩

/-- The `catch` part of a `try` statement begins with its keyword. -/
theorem ParsesHandler.head {handler : Handler} (parses : ParsesHandler ps handler rest) :
    ps.head? = some (.word "catch") := by
  cases parses <;> rfl

theorem handlerPieces_head (handler : Handler) (qs : List Piece) :
    (handlerPieces (some handler) ++ qs).head? = some (.word "catch") := by
  obtain ⟨span, param, body⟩ := handler
  cases param <;> rfl

end

/-! ## Parts of statements -/

/-- An expression that may be absent is there if it is read as being there. -/
theorem option_unique {e e' : Option Expr} {text text' : String}
    (parses : ParsesOption (optionPieces e ++ .punct text :: rest) e' (.punct text' :: rest')) :
    e' = e ∧ rest' = rest := by
  cases e with
  | none =>
    cases parses with
    | absent => exact ⟨rfl, rfl⟩
  | some e =>
    cases parses with
    | present => exact ⟨rfl, rfl⟩

/-- The label of a jump stands right before the semicolon, or there is none. -/
theorem jump_unique {label label' : Option String}
    (shape : label.toList.map Piece.word ++ [.punct ";"] ++ rest =
      label'.toList.map Piece.word ++ .punct ";" :: rest') : label' = label ∧ rest' = rest := by
  cases label <;> cases label' <;> cases shape <;> exact ⟨rfl, rfl⟩

/-- Parameters are read in one way: every name but the last is followed by a comma. -/
theorem params_unique : {params params' : List Param} → params ≠ [] →
    ParsesParams (paramsPieces params ++ .punct ")" :: rest) params' rest' →
    params' = params.map (fun p => ⟨default, p.name⟩) ∧ rest' = rest
  | [p], _, _, parses => by
    generalize shape : paramsPieces [p] ++ .punct ")" :: rest = input at parses
    cases parses with
    | last isName =>
      cases shape
      exact ⟨rfl, rfl⟩
    | more isName others => simp [paramsPieces] at shape
  | p :: next :: more, _, _, parses => by
    generalize shape : paramsPieces (p :: next :: more) ++ .punct ")" :: rest = input at parses
    cases parses with
    | last isName => simp [paramsPieces] at shape
    | more isName others =>
      cases shape
      obtain ⟨rfl, rfl⟩ := params_unique (List.cons_ne_nil _ _) others
      exact ⟨rfl, rfl⟩

/-! ## Lists of statements -/

/-- Where a list of statements stops: at the end, at a closing brace, or at the next branch. -/
def Stops (rest : List Piece) : Prop :=
  ∀ p, rest.head? = some p →
    p = .punct "\x7d" ∨ p = .word "case" ∨ p = .word "default"

@[simp] theorem stops_nil : Stops [] := by
  simp [Stops]

@[simp] theorem stops_brace : Stops (.punct "\x7d" :: rest) := by
  simp [Stops]

/-- No statement begins where a list stops. -/
theorem Stops.isStart_eq_false {p : Piece} {ps : List Piece} (stops : Stops (p :: ps)) :
    isStart p = false := by
  obtain rfl | rfl | rfl := stops p rfl <;> decide

/-- A list does not stop at `finally`, so a `try` statement in it is read with all of its parts. -/
theorem Stops.not_finally (stops : Stops rest) : rest.head? ≠ some (.word "finally") := by
  intro head
  simpa using stops _ head

/-- A list does not stop at `else`, so an `if` in it is read with all of its parts. -/
theorem Stops.not_else (stops : Stops rest) : rest.head? ≠ some (.word "else") := by
  intro head
  simpa using stops _ head

/-- No list of statements begins with `finally`. -/
theorem not_finally_of_parsesStmts {ps : List Piece} {trees : List Stmt}
    (parses : ParsesStmts ps trees rest) (stops : Stops rest) :
    ps.head? ≠ some (.word "finally") := by
  cases parses with
  | nil => exact stops.not_finally
  | cons first others =>
    intro head
    obtain ⟨qs, rfl⟩ : ∃ qs, ps = .word "finally" :: qs := by
      cases ps with
      | nil => simp at head
      | cons p qs => exact ⟨qs, by simpa using head⟩
    exact absurd (isStart_of_parsesItem first) (by decide)

/-- Where a list stops there are no more statements to be read. -/
theorem stmts_nil_unique {trees : List Stmt} (stops : Stops rest)
    (parses : ParsesStmts rest trees rest') : trees = [] ∧ rest' = rest := by
  cases parses with
  | nil => exact ⟨rfl, rfl⟩
  | cons first others =>
    cases rest with
    | nil => cases first with
      | stmt inner => cases inner with | var _ declares => cases declares
      | lexical _ declares => cases declares
    | cons p ps => exact absurd (isStart_of_parsesItem first) (by simp [stops.isStart_eq_false])

/-- Reading a list of statements goes on behind its first one. -/
theorem stmts_cons_unique {s : Stmt} {qs : List Piece} {trees : List Stmt}
    (fine : s.isWellFormed = true) (stops : Stops rest')
    (first : ∀ {tree us}, us.head? ≠ some (.word "finally") →
      ParsesItem (stmtPieces s ++ qs) tree us → tree = s.written ∧ us = qs)
    (parses : ParsesStmts (stmtPieces s ++ qs) trees rest') :
    ∃ more, trees = s.written :: more ∧ ParsesStmts qs more rest' := by
  generalize shape : stmtPieces s ++ qs = input at parses
  cases parses with
  | nil =>
    obtain ⟨p, more, start, isStart⟩ := exists_start fine
    rw [start, List.cons_append] at shape
    subst shape
    exact absurd isStart (by simp [stops.isStart_eq_false])
  | cons single others =>
    subst shape
    obtain ⟨rfl, rfl⟩ := first (not_finally_of_parsesStmts others stops) single
    exact ⟨_, rfl, others⟩

/-- A statement in braces is read as a block of it. -/
theorem braced_unique {s tree : Stmt} (fine : s.isWellFormed = true)
    (single : ∀ {tree us}, us.head? ≠ some (.word "finally") →
      ParsesItem (stmtPieces s ++ .punct "\x7d" :: rest) tree us →
      tree = s.written ∧ us = .punct "\x7d" :: rest)
    (parses : ParsesItem (bracedPieces (stmtPieces s) ++ rest) tree rest') :
    tree = .block default [s.written] ∧ rest' = rest := by
  simp only [bracedPieces, List.cons_append, List.append_assoc, List.nil_append] at parses
  obtain ⟨body, rfl, inner⟩ := parses.after_brace
  obtain ⟨more, rfl, others⟩ := stmts_cons_unique fine stops_brace single inner
  obtain ⟨rfl, same⟩ := stmts_nil_unique stops_brace others
  cases same
  exact ⟨rfl, rfl⟩

/-- What stands in front of an `else` is read up to it, with or without braces. -/
theorem branch_unique {s tree : Stmt} {qs : List Piece} (fine : s.isWellFormed = true)
    (single : ∀ {tree us vs}, (s.endsWithOpenIf = true → us.head? ≠ some (.word "else")) →
      us.head? ≠ some (.word "finally") → vs.head? ≠ some (.word "finally") →
      ParsesItem (stmtPieces s ++ us) tree vs → tree = s.written ∧ vs = us)
    (notFinally : rest'.head? ≠ some (.word "finally"))
    (parses : ParsesItem ((if s.endsWithOpenIf then bracedPieces (stmtPieces s) else stmtPieces s) ++
      .word "else" :: qs) tree rest') :
    tree = (if s.endsWithOpenIf then .block default [s.written] else s.written) ∧
      rest' = .word "else" :: qs := by
  cases opened : s.endsWithOpenIf with
  | false =>
    simp only [opened] at parses
    exact single (by simp [opened]) (by simp) notFinally parses
  | true =>
    simp only [opened, if_true] at parses
    exact braced_unique fine (single (by simp) (by simp)) parses

/-- A list stops at the next branch of a `switch`, or where the branches end. -/
theorem stops_branches (branches : List Branch) (stops : Stops rest) :
    Stops (branchesPieces branches ++ rest) := by
  cases branches with
  | nil => exact stops
  | cons branch others =>
    obtain ⟨_, test, _⟩ := branch
    cases test <;> simp [Stops, branchesPieces]

/-- Whatever is read as branches begins where a list can stop. -/
theorem stops_of_parsesBranches {defaults : Nat} {ps : List Piece} {trees : List Branch}
    (parses : ParsesBranches defaults ps trees rest) (stops : Stops rest) : Stops ps := by
  cases parses with
  | nil => exact stops
  | case | default => simp [Stops]

/-! ## Statements -/

mutual

/-- A printed statement is read as what is written of it, and nothing behind it is read with it. -/
theorem stmt_unique : (s : Stmt) → s.isWellFormed = true → {tree : Stmt} → {rest rest' : List Piece} →
    (s.endsWithOpenIf = true → rest.head? ≠ some (.word "else")) →
    rest.head? ≠ some (.word "finally") → rest'.head? ≠ some (.word "finally") →
    ParsesItem (stmtPieces s ++ rest) tree rest' → tree = s.written ∧ rest' = rest
  | .block _ body, fine, _, _, _, _, _, _, parses => by
    simp only [stmtPieces, bracedPieces, List.cons_append, List.append_assoc,
      List.nil_append] at parses
    obtain ⟨body', rfl, inner⟩ := parses.after_brace
    obtain ⟨rfl, same⟩ := stmts_unique body fine stops_brace stops_brace inner
    cases same
    exact ⟨rfl, rfl⟩
  | .breakTo _ label, _, _, _, _, _, _, _, parses => by
    obtain ⟨label', shape, rfl⟩ := parses.continues
    obtain ⟨rfl, rfl⟩ := jump_unique shape
    exact ⟨rfl, rfl⟩
  | .continueTo _ label, _, _, _, _, _, _, _, parses => by
    obtain ⟨label', shape, rfl⟩ := parses.continues
    obtain ⟨rfl, rfl⟩ := jump_unique shape
    exact ⟨rfl, rfl⟩
  | .debugger _, _, _, _, _, _, _, _, parses => by
    obtain ⟨shape, rfl⟩ := parses.continues
    cases shape
    exact ⟨rfl, rfl⟩
  | .doWhile _ body test, fine, _, _, _, _, _, _, parses => by
    simp only [stmtPieces, headPieces, List.cons_append, List.append_assoc,
      List.nil_append] at parses
    obtain ⟨body', test', _, rfl, inner, parens, rfl⟩ := parses.continues
    obtain ⟨rfl, same⟩ := stmt_unique body fine (by simp) (by simp) (by simp) (.stmt inner)
    cases same
    exact ⟨rfl, rfl⟩
  | .empty _, _, _, _, _, _, _, _, parses => parses.after_semicolon
  | .expr _ e, _, _, _, _, _, _, _, parses => by
    cases parses with
    | stmt inner =>
      cases inner with
      | expr apart => exact ⟨rfl, rfl⟩
      | var _ declares => cases declares
    | lexical _ declares => cases declares
  | .forIn _ target object body, fine, _, _, _, after, notFinally, notFinally', parses => by
    simp only [Stmt.isWellFormed, Bool.and_eq_true] at fine
    simp only [stmtPieces, List.cons_append, List.append_assoc] at parses
    obtain ⟨us, body', vs, shape, inner, head | head⟩ := parses.continues <;> cases shape
    · obtain ⟨target', parens, object', rfl, head⟩ := head
      obtain ⟨known, same⟩ := target_unique fine.1 (.inr rfl) (.inr rfl) head.loopInit
      cases known
      cases same
      obtain ⟨rfl, rfl⟩ := stmt_unique body fine.2 after notFinally notFinally' (.stmt inner)
      exact ⟨rfl, rfl⟩
    · -- A semicolon would have to stand where `in` does.
      obtain ⟨init, test, step, ws, xs, rfl, first, -⟩ := head
      obtain ⟨-, same⟩ := target_unique fine.1 (.inr rfl) (.inl rfl) first
      simp at same
  | .forLoop _ init test step body, fine, _, _, _, after, notFinally, notFinally', parses => by
    simp only [Stmt.isWellFormed, Bool.and_eq_true] at fine
    simp only [stmtPieces, List.cons_append, List.append_assoc] at parses
    obtain ⟨us, body', vs, shape, inner, head | head⟩ := parses.continues <;> cases shape
    · obtain ⟨target, parens, object, rfl, head⟩ := head
      obtain ⟨-, same⟩ := loopInit_unique fine.1 (.inl rfl) (.inr rfl) head.loopInit
      simp at same
    · obtain ⟨init', test', step', ws, xs, rfl, first, second, third⟩ := head
      obtain ⟨rfl, same⟩ := loopInit_unique fine.1 (.inl rfl) (.inl rfl) first
      cases same
      obtain ⟨rfl, rfl⟩ := option_unique second
      obtain ⟨rfl, rfl⟩ := option_unique third
      obtain ⟨rfl, rfl⟩ := stmt_unique body fine.2 after notFinally notFinally' (.stmt inner)
      exact ⟨rfl, rfl⟩
  | .func _ name fn, fine, _, _, _, _, _, _, parses => by
    simp only [Stmt.isWellFormed, Bool.and_eq_true] at fine
    obtain ⟨name', fn', us, shape, rfl, inner⟩ := parses.continues
    cases shape
    obtain ⟨rfl, rfl⟩ := func_unique fn fine.2 inner
    exact ⟨rfl, rfl⟩
  | .ite _ test yes none, fine, _, _, _, after, notFinally, notFinally', parses => by
    obtain ⟨test', yes', us, ⟨parens, shape⟩, branches⟩ := parses.continues
    cases shape
    obtain ⟨no, vs, rfl, first, second⟩ | ⟨rfl, first, noElse⟩ := branches
    · -- The `else` would stand behind the whole statement.
      obtain ⟨-, rfl⟩ := stmt_unique yes fine (fun _ => after rfl) notFinally (by simp) (.stmt first)
      exact absurd rfl (after rfl)
    · obtain ⟨rfl, rfl⟩ := stmt_unique yes fine (fun _ => after rfl) notFinally notFinally' (.stmt first)
      exact ⟨rfl, rfl⟩
  | .ite _ test yes (some no), fine, _, _, _, after, notFinally, notFinally', parses => by
    simp only [Stmt.isWellFormed, Bool.and_eq_true] at fine
    simp only [stmtPieces, headPieces, List.cons_append, List.append_assoc,
      List.nil_append] at parses
    obtain ⟨test', yes', us, ⟨parens, shape⟩, branches⟩ := parses.continues
    cases shape
    obtain ⟨no', vs, rfl, first, second⟩ | ⟨rfl, first, noElse⟩ := branches
    · obtain ⟨rfl, same⟩ := branch_unique fine.1 (stmt_unique yes fine.1) (by simp) (.stmt first)
      cases same
      obtain ⟨rfl, rfl⟩ := stmt_unique no fine.2 after notFinally notFinally' (.stmt second)
      exact ⟨rfl, rfl⟩
    · obtain ⟨-, rfl⟩ := branch_unique fine.1 (stmt_unique yes fine.1) notFinally' (.stmt first)
      simp at noElse
  | .label _ name body, fine, _, _, _, after, notFinally, notFinally', parses => by
    simp only [Stmt.isWellFormed, Bool.and_eq_true] at fine
    have isName := isReference_of_isPlainName fine.1
    obtain ⟨body', us, -, shape, rfl, inner⟩ | ⟨decl, rfl, declares⟩ :=
      (continues_of_isReference isName).mp parses.continues
    · cases shape
      obtain ⟨rfl, rfl⟩ := stmt_unique body fine.2 after notFinally notFinally' inner
      exact ⟨rfl, rfl⟩
    · obtain ⟨next, us, shape⟩ := declares.second
      simp at shape
  | .ret _ value, _, _, _, _, _, _, _, parses => by
    simp only [stmtPieces, List.cons_append, List.append_assoc, List.nil_append] at parses
    obtain ⟨value', rfl, result⟩ := parses.continues
    obtain ⟨rfl, rfl⟩ := option_unique result
    exact ⟨rfl, rfl⟩
  | .switch _ subject branches, fine, _, _, _, _, _, _, parses => by
    simp only [stmtPieces, headPieces, bracedPieces, List.cons_append, List.append_assoc,
      List.nil_append] at parses
    obtain ⟨subject', branches', us, ⟨parens, shape⟩, rfl, inner⟩ := parses.continues
    cases shape
    obtain ⟨rfl, rfl⟩ := branches_unique branches fine inner
    exact ⟨rfl, rfl⟩
  | .throw _ value, _, _, _, _, _, _, _, parses => by
    obtain ⟨parens, value', shape, rfl⟩ := parses.continues
    cases shape
    exact ⟨rfl, rfl⟩
  | .tryCatch _ body handler final, fine, _, rest, _, _, notFinally, notFinally', parses => by
    simp only [Stmt.isWellFormed, Bool.and_eq_true] at fine
    obtain ⟨⟨⟨nonempty, fineBody⟩, fineHandler⟩, fineFinal⟩ := fine
    simp only [stmtPieces, List.cons_append, List.append_assoc] at parses
    obtain ⟨body', us, inner, parts⟩ := parses.continues
    obtain ⟨rfl, rfl⟩ := block_unique body fineBody inner
    cases handler with
    | none =>
      match final with
      | none => simp at nonempty
      | some final =>
        obtain ⟨caught, second, rfl⟩ | ⟨final', vs, shape, last, rfl⟩ |
          ⟨caught, final', vs, second, last, rfl⟩ := parts
        · exact absurd second.head (by simp [handlerPieces, finalPieces])
        · cases shape
          obtain ⟨rfl, rfl⟩ := block_unique final fineFinal last
          exact ⟨rfl, rfl⟩
        · exact absurd second.head (by simp [handlerPieces, finalPieces])
    | some handler =>
      obtain ⟨caught, second, rfl⟩ | ⟨final', vs, shape, last, rfl⟩ |
        ⟨caught, final', vs, second, last, rfl⟩ := parts
      · obtain ⟨known, rfl⟩ := handler_unique handler fineHandler second
        cases final with
        | none => exact ⟨by simp [Stmt.written, writtenFinal, known], rfl⟩
        | some final => simp [finalPieces] at notFinally'
      · have start := handlerPieces_head handler (finalPieces final ++ rest)
        simp [shape] at start
      · obtain ⟨known, shape⟩ := handler_unique handler fineHandler second
        match final, fineFinal with
        | none, _ =>
          subst shape
          simp at notFinally
        | some final, fineFinal =>
          cases shape
          obtain ⟨rfl, rfl⟩ := block_unique final fineFinal last
          exact ⟨by simp [Stmt.written, writtenFinal, known], rfl⟩
  | .var _ decl, fine, _, _, _, _, _, _, parses => by
    obtain ⟨mode, name, more, start⟩ := exists_decl_start false fine
    simp only [stmtPieces, List.append_assoc, List.cons_append, List.nil_append] at parses
    have known := parses
    rw [start, List.cons_append, List.cons_append] at known
    obtain ⟨body, us, -, shape, -⟩ | ⟨decl', rfl, declares⟩ :=
      (continues_keyword mode).mp known.continues
    · simp at shape
    · rw [← List.cons_append, ← List.cons_append, ← start] at declares
      obtain ⟨rfl, same⟩ := decl_unique fine (.inl rfl) (.inl rfl) declares
      cases same
      exact ⟨rfl, rfl⟩
  | .whileLoop _ test body, fine, _, _, _, after, notFinally, notFinally', parses => by
    obtain ⟨test', body', us, ⟨parens, shape⟩, rfl, inner⟩ := parses.continues
    cases shape
    obtain ⟨rfl, rfl⟩ := stmt_unique body fine after notFinally notFinally' (.stmt inner)
    exact ⟨rfl, rfl⟩
  | .withObject _ object body, fine, _, _, _, after, notFinally, notFinally', parses => by
    obtain ⟨object', body', us, ⟨parens, shape⟩, rfl, inner⟩ := parses.continues
    cases shape
    obtain ⟨rfl, rfl⟩ := stmt_unique body fine after notFinally notFinally' (.stmt inner)
    exact ⟨rfl, rfl⟩
termination_by structural s => s

/-- A function is read in one way, from its parameters to the brace that closes its body. -/
theorem func_unique : (fn : Func) → fn.isWellFormed = true → {tree : Func} →
    {rest rest' : List Piece} → ParsesFunc (funcPieces fn ++ rest) tree rest' →
    tree = fn.written ∧ rest' = rest
  | .mk _ [] body, fine, _, _, _, parses => by
    simp only [Func.isWellFormed, Bool.and_eq_true] at fine
    simp only [funcPieces, paramsPieces, bracedPieces, List.cons_append, List.append_assoc,
      List.nil_append] at parses
    generalize shape : (Piece.punct "(" :: _) = input at parses
    cases parses with
    | noParams inner =>
      cases shape
      obtain ⟨rfl, same⟩ := stmts_unique body fine.2 stops_brace stops_brace inner
      cases same
      exact ⟨rfl, rfl⟩
    | withParams names =>
      cases shape
      cases names
  | .mk _ (p :: more) body, fine, _, _, _, parses => by
    simp only [Func.isWellFormed, Bool.and_eq_true] at fine
    simp only [funcPieces, bracedPieces, List.cons_append, List.append_assoc,
      List.nil_append] at parses
    generalize shape : (Piece.punct "(" :: _) = input at parses
    cases parses with
    | noParams => cases more <;> simp [paramsPieces] at shape
    | withParams names inner =>
      cases shape
      obtain ⟨rfl, same⟩ := params_unique (List.cons_ne_nil _ _) names
      cases same
      obtain ⟨rfl, same⟩ := stmts_unique body fine.2 stops_brace stops_brace inner
      cases same
      exact ⟨rfl, rfl⟩
termination_by structural fn => fn

/-- The branches of a `switch` are read in one way, up to the brace that ends them. -/
theorem branches_unique : (branches : List Branch) → branchesWellFormed branches = true →
    {defaults : Nat} → {trees : List Branch} → {rest rest' : List Piece} →
    ParsesBranches defaults (branchesPieces branches ++ .punct "\x7d" :: rest) trees
      (.punct "\x7d" :: rest') →
    trees = writtenBranches branches ∧ rest' = rest
  | [], _, _, _, _, _, parses => by
    cases parses with
    | nil => exact ⟨rfl, rfl⟩
  | .mk _ none body :: more, fine, _, _, _, _, parses => by
    simp only [branchesWellFormed, Bool.and_eq_true] at fine
    simp only [branchesPieces, List.cons_append, List.append_assoc] at parses
    generalize shape : (Piece.word "default" :: _) = input at parses
    cases parses with
    | default inner others =>
      cases shape
      obtain ⟨rfl, rfl⟩ := stmts_unique body fine.1 (stops_branches more stops_brace)
        (stops_of_parsesBranches others stops_brace) inner
      obtain ⟨rfl, rfl⟩ := branches_unique more fine.2 others
      exact ⟨rfl, rfl⟩
    | _ => simp at shape
  | .mk _ (some test) body :: more, fine, _, _, _, _, parses => by
    simp only [branchesWellFormed, Bool.and_eq_true] at fine
    simp only [branchesPieces, List.cons_append, List.append_assoc] at parses
    generalize shape : (Piece.word "case" :: _) = input at parses
    cases parses with
    | case inner others =>
      cases shape
      obtain ⟨rfl, rfl⟩ := stmts_unique body fine.1 (stops_branches more stops_brace)
        (stops_of_parsesBranches others stops_brace) inner
      obtain ⟨rfl, rfl⟩ := branches_unique more fine.2 others
      exact ⟨rfl, rfl⟩
    | _ => simp at shape
termination_by structural branches => branches

theorem block_unique : (block : Block) → block.isWellFormed = true → {tree : Block} →
    {rest rest' : List Piece} → ParsesBlock (blockPieces block ++ rest) tree rest' →
    tree = block.written ∧ rest' = rest
  | .mk _ body, fine, _, _, _, parses => by
    simp only [blockPieces, bracedPieces, List.cons_append, List.append_assoc,
      List.nil_append] at parses
    cases parses with
    | mk inner =>
      obtain ⟨rfl, same⟩ := stmts_unique body fine stops_brace stops_brace inner
      cases same
      exact ⟨rfl, rfl⟩
termination_by structural block => block

/-- The `catch` part of a `try` statement is read in one way. -/
theorem handler_unique : (handler : Handler) → handlerWellFormed (some handler) = true →
    {tree : Handler} → {rest rest' : List Piece} →
    ParsesHandler (handlerPieces (some handler) ++ rest) tree rest' →
    writtenHandler (some handler) = some tree ∧ rest' = rest
  | .mk _ param body, fine, _, _, _, parses => by
    simp only [handlerWellFormed, Bool.and_eq_true] at fine
    cases param with
    | none =>
      simp only [handlerPieces, bracedPieces, List.cons_append, List.append_assoc,
        List.nil_append] at parses
      generalize shape : (Piece.word "catch" :: _) = input at parses
      cases parses with
      | noParam inner =>
        cases shape
        obtain ⟨rfl, same⟩ := stmts_unique body fine.2 stops_brace stops_brace inner
        cases same
        exact ⟨rfl, rfl⟩
      | withParam => simp at shape
    | some name =>
      simp only [handlerPieces, bracedPieces, List.cons_append, List.append_assoc,
        List.nil_append] at parses
      generalize shape : (Piece.word "catch" :: _) = input at parses
      cases parses with
      | noParam => simp at shape
      | withParam isName inner =>
        cases shape
        obtain ⟨rfl, same⟩ := stmts_unique body fine.2 stops_brace stops_brace inner
        cases same
        exact ⟨rfl, rfl⟩
termination_by structural handler => handler

/-- A list of statements is read in one way, up to where it stops. -/
theorem stmts_unique : (body : List Stmt) → stmtsWellFormed body = true → {trees : List Stmt} →
    {rest rest' : List Piece} → Stops rest → Stops rest' →
    ParsesStmts (stmtsPieces body ++ rest) trees rest' → trees = writtenStmts body ∧ rest' = rest
  | [], _, _, _, _, stops, _, parses => stmts_nil_unique stops parses
  | s :: more, fine, _, rest, _, stops, stops', parses => by
    simp only [stmtsWellFormed, Bool.and_eq_true] at fine
    rw [stmtsPieces, List.append_assoc] at parses
    have notFinally := stmtsPieces_head fine.2 (by decide) stops.not_finally
    have notElse := stmtsPieces_head fine.2 (by decide) stops.not_else
    obtain ⟨trees, rfl, others⟩ := stmts_cons_unique fine.1 stops'
      (stmt_unique s fine.1 (fun _ => notElse) notFinally) parses
    obtain ⟨rfl, rfl⟩ := stmts_unique more fine.2 stops stops' others
    exact ⟨rfl, rfl⟩
termination_by structural body => body

end

/-- What the pieces of statements are read as is what is written of them, and that they can be read at
all shows that they are grammatical. -/
theorem read_of_pieces {body trees : List Stmt} (fine : stmtsWellFormed body = true)
    (parses : ParsesStmts (stmtsPieces body) trees []) :
    stmtsGrammatical body = true ∧ trees = writtenStmts body := by
  have known := parses
  rw [← List.append_nil (stmtsPieces body)] at known
  obtain ⟨rfl, -⟩ := stmts_unique body fine stops_nil stops_nil known
  exact ⟨stmtsGrammatical_written body ▸ parses.isGrammatical, rfl⟩

/-- The printed tokens of statements, with every printed expression as one piece, are read as what is
written of these statements, and as nothing else, if the statements are grammatical. If they are not,
there is nothing that their tokens are read as. -/
theorem stmts_read_back {body : List Stmt} (fine : stmtsWellFormed body = true) :
    Spelled (stmtsPieces body) (stmtsTokens body) ∧
      ∀ trees, ParsesStmts (stmtsPieces body) trees [] ↔
        stmtsGrammatical body = true ∧ trees = writtenStmts body := by
  refine ⟨spelled_stmts body, fun trees => ⟨read_of_pieces fine, ?_⟩⟩
  rintro ⟨gram, rfl⟩
  have parses := parses_stmts body fine gram [] (by simp)
  rwa [List.append_nil] at parses

/-- The case of `if(a){l:while(b)if(c)d;}else e;for(var i=("k"in o);;);(function(){})();try{}finally{}`
and `m:function f(){let x;}`: the open `if` stands behind a label and a loop, the first loop variable has
an `in`, an expression begins like a function declaration, and a function has a label. -/
theorem stmts_read_back_guarded :
    let here : Place := default
    let opened := Stmt.label here "l" (.whileLoop here (.ident here "b")
      (.ite here (.ident here "c") (.expr here (.ident here "d")) none))
    let found := Expr.binary here .isIn (.str here "k") (.ident here "o")
    let inner := Stmt.var default (.mk default .block [.mk "x" none])
    let body := [
      .ite here (.ident here "a") opened (some (.expr here (.ident here "e"))),
      .forLoop here (some (.decl (.mk default .var [.mk "i" (some found)]))) none none (.empty here),
      .expr here (.call here false (.func here none (.mk default [] [])) []),
      .tryCatch here (.mk default []) none (some (.mk default [])),
      .label here "m" (.func here "f" (.mk default [] [inner]))]
    stmtsWellFormed body = true ∧ stmtsGrammatical body = true ∧
      Spelled (stmtsPieces body) (stmtsTokens body) ∧
      ∀ trees, ParsesStmts (stmtsPieces body) trees [] ↔ trees = writtenStmts body := by
  intro here opened found inner body
  have fine : stmtsWellFormed body = true := by decide
  have gram : stmtsGrammatical body = true := by decide
  obtain ⟨spelled, reads⟩ := stmts_read_back fine
  exact ⟨fine, gram, spelled, fun trees => (reads trees).trans (and_iff_right gram)⟩

/-- The cases of `if(a)let x;`, of `if(a)function f(){}`, of `l:const x=a;`, of
`switch(a){default:default:}` and of `for(let x=a in b);`. Each is well formed, and its tokens are no
program. -/
theorem stmts_not_read_back :
    let here : Place := default
    let a := Expr.ident here "a"
    let declared (mode : DeclMode) (init : Option Expr) := VarDecl.mk default mode [.mk "x" init]
    ∀ s ∈ [
      Stmt.ite here a (.var default (declared .block none)) none,
      .ite here a (.func here "f" (.mk default [] [])) none,
      .label here "l" (.var default (declared .const (some a))),
      .switch here a [.mk default none [], .mk default none []],
      .forIn here (.decl (declared .block (some a))) (.ident here "b") (.empty here)],
    stmtsWellFormed [s] = true ∧ ∀ trees, ¬ ParsesStmts (stmtsPieces [s]) trees [] := by
  intro here a declared s mem
  have fine : stmtsWellFormed [s] = true := by
    revert s
    decide
  have ungrammatical : stmtsGrammatical [s] = false := by
    revert s
    decide
  refine ⟨fine, fun trees parses => ?_⟩
  have gram := (read_of_pieces fine parses).1
  rw [ungrammatical] at gram
  cases gram

end Minifier.Grammar
