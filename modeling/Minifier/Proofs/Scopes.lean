import Minifier.Proofs.Conditions

/-!
# Names of a scope

The names that `let` and `const` bind belong to the block, the `switch` or the loop head that holds
the declaration. They are listed here in the order of the source, with the mode of each. A statement
in which no such declaration is the body of an `if`, a loop, a `with` or a label keeps them all, in
the same scopes.

The names can be taken down in more than one way: name by name, declaration by declaration, or by
whether there are any. What these accounts have in common is stated once, as `ScopeAccount`, and what
simplifying does to a list is derived from that.
-/

namespace Minifier

/-- The name that a declarator declares. -/
def Declarator.name : Declarator → String
  | .mk name _ => name

/-- The names that a declaration binds in the scope it stands in. -/
def VarDecl.lexicals : VarDecl → List (DeclMode × String)
  | .mk _ mode declarators =>
    if mode = .var then [] else declarators.map fun d => (mode, d.name)

/-- The names that the head of a loop binds. -/
def LoopHead.lexicals : LoopHead → List (DeclMode × String)
  | .decl d => d.lexicals
  | .expr _ => []

/-- The names that what a counting loop starts from binds. -/
def loopInitLexicals : Option LoopHead → List (DeclMode × String)
  | none => []
  | some head => head.lexicals

/-- The names that a statement binds in the scope it stands in. -/
def Stmt.lexicals : Stmt → List (DeclMode × String)
  | .var _ decl => decl.lexicals
  | _ => []

/-- The names that a list of statements binds. -/
def stmtsLexicals : List Stmt → List (DeclMode × String)
  | [] => []
  | s :: rest => s.lexicals ++ stmtsLexicals rest

/-- The names that the branches of a `switch` bind in their common scope. -/
def branchesLexicals : List Branch → List (DeclMode × String)
  | [] => []
  | .mk _ _ body :: rest => stmtsLexicals body ++ branchesLexicals rest

section Everywhere

variable (p : Stmt → Prop)

mutual

/-- The property holds of a statement and of all statements in it that are not in functions. -/
def Stmt.Everywhere : Stmt → Prop
  | .block pl body => p (.block pl body) ∧ stmtsEverywhere body
  | .doWhile pl body test => p (.doWhile pl body test) ∧ body.Everywhere
  | .forIn pl target object body => p (.forIn pl target object body) ∧ body.Everywhere
  | .forLoop pl init test step body => p (.forLoop pl init test step body) ∧ body.Everywhere
  | .ite pl test yes no => p (.ite pl test yes no) ∧ yes.Everywhere ∧ elseEverywhere no
  | .label pl name body => p (.label pl name body) ∧ body.Everywhere
  | .switch pl subject branches => p (.switch pl subject branches) ∧ branchesEverywhere branches
  | .tryCatch pl body handler final => p (.tryCatch pl body handler final) ∧
    body.Everywhere ∧ handlerEverywhere handler ∧ finalEverywhere final
  | .whileLoop pl test body => p (.whileLoop pl test body) ∧ body.Everywhere
  | .withObject pl object body => p (.withObject pl object body) ∧ body.Everywhere
  | .breakTo pl label => p (.breakTo pl label)
  | .continueTo pl label => p (.continueTo pl label)
  | .debugger pl => p (.debugger pl)
  | .empty pl => p (.empty pl)
  | .expr pl e => p (.expr pl e)
  | .func pl name fn => p (.func pl name fn)
  | .ret pl value => p (.ret pl value)
  | .throw pl value => p (.throw pl value)
  | .var outer decl => p (.var outer decl)

/-- The property holds of all statements in an `else` branch. -/
def elseEverywhere : Option Stmt → Prop
  | none => True
  | some s => s.Everywhere

/-- The property holds of all statements in a list, and of those in them. -/
def stmtsEverywhere : List Stmt → Prop
  | [] => True
  | s :: rest => s.Everywhere ∧ stmtsEverywhere rest

/-- The property holds of all statements in the branches of a `switch`. -/
def branchesEverywhere : List Branch → Prop
  | [] => True
  | .mk _ _ body :: rest => stmtsEverywhere body ∧ branchesEverywhere rest

/-- The property holds of all statements in a block of a `try` statement. -/
def Block.Everywhere : Block → Prop
  | .mk _ body => stmtsEverywhere body

/-- The property holds of all statements in the `catch` part of a `try` statement. -/
def handlerEverywhere : Option Handler → Prop
  | none => True
  | some (.mk _ _ body) => stmtsEverywhere body

/-- The property holds of all statements in the `finally` part of a `try` statement. -/
def finalEverywhere : Option Block → Prop
  | none => True
  | some block => block.Everywhere

end

end Everywhere

attribute [simp] Stmt.Everywhere elseEverywhere stmtsEverywhere branchesEverywhere
  Block.Everywhere handlerEverywhere finalEverywhere

/-- A property holds everywhere in a list if it holds everywhere in each of its statements. -/
theorem stmtsEverywhere_iff {p : Stmt → Prop} {body : List Stmt} :
    stmtsEverywhere p body ↔ ∀ s ∈ body, s.Everywhere p := by
  induction body with
  | nil => simp
  | cons s rest ih => simp [ih]

section Combine

variable {p q r : Stmt → Prop}

mutual

/-- What follows from two properties holds everywhere if they do. -/
theorem Stmt.everywhere_combine (both : ∀ s, p s → q s → r s) :
    (s : Stmt) → s.Everywhere p → s.Everywhere q → s.Everywhere r
  | .block _ body, first, second =>
    ⟨both _ first.1 second.1, stmtsEverywhere_combine both body first.2 second.2⟩
  | .doWhile _ body _, first, second | .forIn _ _ _ body, first, second
  | .forLoop _ _ _ _ body, first, second | .label _ _ body, first, second
  | .whileLoop _ _ body, first, second | .withObject _ _ body, first, second =>
    ⟨both _ first.1 second.1, Stmt.everywhere_combine both body first.2 second.2⟩
  | .ite _ _ yes none, first, second =>
    ⟨both _ first.1 second.1, Stmt.everywhere_combine both yes first.2.1 second.2.1, trivial⟩
  | .ite _ _ yes (some no), first, second =>
    ⟨both _ first.1 second.1, Stmt.everywhere_combine both yes first.2.1 second.2.1,
      Stmt.everywhere_combine both no first.2.2 second.2.2⟩
  | .switch _ _ branches, first, second =>
    ⟨both _ first.1 second.1, branchesEverywhere_combine both branches first.2 second.2⟩
  | .tryCatch _ (.mk _ body) handler final, first, second =>
    ⟨both _ first.1 second.1, stmtsEverywhere_combine both body first.2.1 second.2.1,
      handlerEverywhere_combine both handler first.2.2.1 second.2.2.1,
      finalEverywhere_combine both final first.2.2.2 second.2.2.2⟩
  | .breakTo .., first, second | .continueTo .., first, second | .debugger _, first, second
  | .empty _, first, second | .expr .., first, second | .func .., first, second
  | .ret .., first, second | .throw .., first, second | .var .., first, second =>
    both _ first second

theorem stmtsEverywhere_combine (both : ∀ s, p s → q s → r s) : (body : List Stmt) →
    stmtsEverywhere p body → stmtsEverywhere q body → stmtsEverywhere r body
  | [], _, _ => trivial
  | s :: rest, first, second =>
    ⟨Stmt.everywhere_combine both s first.1 second.1, stmtsEverywhere_combine both rest first.2 second.2⟩

theorem branchesEverywhere_combine (both : ∀ s, p s → q s → r s) : (branches : List Branch) →
    branchesEverywhere p branches → branchesEverywhere q branches → branchesEverywhere r branches
  | [], _, _ => trivial
  | .mk _ _ body :: rest, first, second =>
    ⟨stmtsEverywhere_combine both body first.1 second.1,
      branchesEverywhere_combine both rest first.2 second.2⟩

theorem handlerEverywhere_combine (both : ∀ s, p s → q s → r s) : (handler : Option Handler) →
    handlerEverywhere p handler → handlerEverywhere q handler → handlerEverywhere r handler
  | none, _, _ => trivial
  | some (.mk _ _ body), first, second => stmtsEverywhere_combine both body first second

theorem finalEverywhere_combine (both : ∀ s, p s → q s → r s) : (final : Option Block) →
    finalEverywhere p final → finalEverywhere q final → finalEverywhere r final
  | none, _, _ => trivial
  | some (.mk _ body), first, second => stmtsEverywhere_combine both body first second

end

end Combine

/-- No declaration that needs a scope is the body of the statement. -/
def Stmt.IsBraced : Stmt → Prop
  | .ite _ _ yes no => yes.isScoped = false ∧ ∀ s ∈ no, s.isScoped = false
  | .doWhile _ body _ | .forIn _ _ _ body | .forLoop _ _ _ _ body | .label _ _ body
  | .whileLoop _ _ body | .withObject _ _ body => body.isScoped = false
  | _ => True

/-- The names that a declaration declares. -/
def VarDecl.names (decl : VarDecl) : List String :=
  decl.declarators.map Declarator.name

/-- The mode and the names of a `let` or `const` declaration. -/
def Stmt.lexicalDecl? : Stmt → Option (DeclMode × List String)
  | .var _ decl => if decl.mode = .var then none else some (decl.mode, decl.names)
  | _ => none

/-- The `let` and `const` declarations that stand in a list itself, each with its mode and names. -/
def lexicalDecls (body : List Stmt) : List (DeclMode × List String) :=
  body.filterMap Stmt.lexicalDecl?

/-- What stands as the body of an `if`, a loop, a `with` or a label. -/
def Stmt.bodies : Stmt → List Stmt
  | .ite _ _ yes no => yes :: no.toList
  | .doWhile _ body _ | .forIn _ _ _ body | .forLoop _ _ _ _ body | .label _ _ body
  | .whileLoop _ _ body | .withObject _ _ body => [body]
  | _ => []

/-- No `let` or `const` declaration is the body of the statement. -/
def Stmt.BracesLexicals (s : Stmt) : Prop :=
  ∀ body ∈ s.bodies, body.lexicalDecl? = none

/-- The body of a braced statement needs no scope of its own. -/
theorem Stmt.IsBraced.isScoped_of_mem_bodies {s body : Stmt} (braced : s.IsBraced)
    (mem : body ∈ s.bodies) : body.isScoped = false := by
  cases s with
  | ite pl test yes no =>
    obtain rfl | found := List.mem_cons.mp mem
    · exact braced.1
    · exact braced.2 body (Option.mem_toList.mp found)
  | doWhile | forIn | forLoop | label | whileLoop | withObject =>
    obtain rfl := List.mem_singleton.mp mem
    exact braced
  | _ => cases mem

/-! ## Hoisted declarations -/

/-- What is hoisted from a declaration is a `var`. -/
theorem VarDecl.mode_of_mem_hoisted {d decl : VarDecl} (mem : .var d ∈ decl.hoisted) :
    d.mode = .var := by
  unfold hoisted at mem
  split at mem
  · next mode => simp_all
  · cases mem

/-- What is hoisted from the head of a loop is a `var`. -/
theorem LoopHead.mode_of_mem_hoisted {d : VarDecl} {head : LoopHead}
    (mem : .var d ∈ head.hoisted) : d.mode = .var := by
  cases head with
  | decl decl => exact VarDecl.mode_of_mem_hoisted mem
  | expr e => cases mem

mutual

/-- Only `var` declarations are hoisted, beside functions. -/
theorem Stmt.mode_of_mem_hoisted {d : VarDecl} : (s : Stmt) → .var d ∈ s.hoisted → d.mode = .var
  | .block _ body, mem => stmtsHoisted_mode body mem
  | .doWhile _ body _, mem => body.mode_of_mem_hoisted mem
  | .forIn _ target _ body, mem =>
    (List.mem_append.mp mem).elim LoopHead.mode_of_mem_hoisted body.mode_of_mem_hoisted
  | .forLoop _ none _ _ body, mem => body.mode_of_mem_hoisted (by simpa [Stmt.hoisted] using mem)
  | .forLoop _ (some head) _ _ body, mem => by
    have either : .var d ∈ head.hoisted ∨ .var d ∈ body.hoisted := by
      simpa [Stmt.hoisted] using mem
    exact either.elim LoopHead.mode_of_mem_hoisted body.mode_of_mem_hoisted
  | .func _ _ _, mem => by simp [Stmt.hoisted] at mem
  | .ite _ _ yes none, mem => yes.mode_of_mem_hoisted mem
  | .ite _ _ yes (some no), mem =>
    (List.mem_append.mp mem).elim yes.mode_of_mem_hoisted no.mode_of_mem_hoisted
  | .label _ _ body, mem => body.mode_of_mem_hoisted mem
  | .switch _ _ branches, mem => branchesHoisted_mode branches mem
  | .tryCatch _ (.mk _ body) handler final, mem =>
    (List.mem_append.mp mem).elim
      (fun first => (List.mem_append.mp first).elim (stmtsHoisted_mode body)
        (handlerHoisted_mode handler))
      (finalHoisted_mode final)
  | .var _ decl, mem => VarDecl.mode_of_mem_hoisted mem
  | .whileLoop _ _ body, mem => body.mode_of_mem_hoisted mem
  | .withObject _ _ body, mem => body.mode_of_mem_hoisted mem
  | .breakTo _ _, mem | .continueTo _ _, mem | .debugger _, mem | .empty _, mem | .expr _ _, mem
  | .ret _ _, mem | .throw _ _, mem => by cases mem

theorem stmtsHoisted_mode {d : VarDecl} :
    (body : List Stmt) → .var d ∈ stmtsHoisted body → d.mode = .var
  | s :: rest, mem =>
    (List.mem_append.mp mem).elim s.mode_of_mem_hoisted (stmtsHoisted_mode rest)

theorem branchesHoisted_mode {d : VarDecl} :
    (branches : List Branch) → .var d ∈ branchesHoisted branches → d.mode = .var
  | .mk _ _ body :: rest, mem =>
    (List.mem_append.mp mem).elim (stmtsHoisted_mode body) (branchesHoisted_mode rest)

theorem handlerHoisted_mode {d : VarDecl} :
    (handler : Option Handler) → .var d ∈ handlerHoisted handler → d.mode = .var
  | some (.mk _ _ body), mem => stmtsHoisted_mode body mem

theorem finalHoisted_mode {d : VarDecl} :
    (final : Option Block) → .var d ∈ finalHoisted final → d.mode = .var
  | some (.mk _ body), mem => stmtsHoisted_mode body mem

end

/-- A hoisted `var` needs no scope when it is made a statement. -/
theorem Hoisted.isScoped_toStmt {h : Hoisted} (hoisted : ∀ d, h = .var d → d.mode = .var)
    (noFunc : h.isFunc = false) : h.toStmt.isScoped = false := by
  cases h with
  | var decl =>
    obtain ⟨span, mode, declarators⟩ := decl
    have mode_eq : mode = .var := hoisted _ rfl
    simp [toStmt, Stmt.isScoped, VarDecl.strip, VarDecl.mode, mode_eq]
  | func span name fn => cases noFunc

/-- The declarations that are left of a branch that does not run are `var`s, beside functions. -/
theorem mode_of_mem_deadHoisted {d : VarDecl} {truth : Bool} {yes : Stmt} {no : Option Stmt}
    (mem : .var d ∈ deadHoisted truth yes no) : d.mode = .var := by
  obtain ⟨s, _, found⟩ := List.mem_flatMap.mp mem
  exact s.mode_of_mem_hoisted found

theorem VarDecl.mode_strip (decl : VarDecl) : decl.strip.mode = decl.mode := by
  cases decl
  rfl

/-- A declaration keeps its names without its initial values. -/
theorem VarDecl.names_strip (decl : VarDecl) : decl.strip.names = decl.names := by
  obtain ⟨span, mode, declarators⟩ := decl
  have same : ∀ d, (Declarator.strip span mode d).name = d.name := by
    rintro ⟨name, init⟩
    rfl
  simp [strip, names, VarDecl.declarators, Function.comp_def, same]

variable {o : Options}

/-- Simplifying the initial values keeps the names that are declared. -/
theorem names_minifyDeclarators (declarators : List Declarator) :
    (minifyDeclarators o declarators).value.map Declarator.name =
      declarators.map Declarator.name := by
  induction declarators with
  | nil => rfl
  | cons d rest ih =>
    obtain ⟨name, init⟩ := d
    simpa [minifyDeclarators, Declarator.name] using ih

/-- A simplified declaration has the mode that it had. -/
theorem VarDecl.mode_minify (decl : VarDecl) : (decl.minify o).value.mode = decl.mode := by
  cases decl
  rfl

/-- A simplified declaration declares the names that it did. -/
theorem VarDecl.names_minify (decl : VarDecl) : (decl.minify o).value.names = decl.names := by
  obtain ⟨span, mode, declarators⟩ := decl
  exact names_minifyDeclarators declarators

/-! ## Accounts of a scope -/

/-- A relation of lists with the same account of the names they bind in their own scope. Statements
that bind none count for nothing, and declarations count by their mode and names. -/
structure ScopeAccount (same : List Stmt → List Stmt → Prop) : Prop extends Equivalence same where
  append : ∀ {a b c d}, same a b → same c d → same (a ++ c) (b ++ d)
  unscoped : ∀ {s : Stmt}, s.isScoped = false → same [s] []
  func : ∀ p q n m f g, same [.func p n f] [.func q m g]
  var : ∀ {p q : Span} {c d : VarDecl}, c.mode = d.mode → c.names = d.names →
    same [.var p c] [.var q d]

/-- What becomes of a block needs no scope: the block itself, or its one statement if that needs none. -/
theorem isScoped_blockStmt (pl : Place) (body : List Stmt) :
    (blockStmt pl body).isScoped = false := by
  unfold blockStmt
  split
  · split
    · rfl
    · next noBlock => simpa [needsBlock] using noBlock
  · rfl

namespace ScopeAccount

variable {same : List Stmt → List Stmt → Prop} (laws : ScopeAccount same)
include laws

/-- Two statements that need no scope have the same account. -/
theorem both_unscoped {s t : Stmt} (here : s.isScoped = false) (there : t.isScoped = false) :
    same [s] [t] :=
  laws.trans (laws.unscoped here) (laws.symm (laws.unscoped there))

/-- A list of statements that bind nothing binds nothing. -/
theorem eq_nothing {body : List Stmt} (each : ∀ s ∈ body, same [s] []) : same body [] := by
  induction body with
  | nil => exact laws.refl []
  | cons s rest ih =>
    obtain ⟨head, tail⟩ := List.forall_mem_cons.mp each
    exact laws.append head (ih tail)

/-- A list that needs no block binds nothing. -/
theorem of_not_needsBlock {body : List Stmt} (noBlock : needsBlock body = false) : same body [] := by
  refine laws.eq_nothing fun s mem => laws.unscoped ?_
  simpa using List.any_eq_false.mp noBlock s mem

/-- Unwrapping blocks and joining expressions keep what a list binds, as only statements that bind
nothing are unwrapped or joined. -/
theorem congruence : ListCongruence same where
  refl := laws.refl
  symm := laws.symm
  trans := laws.trans
  append := laws.append
  empty _ := laws.symm (laws.unscoped rfl)
  block _ _ noBlock := laws.trans (laws.of_not_needsBlock noBlock) (laws.symm (laws.unscoped rfl))
  comma _ _ _ _ _ _ := laws.trans (laws.unscoped rfl) (laws.symm (laws.of_not_needsBlock rfl))
  ret _ _ _ _ _ _ := laws.trans (laws.unscoped rfl) (laws.symm (laws.of_not_needsBlock rfl))
  throw _ _ _ _ _ _ := laws.trans (laws.unscoped rfl) (laws.symm (laws.of_not_needsBlock rfl))

section Conditions

variable {span : Span} {test : Expr} {truth : Bool} {yes : Stmt} {no : Option Stmt}

/-- What an `if` statement with a constant condition comes down to binds nothing. -/
theorem ifRemains (noFunc : (deadHoisted truth yes no).any Hoisted.isFunc = false)
    (inYes : same [yes] []) (inNo : ∀ s ∈ no, same [s] []) :
    same (ifRemains truth yes no) [] := by
  refine laws.eq_nothing fun t mem => ?_
  obtain inDead | inLive := List.mem_append.mp mem
  · obtain ⟨h, found, rfl⟩ := List.mem_map.mp inDead
    refine laws.unscoped (h.isScoped_toStmt (fun d shape => ?_) ?_)
    · exact mode_of_mem_deadHoisted (shape ▸ found)
    · simpa using List.any_eq_false.mp noFunc h found
  · have live : t ∈ liveBranch truth yes no := Option.mem_toList.mp inLive
    cases truth with
    | true =>
      obtain rfl : yes = t := Option.some.inj live
      exact inYes
    | false => exact inNo t live

/-- An `if` statement with a constant condition binds nothing, if its branches do not. -/
theorem constantIf (inYes : same [yes] []) (inNo : ∀ s ∈ no, same [s] []) :
    same [(constantIf o span test truth yes no).value] [] := by
  cases noFunc : (deadHoisted truth yes no).any Hoisted.isFunc with
  | true =>
    rw [value_constantIf_of_func noFunc]
    exact laws.unscoped rfl
  | false =>
    have remains := laws.ifRemains noFunc inYes inNo
    have unwrapped := laws.trans (laws.congruence.unwrapBlocks _) remains
    have block : same (unwrapBlocks (Minifier.ifRemains truth yes no))
        [.block (.both span) (unwrapBlocks (Minifier.ifRemains truth yes no))] :=
      laws.trans unwrapped (laws.symm (laws.unscoped rfl))
    exact laws.trans (laws.congruence.constantIf noFunc block) remains

/-- Nor does anything else that an `if` statement becomes. -/
theorem ifOutcome {r : Stmt} (outcome : IfOutcome o span test yes no r) (inYes : same [yes] [])
    (inNo : ∀ s ∈ no, same [s] []) : same [r] [] := by
  cases outcome with
  | constant => exact laws.constantIf inYes inNo
  | _ => exact laws.unscoped rfl

/-- A simplified `if` statement binds nothing, if its branches do not. -/
theorem simplifyIf (inYes : same [yes] []) (inNo : ∀ s ∈ no, same [s] []) :
    same [(simplifyIf o span test yes no).value] [] :=
  laws.ifOutcome (ifOutcome_simplifyIf span test yes no) inYes
    fun s mem => inNo s (Option.filter_eq_some_iff.mp mem).1

end Conditions

/-- A simplified statement binds what the statement binds, if no body of an `if`, a loop, a `with` or a
label in it binds anything. -/
theorem minify {p : Stmt → Prop} (bare : ∀ s, p s → ∀ body ∈ s.bodies, same [body] []) :
    (s : Stmt) → s.Everywhere p → same [(s.minify o).value] [s]
  | .block pl body, _ => laws.both_unscoped (isScoped_blockStmt pl _) rfl
  | .debugger pl, _ => by
    refine laws.both_unscoped ?_ rfl
    simp only [Stmt.minify, Report.value_pure]
    split <;> rfl
  | .func .., _ => laws.func ..
  | .ite pl test yes no, ⟨here, inYes, inNo⟩ => by
    have bareYes := laws.trans (minify bare yes inYes) (bare _ here yes List.mem_cons_self)
    have bareNo : ∀ s ∈ (minifyElse o no).value, same [s] [] := by
      cases no with
      | none => rintro _ ⟨⟩
      | some s =>
        rintro _ ⟨⟩
        have mem : s ∈ (Stmt.ite pl test yes (some s)).bodies :=
          List.mem_cons_of_mem _ List.mem_cons_self
        exact laws.trans (minify bare s inNo) (bare _ here s mem)
    refine laws.trans ?_ (laws.symm (laws.unscoped rfl))
    simp only [Stmt.minify, Report.value_bind]
    split
    · exact laws.simplifyIf bareYes bareNo
    · exact laws.unscoped rfl
  | .label pl name body, ⟨here, inBody⟩ => by
    refine laws.trans ?_ (laws.symm (laws.unscoped rfl))
    simp only [Stmt.minify, Report.value_bind, value_labelStmt]
    split
    · exact laws.trans (minify bare body inBody) (bare _ here body List.mem_cons_self)
    · exact laws.unscoped rfl
  | .var _ decl, _ => laws.var decl.mode_minify decl.names_minify
  | .breakTo .., _ | .continueTo .., _ | .doWhile .., _ | .empty .., _ | .expr .., _
  | .forIn .., _ | .forLoop .., _ | .ret .., _ | .switch .., _ | .throw .., _ | .tryCatch .., _
  | .whileLoop .., _ | .withObject .., _ => laws.both_unscoped rfl rfl

/-- Simplified one by one, the statements of a list bind what they did, if no body binds anything. -/
theorem minifyStmts {p : Stmt → Prop} (bare : ∀ s, p s → ∀ body ∈ s.bodies, same [body] [])
    (body : List Stmt) (everywhere : stmtsEverywhere p body) :
    same (minifyStmts o body).value body := by
  induction body with
  | nil => exact laws.refl []
  | cons s rest ih => exact laws.append (laws.minify bare s everywhere.1) (ih everywhere.2)

end ScopeAccount

/-- An account of the names that `let` and `const` bind. Functions count for nothing. -/
structure LexicalAccount (same : List Stmt → List Stmt → Prop) : Prop extends ScopeAccount same where
  noFunc : ∀ pl name fn, same [.func pl name fn] []

namespace LexicalAccount

variable {same : List Stmt → List Stmt → Prop} (laws : LexicalAccount same)
include laws

/-- A hoisted declaration binds nothing in the scope that it comes to stand in. -/
theorem toStmt {h : Hoisted} (hoisted : ∀ d, h = .var d → d.mode = .var) : same [h.toStmt] [] := by
  cases h with
  | var decl => exact laws.unscoped (Hoisted.isScoped_toStmt hoisted rfl)
  | func span name fn => exact laws.noFunc _ _ _

/-- A declaration that stands in an unreachable list itself binds its names still, and hoisted ones
bind no others. -/
theorem kept (s : Stmt) : same s.kept [s] := by
  have hoisted : same (s.hoisted.map Hoisted.toStmt) [] := by
    refine laws.eq_nothing fun t mem => ?_
    obtain ⟨h, found, rfl⟩ := List.mem_map.mp mem
    exact laws.toStmt fun d shape => s.mode_of_mem_hoisted (shape ▸ found)
  cases s with
  | func pl name fn => exact laws.refl _
  | var outer decl => exact laws.var decl.mode_strip decl.names_strip
  | _ => exact laws.trans hoisted (laws.symm (laws.unscoped rfl))

/-- Changes to a list keep the names it binds. -/
theorem tighten (stmts : List Stmt) : same (tighten o stmts).value stmts :=
  laws.congruence.loss.tighten laws.congruence
    (fun _ => laws.congruence.loss.dropUnreachable laws.kept) stmts

/-- A simplified list binds what the list binds. -/
theorem minifyBody {p : Stmt → Prop} (bare : ∀ s, p s → ∀ body ∈ s.bodies, same [body] [])
    (body : List Stmt) (everywhere : stmtsEverywhere p body) :
    same (minifyBody o body).value body :=
  laws.trans (laws.tighten _) (laws.minifyStmts bare body everywhere)

end LexicalAccount

/-! ## Whether there are names -/

/-- Whether a list needs a block is such an account. -/
theorem needsBlock_account : ScopeAccount fun a b => needsBlock a = needsBlock b where
  refl _ := rfl
  symm same := same.symm
  trans first second := first.trans second
  append head tail := by simp_all [needsBlock]
  unscoped unscoped := by simpa [needsBlock] using unscoped
  func _ _ _ _ _ _ := rfl
  var mode _ := by simp [needsBlock, Stmt.isScoped, mode]

/-- What an `if` statement with a constant condition comes down to needs no scope. -/
theorem needsBlock_ifRemains {truth : Bool} {yes : Stmt} {no : Option Stmt}
    (noFunc : (deadHoisted truth yes no).any Hoisted.isFunc = false)
    (inYes : yes.isScoped = false) (inNo : ∀ s ∈ no, s.isScoped = false) :
    needsBlock (ifRemains truth yes no) = false :=
  needsBlock_account.ifRemains noFunc (needsBlock_account.unscoped inYes)
    fun s mem => needsBlock_account.unscoped (inNo s mem)

/-- A declaration that needs a scope stays one, and no other statement becomes one. -/
theorem Stmt.isScoped_minify (s : Stmt) (braced : s.Everywhere IsBraced) :
    (s.minify o).value.isScoped = s.isScoped := by
  have same : needsBlock [(s.minify o).value] = needsBlock [s] :=
    needsBlock_account.minify (fun _ here _ mem =>
      needsBlock_account.unscoped (here.isScoped_of_mem_bodies mem)) s braced
  simpa [needsBlock] using same

/-! ## Name by name -/

/-- A declaration that is no `var` binds its names in its mode. -/
theorem VarDecl.lexicals_eq (decl : VarDecl) :
    decl.lexicals = if decl.mode = .var then [] else decl.names.map (Prod.mk decl.mode) := by
  obtain ⟨span, mode, declarators⟩ := decl
  simp [lexicals, VarDecl.mode, names, VarDecl.declarators, Function.comp_def]

/-- A simplified declaration binds what it did. -/
theorem VarDecl.lexicals_minify (decl : VarDecl) : (decl.minify o).value.lexicals = decl.lexicals := by
  rw [lexicals_eq, lexicals_eq, mode_minify, names_minify]

theorem LoopHead.lexicals_minify (head : LoopHead) :
    (head.minify o).value.lexicals = head.lexicals := by
  cases head with
  | decl decl => exact decl.lexicals_minify
  | expr e => rfl

theorem loopInitLexicals_minify (init : Option LoopHead) :
    loopInitLexicals (minifyLoopInit o init).value = loopInitLexicals init := by
  cases init with
  | none => rfl
  | some head => exact head.lexicals_minify

/-- A statement that needs no scope binds nothing by `let` or `const`. -/
theorem Stmt.lexicals_eq_nil {s : Stmt} (unscoped : s.isScoped = false) : s.lexicals = [] := by
  cases s with
  | var outer decl =>
    have mode : decl.mode = .var := by simpa [isScoped] using unscoped
    rw [lexicals, VarDecl.lexicals_eq, if_pos mode]
  | _ => rfl

/-- The names of two lists, one after the other. -/
theorem stmtsLexicals_append (a b : List Stmt) :
    stmtsLexicals (a ++ b) = stmtsLexicals a ++ stmtsLexicals b := by
  induction a with
  | nil => rfl
  | cons s rest ih => simp [stmtsLexicals, ih]

/-- The names that `let` and `const` bind are such an account. -/
theorem stmtsLexicals_account : LexicalAccount fun a b => stmtsLexicals a = stmtsLexicals b where
  refl _ := rfl
  symm same := same.symm
  trans first second := first.trans second
  append head tail := by rw [stmtsLexicals_append, stmtsLexicals_append, head, tail]
  unscoped unscoped := by simp [stmtsLexicals, Stmt.lexicals_eq_nil unscoped]
  func _ _ _ _ _ _ := rfl
  var mode names := by simp [stmtsLexicals, Stmt.lexicals, VarDecl.lexicals_eq, mode, names]
  noFunc _ _ _ := rfl

/-- A list that needs no block binds nothing by `let` or `const`. -/
theorem stmtsLexicals_of_not_needsBlock {body : List Stmt} (noBlock : needsBlock body = false) :
    stmtsLexicals body = [] :=
  stmtsLexicals_account.of_not_needsBlock noBlock

/-- Changes to a list keep the names that `let` and `const` bind there, in their order. -/
theorem stmtsLexicals_tighten (stmts : List Stmt) :
    stmtsLexicals (tighten o stmts).value = stmtsLexicals stmts :=
  stmtsLexicals_account.tighten stmts

/-- So does simplifying its statements. -/
theorem stmtsLexicals_minifyStmts (body : List Stmt) (braced : stmtsEverywhere Stmt.IsBraced body) :
    stmtsLexicals (minifyStmts o body).value = stmtsLexicals body :=
  stmtsLexicals_account.minifyStmts (fun _ here _ mem =>
    stmtsLexicals_account.unscoped (here.isScoped_of_mem_bodies mem)) body braced

/-- The branches of a `switch` bind together what they did. -/
theorem branchesLexicals_minify (branches : List Branch)
    (braced : branchesEverywhere Stmt.IsBraced branches) :
    branchesLexicals (minifyBranches o branches).value = branchesLexicals branches := by
  induction branches with
  | nil => rfl
  | cons branch rest ih =>
    obtain ⟨span, test, body⟩ := branch
    obtain ⟨bracedBody, bracedRest⟩ := braced
    simp only [minifyBranches, Report.value_bind, Report.value_pure, branchesLexicals,
      stmtsLexicals_tighten, stmtsLexicals_minifyStmts body bracedBody, ih bracedRest]

/-! ## Declaration by declaration -/

theorem Stmt.lexicalDecl?_eq_none {s : Stmt} (unscoped : s.isScoped = false) :
    s.lexicalDecl? = none := by
  cases s with
  | var outer decl =>
    have mode : decl.mode = .var := by simpa [isScoped] using unscoped
    rw [lexicalDecl?, if_pos mode]
  | _ => rfl

/-- The declarations themselves, with their modes and names, are such an account too. -/
theorem lexicalDecls_account : LexicalAccount fun a b => lexicalDecls a = lexicalDecls b where
  refl _ := rfl
  symm same := same.symm
  trans first second := first.trans second
  append head tail := by simp_all [lexicalDecls]
  unscoped unscoped := by simp [lexicalDecls, Stmt.lexicalDecl?_eq_none unscoped]
  func _ _ _ _ _ _ := rfl
  var mode names := by
    simp only [lexicalDecls, List.filterMap_cons, Stmt.lexicalDecl?, mode, names]
  noFunc _ _ _ := rfl

/-- The `let` and `const` declarations in a simplified list are those in the list, in the same order,
with their modes and names. -/
theorem lexicalDecls_minifyBody (o : Options) (body : List Stmt)
    (braced : stmtsEverywhere Stmt.BracesLexicals body) :
    lexicalDecls (minifyBody o body).value = lexicalDecls body :=
  lexicalDecls_account.minifyBody (fun _ here inner mem => by simp [lexicalDecls, here inner mem])
    body braced

/-- The case of `let a = null; if (true) { const b = null } function f() {} return; const c = g(),
d = null; if (x) function h() {}`. The block of `b` stays, and `c` and `d` stay declared behind the
jump. -/
theorem lexicalDecls_minifyBody_unreached :
    let here : Place := default
    let body : List Stmt := [
      .var default (.mk default .block [.mk "a" (some (.null here))]),
      .ite here (.bool here true)
        (.block here [.var default (.mk default .const [.mk "b" (some (.null here))])]) none,
      .func here "f" (.mk default [] []),
      .ret here none,
      .var default (.mk default .const
        [.mk "c" (some (.call here false (.ident here "g") [])), .mk "d" (some (.null here))]),
      .ite here (.ident here "x") (.func here "h" (.mk default [] [])) none]
    let o := Options.all true
    stmtsEverywhere Stmt.BracesLexicals body ∧
      lexicalDecls (minifyBody o body).value = lexicalDecls body ∧
      lexicalDecls body = [(.block, ["a"]), (.const, ["c", "d"])] := by
  intro here body o
  have braced : stmtsEverywhere Stmt.BracesLexicals body := by
    simp [body, Stmt.BracesLexicals, Stmt.bodies, Stmt.lexicalDecl?]
  exact ⟨braced, lexicalDecls_minifyBody o body braced, rfl⟩

end Minifier
