import Minifier.Proofs.Scopes
import Minifier.Proofs.Semantics.Action
import Minifier.Proofs.Semantics.Constant

/-!
# Running statements

A run of statements over an evaluation of expressions. The primitives are effects, so they end
normally or throw: what a declared name does where it is reached, what is done on the way into a scope
and out of it, how the keys of an object are gone through, when a case applies, and what `with` and
`catch` do to the names in force. How statements end, and where jumps lead, is fixed.

A statement runs with the labels that stand directly before it. They matter to loops only, which go on
where a `continue` names one of them.

Every block has a scope, also one that holds no name: what is done on the way into it and out of it may
depend on its names only. That nothing is done there if it holds none is a law by itself, which not
every run obeys.
-/

namespace Minifier

open Minifier.Action

/-- Where a declaration stands. -/
inductive Site
  | list
  | loop
  | keys

/-- The primitives of a run of statements. -/
structure StmtSemantics (S V R : Type) extends Semantics S V R where
  /-- What a declared name does where it is reached, with its initial value if there is one. -/
  declare : Site → DeclMode → String → Option V → Effect S V Unit
  /-- What a function declaration does where it is reached. -/
  declareFunc : String → Func → Effect S V Unit
  /-- The way into a scope of the given names. -/
  enter : List (DeclMode × String) → Effect S V Unit
  /-- The way out of a scope of the given names. -/
  leave : List (DeclMode × String) → Effect S V Unit
  /-- What happens to the names of a counting loop between two rounds. -/
  renew : List (DeclMode × String) → Effect S V Unit
  /-- What goes through the keys of an object. -/
  keys : V → Effect S V V
  /-- The next key, unless there is none left. -/
  nextKey : V → Effect S V (Option V)
  /-- Gives a key to the names that the head of a loop declares. -/
  bindKey : DeclMode → List String → V → Effect S V Unit
  /-- Gives a key to the target that the head of a loop names. -/
  putKey : Operand V R → V → Effect S V Unit
  /-- Whether a value is the one that a case of a `switch` asks for. -/
  isCase : V → V → Effect S V Bool
  /-- Brings the names of an object into force. -/
  enterWith : V → Effect S V Unit
  /-- Takes the names of an object out of force. -/
  leaveWith : Effect S V Unit
  /-- Brings the name of what was thrown into force. -/
  enterCatch : Option String → V → Effect S V Unit
  /-- Takes the name of what was thrown out of force. -/
  leaveCatch : Option String → Effect S V Unit

/-- What a loop makes of an abrupt end of its body: whether it goes on, if it takes care of it. -/
def Abrupt.goesOn? {V : Type} (labels : List String) : Abrupt V → Option Bool
  | .breakTo none => some false
  | .continueTo none => some true
  | .continueTo (some l) => if l ∈ labels then some true else none
  | .breakTo (some _) | .ret _ | .throw _ => none

/-- Whether an abrupt end is a `break` to the given label. -/
def Abrupt.isBreakTo {V : Type} (label : Option String) : Abrupt V → Bool
  | .breakTo l => l = label
  | .continueTo _ | .ret _ | .throw _ => false

namespace Action

variable {S V : Type}

/-- The body of a loop with the given labels, with whether the loop goes on. -/
def loopBody (labels : List String) (body : Action S V Unit) : Action S V Bool :=
  orElse (do body; return true) fun c =>
    match c.goesOn? labels with
    | some more => return more
    | none => throw c

/-- An action that a `break` to the given label leads to the end of. -/
def breakable (label : Option String) (x : Action S V Unit) : Action S V Unit :=
  orElse x fun c => if c.isBreakTo label then pure () else throw c

end Action

namespace StmtSemantics

variable {S V R : Type} (sem : StmtSemantics S V R)

/-- What declared names do, one after the other. -/
def declareNames (site : Site) (mode : DeclMode) : List Declarator → Effect S V Unit
  | [] => return ()
  | .mk name none :: rest => do
    sem.declare site mode name none
    declareNames site mode rest
  | .mk name (some e) :: rest => do
    let v ← sem.value e
    sem.declare site mode name (some v)
    declareNames site mode rest

/-- What a declaration does. -/
def declareVars (site : Site) : VarDecl → Effect S V Unit
  | .mk _ mode declarators => sem.declareNames site mode declarators

/-- What a loop over keys does first. -/
def startKeys : LoopHead → Effect S V Unit
  | .decl d => sem.declareVars .keys d
  | .expr _ => return ()

/-- Gives a key to the head of a loop. -/
def takeKey (k : V) : LoopHead → Effect S V Unit
  | .decl (.mk _ mode declarators) => sem.bindKey mode (declarators.map Declarator.name) k
  | .expr e => do
    let target ← sem.operand e
    sem.putKey target k

/-- What a counting loop does first. -/
def start : Option LoopHead → Effect S V Unit
  | none => return ()
  | some (.decl d) => sem.declareVars .loop d
  | some (.expr e) => do
    let _ ← sem.value e

/-- Whether a counting loop goes on. Without a condition it does. -/
def mayRun : Option Expr → Effect S V Bool
  | none => return true
  | some e => sem.holds e

/-- What a counting loop does between two rounds. -/
def advance : Option Expr → Effect S V Unit
  | none => return ()
  | some e => do
    let _ ← sem.value e

/-- The value that `return` gives back. -/
def result : Option Expr → Effect S V V
  | none => return sem.constant .undef
  | some e => sem.value e

/-- An action in a scope of the given names. -/
def inScope {α : Type} (names : List (DeclMode × String)) (x : Action S V α) : Action S V α := do
  perform (sem.enter names)
  always x (perform (sem.leave names))

mutual

/-- What a statement does that has the given labels directly before it. -/
def run : Stmt → List String → Action S V Unit
  | .block _ body, _ => sem.inScope (stmtsLexicals body) (runAll body)
  | .breakTo _ label, _ => throw (.breakTo label)
  | .continueTo _ label, _ => throw (.continueTo label)
  | .debugger _, _ => return ()
  | .doWhile _ body test, labels => repeating do
    if ← loopBody labels (run body []) then perform (sem.holds test) else return false
  | .empty _, _ => return ()
  | .expr _ e, _ => do
    let _ ← perform (sem.value e)
  | .forIn _ target object body, labels => do
    perform (sem.startKeys target)
    let v ← perform (sem.value object)
    let keys ← perform (sem.keys v)
    repeating do
      match ← perform (sem.nextKey keys) with
      | none => return false
      | some k => sem.inScope target.lexicals do
        perform (sem.takeKey k target)
        loopBody labels (run body [])
  | .forLoop _ init test step body, labels => sem.inScope (loopInitLexicals init) do
    perform (sem.start init)
    repeating do
      if ← perform (sem.mayRun test) then
        if ← loopBody labels (run body []) then
          perform (sem.renew (loopInitLexicals init))
          perform (sem.advance step)
          return true
        else return false
      else return false
  | .func _ name fn, _ => perform (sem.declareFunc name fn)
  | .ite _ test yes no, _ => do
    if ← perform (sem.holds test) then run yes [] else runElse no
  | .label _ name body, labels => breakable (some name) (run body (name :: labels))
  | .ret _ value, _ => do
    let v ← perform (sem.result value)
    throw (.ret v)
  | .switch _ subject branches, _ => do
    let v ← perform (sem.value subject)
    sem.inScope (branchesLexicals branches)
      (breakable none (runCases v (runDefault branches) branches))
  | .throw _ value, _ => do
    let v ← perform (sem.value value)
    throw (.throw v)
  | .tryCatch _ body handler final, _ => runFinal (runHandler (runBlock body) handler) final
  | .var _ decl, _ => perform (sem.declareVars .list decl)
  | .whileLoop _ test body, labels => repeating do
    if ← perform (sem.holds test) then loopBody labels (run body []) else return false
  | .withObject _ object body, _ => do
    let v ← perform (sem.value object)
    perform (sem.enterWith v)
    always (run body []) (perform sem.leaveWith)

/-- What an `else` branch does. -/
def runElse : Option Stmt → Action S V Unit
  | none => return ()
  | some s => run s []

/-- What a list of statements does. -/
def runAll : List Stmt → Action S V Unit
  | [] => return ()
  | s :: rest => do
    run s []
    runAll rest

/-- What the branches of a `switch` do for a value: those from the first case on that asks for it, and
`other` if none does. -/
def runCases (v : V) (other : Action S V Unit) : List Branch → Action S V Unit
  | [] => other
  | .mk _ none _ :: rest => runCases v other rest
  | .mk _ (some test) body :: rest => do
    let w ← perform (sem.value test)
    if ← perform (sem.isCase v w) then do
      runAll body
      runBranches rest
    else runCases v other rest

/-- What the branches of a `switch` do from the default on. -/
def runDefault : List Branch → Action S V Unit
  | [] => return ()
  | .mk _ none body :: rest => do
    runAll body
    runBranches rest
  | .mk _ (some _) _ :: rest => runDefault rest

/-- What the branches of a `switch` do one after the other. -/
def runBranches : List Branch → Action S V Unit
  | [] => return ()
  | .mk _ _ body :: rest => do
    runAll body
    runBranches rest

/-- What a block of a `try` statement does. -/
def runBlock : Block → Action S V Unit
  | .mk _ body => sem.inScope (stmtsLexicals body) (runAll body)

/-- What `try` and `catch` do together. -/
def runHandler (x : Action S V Unit) : Option Handler → Action S V Unit
  | none => x
  | some (.mk _ param body) => orElse x fun
    | .throw v => do
      perform (sem.enterCatch param v)
      always (sem.inScope (stmtsLexicals body) (runAll body)) (perform (sem.leaveCatch param))
    | c => throw c

/-- What is done before `finally`, and then what is done there. -/
def runFinal (x : Action S V Unit) : Option Block → Action S V Unit
  | none => x
  | some block => always x (runBlock block)

end

attribute [simp] run runElse runAll runCases runDefault runBranches runBlock runHandler runFinal

/-- A list of statements runs from one state to another and ends in the given way. -/
def Runs (body : List Stmt) (s : S) (c : Completion V) (t : S) : Prop :=
  (sem.runAll body).run s c t

/-- The laws of expressions, and a `var` without an initial value does nothing. -/
structure Lawful (sem : StmtSemantics S V R) : Prop extends sem.toSemantics.Lawful where
  declare_var : ∀ name, sem.declare .list .var name none = pure ()

/-- A scope without names is entered and left without doing anything. -/
structure BareScopesIdle (sem : StmtSemantics S V R) : Prop where
  enter_nil : sem.enter [] = pure ()
  leave_nil : sem.leave [] = pure ()

/-! ## A run with a trace

The laws can be met. The trace of expressions goes on with what is declared and with the scopes that
are entered and left, if they hold any name; it can be made to show all of them, and then the law on
scopes without names does not hold. -/

/-- Adds a line to the trace. -/
def note (line : String) : Effect (List String) Constant Unit :=
  modify (line :: ·)

/-- Adds what happens to names to the trace. -/
def noteNames (what : String) (names : List (DeclMode × String)) :
    Effect (List String) Constant Unit :=
  note (names.foldl (fun line name => line ++ " " ++ name.2) what)

/-- Constants as values, with a trace of look-ups, calls, declarations and scopes. The scopes in it are
those that hold a name, or all of them. -/
def tracing (allScopes : Bool) : StmtSemantics (List String) Constant String where
  toSemantics := Semantics.tracing
  declare _ mode name
    | none => if mode = .var then pure () else note name
    | some v => note s!"{name} {v.toText}"
  declareFunc name _ := note name
  enter names := if allScopes || !names.isEmpty then noteNames "enter" names else pure ()
  leave names := if allScopes || !names.isEmpty then noteNames "leave" names else pure ()
  renew names := noteNames "renew" names
  keys v := pure v
  nextKey _ := pure none
  bindKey _ _ k := note k.toText
  putKey _ k := note k.toText
  isCase a b := return a.strictEq b
  enterWith v := note s!"with {v.toText}"
  leaveWith := note "without"
  enterCatch _ v := note s!"catch {v.toText}"
  leaveCatch _ := note "caught"

theorem tracing_lawful (allScopes : Bool) : Lawful (tracing allScopes) where
  toLawful := Semantics.tracing_lawful
  declare_var _ := rfl

theorem tracing_bareScopesIdle : BareScopesIdle (tracing false) where
  enter_nil := rfl
  leave_nil := rfl

end StmtSemantics

end Minifier
