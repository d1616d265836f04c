import Minifier.Proofs.Bindings
import Minifier.Proofs.Scopes

/-!
# Names that are declared twice

A name that `let` or `const` binds in a scope must not be declared in the scope by another `let` or
`const`, by a function in the scope itself, or by a `var` anywhere in it outside of functions. Simplifying
keeps the names that a scope binds and the `var` declarations in it, so none of these come to clash. A
function declaration can leave its place: it comes to stand in the list around an unreachable statement, an
`if` with a constant condition or a label. There it clashes with a `let` or `const` of the same name, which
is looked at by none of these changes, and with nothing else.
-/

namespace Minifier

/-! ## Scopes -/

/-- The names that `let` and `const` bind in a list itself. -/
def lexicalNames (body : List Stmt) : List String :=
  (stmtsLexicals body).map Prod.snd

/-- The name of a function declaration. -/
def Stmt.funcName? : Stmt → Option String
  | .func _ name _ => some name
  | _ => none

/-- The functions that are declared in a list itself. -/
def functionNames (body : List Stmt) : List String :=
  body.filterMap Stmt.funcName?

/-- No name that `let` or `const` binds in a list is bound by another one there, or by a `var` in the
list. -/
structure LexicalsApart (body : List Stmt) : Prop where
  once : (lexicalNames body).Nodup
  noVar : ∀ name ∈ lexicalNames body, (.var, name) ∉ stmtsBindings body

/-- Nor is any of them the name of a function that is declared in the list itself. -/
structure RedeclaresNothing (body : List Stmt) : Prop extends LexicalsApart body where
  noFunc : ∀ name ∈ lexicalNames body, name ∉ functionNames body

instance (body : List Stmt) : Decidable (LexicalsApart body) :=
  decidable_of_iff
    ((lexicalNames body).Nodup ∧ ∀ name ∈ lexicalNames body, (.var, name) ∉ stmtsBindings body)
    ⟨fun apart => ⟨apart.1, apart.2⟩, fun apart => ⟨apart.once, apart.noVar⟩⟩

instance (body : List Stmt) : Decidable (RedeclaresNothing body) :=
  decidable_of_iff
    (LexicalsApart body ∧ ∀ name ∈ lexicalNames body, name ∉ functionNames body)
    ⟨fun free => ⟨free.1, free.2⟩, fun free => ⟨free.toLexicalsApart, free.noFunc⟩⟩

/-- The statements of a branch of a `switch`. -/
def Branch.body : Branch → List Stmt
  | .mk _ _ body => body

/-- The statements of a block of a `try` statement. -/
def Block.body : Block → List Stmt
  | .mk _ body => body

/-- The statements of the `catch` part of a `try` statement. -/
def Handler.body : Handler → List Stmt
  | .mk _ _ body => body

/-- The lists of statements in a statement that have a scope of their own. The branches of a `switch` have
one in common. -/
def Stmt.scopes : Stmt → List (List Stmt)
  | .block _ body => [body]
  | .switch _ _ branches => [branches.flatMap Branch.body]
  | .tryCatch _ body handler final =>
    body.body :: (handler.map Handler.body).toList ++ (final.map Block.body).toList
  | _ => []

/-- The property holds of all scopes in a statement outside of functions. -/
def Stmt.ScopesMeet (c : List Stmt → Prop) (s : Stmt) : Prop :=
  s.Everywhere fun t => ∀ scope ∈ t.scopes, c scope

/-- The property holds of a list and of all scopes in it outside of functions. -/
structure EachScope (c : List Stmt → Prop) (body : List Stmt) : Prop where
  here : c body
  below : stmtsEverywhere (fun s => ∀ scope ∈ s.scopes, c scope) body

/-- The property holds of the statements of a program, and of those of all functions in it. -/
structure Program.EachBody (c : List Stmt → Prop) (p : Program) : Prop where
  outside : c p.body
  inside : ∀ fn ∈ stmtsFunctions p.body, c fn.body

/-! ## Functions that leave their place -/

/-- The functions that a statement declares without a block around them: as the statement itself, or as a
branch of an `if` or under a label. -/
def Stmt.looseFunctions : Stmt → List String
  | .func _ name _ => [name]
  | .ite _ _ yes none => yes.looseFunctions
  | .ite _ _ yes (some no) => yes.looseFunctions ++ no.looseFunctions
  | .label _ _ body => body.looseFunctions
  | _ => []

/-- A function in the list may come to be declared in the list itself. That can be any function if
unreachable statements are dropped. -/
def MaySurface (o : Options) (body : List Stmt) (name : String) : Prop :=
  if o.deadCode then (.func, name) ∈ stmtsBindings body
  else name ∈ body.flatMap Stmt.looseFunctions

instance (o : Options) (body : List Stmt) (name : String) : Decidable (MaySurface o body name) :=
  inferInstanceAs (Decidable (if o.deadCode = true then (.func, name) ∈ stmtsBindings body
    else name ∈ body.flatMap Stmt.looseFunctions))

/-- No function that may come to be declared in the list itself has a name that `let` or `const` binds
there. -/
def NoneSurfaces (o : Options) (body : List Stmt) : Prop :=
  ∀ name ∈ lexicalNames body, ¬ MaySurface o body name

instance (o : Options) (body : List Stmt) : Decidable (NoneSurfaces o body) :=
  inferInstanceAs (Decidable (∀ _ ∈ _, _))

/-- The list declares what the other does, but for functions that come to stand in it. -/
structure DeclaresAlike (o : Options) (before after : List Stmt) : Prop where
  lexicals : lexicalNames after = lexicalNames before
  bindings : stmtsBindings after = stmtsBindings before
  functions : ∀ name ∈ functionNames after, MaySurface o before name

variable {o : Options}

/-- A function declaration needs a scope, so a statement that needs none is no function declaration. -/
theorem Stmt.funcName?_eq_none {s : Stmt} (unscoped : s.isScoped = false) : s.funcName? = none := by
  cases s with
  | func pl name fn => cases unscoped
  | _ => rfl

/-- Unwrapping blocks and joining expressions keep the functions that a list declares itself. -/
theorem functionNames_congruence : ListCongruence fun a b => functionNames a = functionNames b where
  refl _ := rfl
  symm same := same.symm
  trans first second := first.trans second
  append head tail := by simp_all [functionNames]
  empty _ := rfl
  block pl body noBlock := by
    refine List.filterMap_eq_nil_iff.mpr fun s mem => Stmt.funcName?_eq_none ?_
    simpa using List.any_eq_false.mp noBlock s mem
  comma _ _ _ _ _ _ := rfl
  ret _ _ _ _ _ _ := rfl
  throw _ _ _ _ _ _ := rfl

/-- A function that a list declares itself is one of its bindings. -/
theorem bindings_of_functionNames {name : String} {body : List Stmt}
    (mem : name ∈ functionNames body) : (.func, name) ∈ stmtsBindings body := by
  induction body with
  | nil => cases mem
  | cons s rest ih =>
    rw [stmtsBindings, Multiset.mem_add]
    cases s with
    | func pl found fn =>
      obtain rfl | later := List.mem_cons.mp mem
      · exact .inl (Multiset.mem_singleton_self _)
      · exact .inr (ih later)
    | _ => exact .inr (ih mem)

section Conditions

variable {span : Span} {test : Expr} {truth : Bool} {yes : Stmt} {no : Option Stmt} {name : String}

/-- If no function is hoisted, those that an `if` comes down to are those of the branch that runs. -/
theorem functionNames_ifRemains (noFunc : (deadHoisted truth yes no).any Hoisted.isFunc = false) :
    functionNames (ifRemains truth yes no) = functionNames (liveBranch truth yes no).toList := by
  have dead : functionNames ((deadHoisted truth yes no).map Hoisted.toStmt) = [] := by
    refine List.filterMap_eq_nil_iff.mpr fun s mem => ?_
    obtain ⟨h, found, rfl⟩ := List.mem_map.mp mem
    cases h with
    | var decl => rfl
    | func span name fn => exact absurd rfl (List.any_eq_false.mp noFunc _ found)
  rw [ifRemains, functionNames, List.filterMap_append, ← functionNames, dead, List.nil_append]
  rfl

/-- An `if` statement with a constant condition becomes a function declaration only if the branch that
runs is one. -/
theorem funcName?_constantIf
    (found : name ∈ (constantIf o span test truth yes no).value.funcName?) :
    ∃ s ∈ liveBranch truth yes no, name ∈ s.funcName? := by
  cases func : (deadHoisted truth yes no).any Hoisted.isFunc with
  | true =>
    rw [value_constantIf_of_func func] at found
    cases found
  | false =>
    obtain live | empty | only | block := @value_constantIf_cases o span test truth yes no func
    · exact ⟨_, live, found⟩
    · rw [empty] at found
      cases found
    · have mem : name ∈ functionNames (unwrapBlocks (ifRemains truth yes no)) := by
        rw [only]
        exact List.mem_filterMap.mpr ⟨_, List.mem_cons_self, found⟩
      rw [functionNames_congruence.unwrapBlocks, functionNames_ifRemains func] at mem
      obtain ⟨s, live, name_eq⟩ := List.mem_filterMap.mp mem
      exact ⟨s, Option.mem_toList.mp live, name_eq⟩
    · rw [block] at found
      cases found

/-- An `if` becomes a function declaration only if a branch of it is one. -/
theorem IfOutcome.funcName?_mem {r : Stmt} (outcome : IfOutcome o span test yes no r)
    (found : name ∈ r.funcName?) : name ∈ yes.funcName? ∨ ∃ s ∈ no, name ∈ s.funcName? := by
  cases outcome with
  | constant yes no known =>
    obtain ⟨s, live, here⟩ := funcName?_constantIf found
    unfold liveBranch at live
    split at live
    · obtain rfl := Option.some.inj live
      exact .inl here
    · exact .inr ⟨s, live, here⟩
  | _ => cases found

end Conditions

/-- A simplified statement is a function declaration only if it is one that was without a block around
it. -/
theorem Stmt.mem_looseFunctions {name : String} :
    (s : Stmt) → name ∈ (s.minify o).value.funcName? → name ∈ s.looseFunctions
  | .block pl body, found => by
    rw [Stmt.minify, Report.value_bind, Report.value_bind, Report.value_pure,
      funcName?_eq_none (isScoped_blockStmt pl _)] at found
    cases found
  | .debugger pl, found => by
    simp only [Stmt.minify, Report.value_pure] at found
    split at found <;> cases found
  | .func pl declared fn, found => by
    cases found
    exact List.mem_cons_self
  | .ite pl test yes no, found => by
    have branch : name ∈ (yes.minify o).value.funcName? ∨
        ∃ s ∈ (minifyElse o no).value, name ∈ s.funcName? := by
      simp only [Stmt.minify, Report.value_bind] at found
      split at found
      · obtain inYes | ⟨s, mem, inNo⟩ := (ifOutcome_simplifyIf _ _ _ _).funcName?_mem found
        · exact .inl inYes
        · exact .inr ⟨s, (Option.filter_eq_some_iff.mp mem).1, inNo⟩
      · cases found
    cases no with
    | none =>
      obtain inYes | ⟨s, mem, -⟩ := branch
      · exact mem_looseFunctions yes inYes
      · cases mem
    | some no =>
      rw [looseFunctions, List.mem_append]
      obtain inYes | ⟨s, mem, inNo⟩ := branch
      · exact .inl (mem_looseFunctions yes inYes)
      · cases mem
        exact .inr (mem_looseFunctions no inNo)
  | .label _ _ body, found => by
    simp only [Stmt.minify, Report.value_bind, value_labelStmt] at found
    split at found
    · exact mem_looseFunctions body found
    · cases found
  | .breakTo .., found | .continueTo .., found | .doWhile .., found | .empty .., found
  | .expr .., found | .forIn .., found | .forLoop .., found | .ret .., found | .switch .., found
  | .throw .., found | .tryCatch .., found | .var .., found | .whileLoop .., found
  | .withObject .., found => by cases found

/-- The functions that simplified statements declare in their list were loose functions before. -/
theorem functionNames_minifyStmts {name : String} {body : List Stmt}
    (found : name ∈ functionNames (minifyStmts o body).value) :
    name ∈ body.flatMap Stmt.looseFunctions := by
  induction body with
  | nil => cases found
  | cons s rest ih =>
    rw [List.flatMap_cons, List.mem_append]
    have either : name ∈ functionNames ([(s.minify o).value] ++ (minifyStmts o rest).value) := found
    rw [functionNames, List.filterMap_append, List.mem_append] at either
    obtain here | later := either
    · obtain ⟨t, mem, name_eq⟩ := List.mem_filterMap.mp here
      obtain rfl := List.mem_singleton.mp mem
      exact .inl (s.mem_looseFunctions name_eq)
    · exact .inr (ih later)

/-! ## Scopes that declare alike -/

theorem Stmt.lexicals_of_lexicalDecl? {s : Stmt} (none : s.lexicalDecl? = none) : s.lexicals = [] := by
  cases s with
  | var outer decl =>
    rw [lexicalDecl?] at none
    split at none
    · next mode => rw [lexicals, VarDecl.lexicals_eq, if_pos mode]
    · cases none
  | _ => rfl

/-- A body that is no `let` or `const` binds nothing. -/
theorem Stmt.BracesLexicals.stmtsLexicals_eq {s body : Stmt} (braced : s.BracesLexicals)
    (mem : body ∈ s.bodies) : stmtsLexicals [body] = [] := by
  rw [stmtsLexicals, lexicals_of_lexicalDecl? (braced body mem)]
  rfl

/-- Nor does it bind anything when it is simplified. -/
theorem Stmt.BracesLexicals.stmtsLexicals_minify {s body : Stmt} (braced : s.BracesLexicals)
    (mem : body ∈ s.bodies) (inBody : body.Everywhere Stmt.BracesLexicals) :
    stmtsLexicals [(body.minify o).value] = [] := by
  have same : stmtsLexicals [(body.minify o).value] = stmtsLexicals [body] :=
    stmtsLexicals_account.minify (fun _ here _ mem => here.stmtsLexicals_eq mem) body inBody
  rw [same, braced.stmtsLexicals_eq mem]

/-- A simplified list declares alike: the same names by `let`, `const` and `var`, and no function that
could not surface. -/
theorem declaresAlike_minifyBody {body : List Stmt}
    (braced : stmtsEverywhere Stmt.BracesLexicals body) :
    DeclaresAlike o body (minifyBody o body).value where
  lexicals := by
    have same : stmtsLexicals (minifyBody o body).value = stmtsLexicals body :=
      stmtsLexicals_account.minifyBody (fun _ here _ mem => here.stmtsLexicals_eq mem) body braced
    rw [lexicalNames, same]
    rfl
  bindings := by rw [minifyBody, Report.value_bind, stmtsBindings_tighten, stmtsBindings_minify]
  functions name found := by
    unfold MaySurface
    split
    · have inside := bindings_of_functionNames found
      rwa [minifyBody, Report.value_bind, stmtsBindings_tighten, stmtsBindings_minify] at inside
    · next dead =>
      have same : functionNames (minifyBody o body).value = functionNames (minifyStmts o body).value := by
        rw [minifyBody, Report.value_bind, value_tighten, if_neg dead]
        dsimp only
        split
        · rw [functionNames_congruence.fuse, functionNames_congruence.unwrapBlocks]
        · rw [functionNames_congruence.unwrapBlocks]
      exact functionNames_minifyStmts (same ▸ found)

/-- A function may surface in two lists together if it may surface in one of them. -/
theorem maySurface_append {a b : List Stmt} {name : String} :
    MaySurface o (a ++ b) name ↔ MaySurface o a name ∨ MaySurface o b name := by
  unfold MaySurface
  split
  · rw [stmtsBindings_append, Multiset.mem_add]
  · rw [List.flatMap_append, List.mem_append]

/-- Lists that declare alike do so one after the other. -/
theorem DeclaresAlike.append {a b c d : List Stmt} (head : DeclaresAlike o a b)
    (tail : DeclaresAlike o c d) : DeclaresAlike o (a ++ c) (b ++ d) where
  lexicals := by
    have first := head.lexicals
    have second := tail.lexicals
    simp_all [lexicalNames, stmtsLexicals_append]
  bindings := by rw [stmtsBindings_append, stmtsBindings_append, head.bindings, tail.bindings]
  functions name found := by
    rw [functionNames, List.filterMap_append, List.mem_append] at found
    exact maySurface_append.mpr (found.imp (head.functions name) (tail.functions name))

/-- The branches of a `switch` are simplified one by one, and declare alike together. -/
theorem declaresAlike_minifyBranches {branches : List Branch}
    (braced : branchesEverywhere Stmt.BracesLexicals branches) :
    DeclaresAlike o (branches.flatMap Branch.body)
      ((minifyBranches o branches).value.flatMap Branch.body) := by
  induction branches with
  | nil => exact ⟨rfl, rfl, by rintro _ ⟨⟩⟩
  | cons branch rest ih =>
    obtain ⟨span, test, body⟩ := branch
    exact (declaresAlike_minifyBody braced.1).append (ih braced.2)

/-! ## Scopes of simplified statements -/

section ScopesMeet

variable {c : List Stmt → Prop}

/-- Unwrapping blocks makes no scope. -/
theorem scopesMeet_unwrapBlocks {stmts : List Stmt} (each : ∀ s ∈ stmts, s.ScopesMeet c) :
    ∀ t ∈ unwrapBlocks stmts, t.ScopesMeet c := by
  intro t mem
  obtain ⟨s, found, inside⟩ := List.mem_flatMap.mp mem
  have meets := each s found
  unfold Stmt.unwrapped at inside
  split at inside
  · split at inside
    · obtain rfl := List.mem_singleton.mp inside
      exact meets
    · exact stmtsEverywhere_iff.mp meets.2 t inside
  · cases inside
  · obtain rfl := List.mem_singleton.mp inside
    exact meets

theorem Hoisted.scopesMeet_toStmt (h : Hoisted) : h.toStmt.ScopesMeet c := by
  cases h <;> exact fun _ mem => by cases mem

/-- What is kept of an unreachable statement has no scopes in it. -/
theorem Stmt.scopesMeet_kept (s : Stmt) : ∀ t ∈ s.kept, t.ScopesMeet c := by
  have each (hoisted : List Hoisted) : ∀ t ∈ hoisted.map Hoisted.toStmt, t.ScopesMeet c := by
    intro t mem
    obtain ⟨h, _, rfl⟩ := List.mem_map.mp mem
    exact h.scopesMeet_toStmt
  cases s with
  | func pl name fn =>
    intro t mem
    obtain rfl := List.mem_singleton.mp mem
    exact fun _ mem => by cases mem
  | _ => exact each _

/-- Dropping unreachable statements makes no scope. -/
theorem scopesMeet_dropUnreachable {stmts : List Stmt} (each : ∀ s ∈ stmts, s.ScopesMeet c) :
    ∀ t ∈ (dropUnreachable o stmts).value, t.ScopesMeet c := by
  intro t mem
  rw [value_dropUnreachable, List.mem_append] at mem
  obtain reached | behind := mem
  · refine each t ?_
    rw [← splitAtJump_append stmts]
    exact List.mem_append_left _ reached
  · obtain ⟨s, _, inside⟩ := List.mem_flatMap.mp behind
    exact s.scopesMeet_kept t inside

/-- Joining expressions makes no scope. -/
theorem scopesMeet_joinRuns {pending : Option (Place × Expr)} {stmts : List Stmt}
    (each : ∀ s ∈ stmts, s.ScopesMeet c) : ∀ t ∈ joinRuns pending stmts, t.ScopesMeet c := by
  have expr (pl : Place) (e : Expr) : (Stmt.expr pl e).ScopesMeet c := fun _ mem => by cases mem
  fun_induction joinRuns pending stmts with
  | case1 => exact each
  | case2 pl e => simpa using expr pl e
  | case3 pl e rest ih => exact ih (List.forall_mem_cons.mp each).2
  | case4 pl first next second rest span ih => exact ih (List.forall_mem_cons.mp each).2
  | case5 s rest other ih =>
    obtain ⟨head, tail⟩ := List.forall_mem_cons.mp each
    exact List.forall_mem_cons.mpr ⟨head, ih tail⟩
  | case6 pl e s rest other ih =>
    obtain ⟨head, tail⟩ := List.forall_mem_cons.mp each
    exact List.forall_mem_cons.mpr ⟨expr pl e, List.forall_mem_cons.mpr ⟨head, ih tail⟩⟩

theorem scopesMeet_fuse {stmts : List Stmt} (each : ∀ s ∈ stmts, s.ScopesMeet c) :
    ∀ t ∈ fuse stmts, t.ScopesMeet c := by
  unfold fuse
  split
  · intro t mem
    obtain rfl := List.mem_singleton.mp mem
    exact fun _ mem => by cases mem
  · intro t mem
    obtain rfl := List.mem_singleton.mp mem
    exact fun _ mem => by cases mem
  · exact scopesMeet_joinRuns each

/-- Changes to a list make no scope, and change none but that of the list. -/
theorem scopesMeet_tighten {stmts : List Stmt} (each : ∀ s ∈ stmts, s.ScopesMeet c) :
    ∀ t ∈ (tighten o stmts).value, t.ScopesMeet c := by
  have unwrapped := scopesMeet_unwrapBlocks each
  have reached : ∀ t ∈ (if o.deadCode then (dropUnreachable o (unwrapBlocks stmts)).value
      else unwrapBlocks stmts), t.ScopesMeet c := by
    split
    · exact scopesMeet_dropUnreachable unwrapped
    · exact unwrapped
  rw [value_tighten]
  dsimp only
  split
  · exact scopesMeet_fuse reached
  · exact reached

/-- The scopes of a block are its list and those in the list. -/
theorem scopesMeet_block {pl : Place} {body : List Stmt} :
    (Stmt.block pl body).ScopesMeet c ↔ EachScope c body := by
  constructor
  · intro meets
    exact ⟨meets.1 body List.mem_cons_self, meets.2⟩
  · rintro ⟨here, below⟩
    refine ⟨fun scope mem => ?_, below⟩
    obtain rfl := List.mem_singleton.mp mem
    exact here

/-- A property of all scopes of a list, as one of the list and one of its statements. -/
theorem eachScope_iff {body : List Stmt} :
    EachScope c body ↔ c body ∧ stmtsEverywhere (fun s => ∀ scope ∈ s.scopes, c scope) body :=
  ⟨fun each => ⟨each.here, each.below⟩, fun each => ⟨each.1, each.2⟩⟩

/-- Two properties of all scopes together. -/
theorem EachScope.and {d : List Stmt → Prop} {body : List Stmt} (first : EachScope c body)
    (second : EachScope d body) : EachScope (fun scope => c scope ∧ d scope) body where
  here := ⟨first.here, second.here⟩
  below := stmtsEverywhere_combine
    (fun _ inFirst inSecond scope mem => ⟨inFirst scope mem, inSecond scope mem⟩) body first.below
    second.below

/-- The parts of a `try` statement are scopes of their own. -/
theorem scopesMeet_tryCatch {pl : Place} {body : Block} {handler : Option Handler}
    {final : Option Block} :
    (Stmt.tryCatch pl body handler final).ScopesMeet c ↔
      EachScope c body.body ∧ (∀ h ∈ handler, EachScope c h.body) ∧
        ∀ b ∈ final, EachScope c b.body := by
  obtain ⟨span, body⟩ := body
  rcases handler with _ | ⟨span, param, caught⟩ <;> rcases final with _ | ⟨span, last⟩ <;>
    simp [Stmt.ScopesMeet, Stmt.scopes, eachScope_iff, Block.body, Handler.body] <;> tauto

/-- A block that goes away was no scope with names in it. -/
theorem scopesMeet_blockStmt {pl : Place} {body : List Stmt} (meets : EachScope c body) :
    (blockStmt pl body).ScopesMeet c := by
  unfold blockStmt
  split
  · next only =>
    split
    · exact scopesMeet_block.mpr meets
    · exact meets.below.1
  · exact scopesMeet_block.mpr meets

section Conditions

variable (bare : ∀ scope, stmtsLexicals scope = [] → c scope) {span : Span} {test : Expr} {truth : Bool}
  {yes : Stmt} {no : Option Stmt} (inYes : yes.ScopesMeet c) (inNo : ∀ s ∈ no, s.ScopesMeet c)
include bare inYes inNo

/-- Braces that are put around a branch are a scope without names. -/
theorem scopesMeet_ifStmt : (ifStmt span test yes no).ScopesMeet c := by
  have branch : elseEverywhere (fun t => ∀ scope ∈ t.scopes, c scope) no := by
    cases no with
    | none => trivial
    | some s => exact inNo s rfl
  refine ⟨by rintro _ ⟨⟩, ?_, branch⟩
  split
  · next guarded =>
    have opens : yes.endsWithOpenIf = true := (Bool.and_eq_true_iff.mp guarded).2
    refine scopesMeet_block.mpr ⟨bare _ ?_, inYes, trivial⟩
    cases yes with
    | var outer decl => cases opens
    | _ => rfl
  · exact inYes

/-- What an `if` with a constant condition comes down to has the scopes of its branches. -/
theorem scopesMeet_constantIf (bareYes : stmtsLexicals [yes] = [])
    (bareNo : ∀ s ∈ no, stmtsLexicals [s] = []) :
    (constantIf o span test truth yes no).value.ScopesMeet c := by
  cases func : (deadHoisted truth yes no).any Hoisted.isFunc with
  | true =>
    rw [value_constantIf_of_func func]
    exact scopesMeet_ifStmt bare inYes inNo
  | false =>
    have inLive : ∀ s ∈ liveBranch truth yes no, s.ScopesMeet c := by
      cases truth with
      | true =>
        rintro _ ⟨⟩
        exact inYes
      | false => exact inNo
    have remains : ∀ s ∈ unwrapBlocks (ifRemains truth yes no), s.ScopesMeet c := by
      refine scopesMeet_unwrapBlocks fun s mem => ?_
      obtain dead | live := List.mem_append.mp mem
      · obtain ⟨h, _, rfl⟩ := List.mem_map.mp dead
        exact h.scopesMeet_toStmt
      · exact inLive s (Option.mem_toList.mp live)
    obtain live | empty | only | block := @value_constantIf_cases o span test truth yes no func
    · exact inLive _ live
    · rw [empty]
      rintro _ ⟨⟩
    · exact remains _ (only ▸ List.mem_cons_self)
    · have none : stmtsLexicals (unwrapBlocks (ifRemains truth yes no)) = [] := by
        rw [stmtsLexicals_account.congruence.unwrapBlocks]
        exact stmtsLexicals_account.ifRemains func bareYes bareNo
      rw [block]
      exact scopesMeet_block.mpr ⟨bare _ none, stmtsEverywhere_iff.mpr remains⟩

omit bare inYes inNo in
theorem Stmt.scopesMeet_respan {s : Stmt} (meets : s.ScopesMeet c) : s.respan.ScopesMeet c := by
  cases s with
  | expr pl e => rintro _ ⟨⟩
  | _ => exact meets

/-- So has everything that an `if` can become. -/
theorem IfOutcome.scopesMeet {r : Stmt} (outcome : IfOutcome o span test yes no r)
    (bareYes : stmtsLexicals [yes] = []) (bareNo : ∀ s ∈ no, stmtsLexicals [s] = []) :
    r.ScopesMeet c := by
  cases outcome with
  | constant => exact scopesMeet_constantIf bare inYes inNo bareYes bareNo
  | turned yes idle other =>
    exact scopesMeet_ifStmt bare (inNo other rfl) (by rintro _ ⟨⟩)
  | plain =>
    refine scopesMeet_ifStmt bare (Stmt.scopesMeet_respan inYes) fun s mem => ?_
    obtain ⟨t, found, rfl⟩ := Option.map_eq_some_iff.mp mem
    exact Stmt.scopesMeet_respan (inNo t found)
  | _ => rintro _ ⟨⟩

end Conditions

end ScopesMeet

/-- One property of scopes leads to another on scopes that declare alike, and the other one holds of
scopes in which `let` and `const` bind nothing. -/
structure ScopeRule (o : Options) (before after : List Stmt → Prop) : Prop where
  bare : ∀ scope, stmtsLexicals scope = [] → after scope
  alike : ∀ {a b}, DeclaresAlike o a b → before a → after b

variable {before after : List Stmt → Prop}

/-- If all scopes in the simplified statements are as they should be, so are all those of the simplified
list. -/
theorem EachScope.of_minifyStmts (rule : ScopeRule o before after) {body : List Stmt}
    (braced : stmtsEverywhere Stmt.BracesLexicals body) (here : before body)
    (each : ∀ t ∈ (minifyStmts o body).value, t.ScopesMeet after) :
    EachScope after (minifyBody o body).value where
  here := rule.alike (declaresAlike_minifyBody braced) here
  below := stmtsEverywhere_iff.mpr (scopesMeet_tighten each)

mutual

/-- If one property of scopes leads to another, it does so for all scopes in a simplified statement. -/
theorem Stmt.scopesMeet_minify (rule : ScopeRule o before after) : (s : Stmt) →
    s.Everywhere Stmt.BracesLexicals → s.ScopesMeet before → (s.minify o).value.ScopesMeet after
  | .block pl body, ⟨_, braced⟩, meets => by
    obtain ⟨here, below⟩ := scopesMeet_block.mp meets
    exact scopesMeet_blockStmt
      (.of_minifyStmts rule braced here (scopesMeet_minifyStmts rule body braced below))
  | .debugger pl, _, _ => by
    simp only [Stmt.minify, Report.value_pure]
    split <;> rintro _ ⟨⟩
  | .doWhile _ body _, ⟨_, braced⟩, ⟨_, meets⟩ | .forIn _ _ _ body, ⟨_, braced⟩, ⟨_, meets⟩
  | .forLoop _ _ _ _ body, ⟨_, braced⟩, ⟨_, meets⟩ | .whileLoop _ _ body, ⟨_, braced⟩, ⟨_, meets⟩
  | .withObject _ _ body, ⟨_, braced⟩, ⟨_, meets⟩ =>
    ⟨by rintro _ ⟨⟩, body.scopesMeet_minify rule braced meets⟩
  | .ite pl test yes no, ⟨here, bracedYes, bracedNo⟩, ⟨_, inYes, inNo⟩ => by
    have meetsYes := yes.scopesMeet_minify rule bracedYes inYes
    have meetsNo := scopesMeet_minifyElse rule no bracedNo inNo
    simp only [Stmt.minify, Report.value_bind]
    split
    · refine (ifOutcome_simplifyIf _ _ _ _).scopesMeet rule.bare meetsYes ?_ ?_ ?_
      · intro s mem
        exact meetsNo s (Option.filter_eq_some_iff.mp mem).1
      · exact here.stmtsLexicals_minify List.mem_cons_self bracedYes
      · intro s mem
        have found := (Option.filter_eq_some_iff.mp mem).1
        cases no with
        | none => cases found
        | some no =>
          cases found
          exact here.stmtsLexicals_minify (List.mem_cons_of_mem _ List.mem_cons_self) bracedNo
    · exact scopesMeet_ifStmt rule.bare meetsYes meetsNo
  | .label pl name body, ⟨_, braced⟩, ⟨_, meets⟩ => by
    have inBody := body.scopesMeet_minify rule braced meets
    simp only [Stmt.minify, Report.value_bind, value_labelStmt]
    split
    · exact inBody
    · exact ⟨by rintro _ ⟨⟩, inBody⟩
  | .switch pl subject branches, ⟨_, braced⟩, ⟨scopes, meets⟩ => by
    refine ⟨fun scope mem => ?_, scopesMeet_minifyBranches rule branches braced meets⟩
    obtain rfl := List.mem_singleton.mp mem
    exact rule.alike (declaresAlike_minifyBranches braced) (scopes _ List.mem_cons_self)
  | .tryCatch pl (.mk span body) handler final, ⟨_, braced, bracedHandler, bracedFinal⟩, meets => by
    obtain ⟨inBody, inHandler, inFinal⟩ := scopesMeet_tryCatch.mp meets
    refine scopesMeet_tryCatch.mpr ⟨?_, ?_, ?_⟩
    · exact .of_minifyStmts rule braced inBody.here (scopesMeet_minifyStmts rule body braced inBody.below)
    · exact scopesMeet_minifyHandler rule handler bracedHandler inHandler
    · exact scopesMeet_minifyFinal rule final bracedFinal inFinal
  | .breakTo .., _, _ | .continueTo .., _, _ | .empty .., _, _ | .expr .., _, _ | .func .., _, _
  | .ret .., _, _ | .throw .., _, _ | .var .., _, _ => by rintro _ ⟨⟩

theorem scopesMeet_minifyElse (rule : ScopeRule o before after) : (no : Option Stmt) →
    elseEverywhere Stmt.BracesLexicals no → elseEverywhere (fun t => ∀ scope ∈ t.scopes, before scope) no →
    ∀ s ∈ (minifyElse o no).value, s.ScopesMeet after
  | none, _, _ => by rintro _ ⟨⟩
  | some s, braced, meets => by
    rintro _ ⟨⟩
    exact s.scopesMeet_minify rule braced meets

theorem scopesMeet_minifyStmts (rule : ScopeRule o before after) : (body : List Stmt) →
    stmtsEverywhere Stmt.BracesLexicals body →
    stmtsEverywhere (fun t => ∀ scope ∈ t.scopes, before scope) body →
    ∀ s ∈ (minifyStmts o body).value, s.ScopesMeet after
  | [], _, _ => by rintro _ ⟨⟩
  | s :: rest, braced, meets =>
    List.forall_mem_cons.mpr ⟨s.scopesMeet_minify rule braced.1 meets.1,
      scopesMeet_minifyStmts rule rest braced.2 meets.2⟩

theorem scopesMeet_minifyBranches (rule : ScopeRule o before after) : (branches : List Branch) →
    branchesEverywhere Stmt.BracesLexicals branches →
    branchesEverywhere (fun t => ∀ scope ∈ t.scopes, before scope) branches →
    branchesEverywhere (fun t => ∀ scope ∈ t.scopes, after scope) (minifyBranches o branches).value
  | [], _, _ => trivial
  | .mk _ _ body :: rest, braced, meets =>
    ⟨stmtsEverywhere_iff.mpr (scopesMeet_tighten (scopesMeet_minifyStmts rule body braced.1 meets.1)),
      scopesMeet_minifyBranches rule rest braced.2 meets.2⟩

theorem scopesMeet_minifyHandler (rule : ScopeRule o before after) : (handler : Option Handler) →
    handlerEverywhere Stmt.BracesLexicals handler → (∀ h ∈ handler, EachScope before h.body) →
    ∀ h ∈ (minifyHandler o handler).value, EachScope after h.body
  | none, _, _ => by rintro _ ⟨⟩
  | some (.mk _ _ body), braced, meets => by
    rintro _ ⟨⟩
    obtain ⟨here, below⟩ := meets _ rfl
    exact .of_minifyStmts rule braced here (scopesMeet_minifyStmts rule body braced below)

theorem scopesMeet_minifyFinal (rule : ScopeRule o before after) : (final : Option Block) →
    finalEverywhere Stmt.BracesLexicals final → (∀ b ∈ final, EachScope before b.body) →
    ∀ b ∈ (minifyFinal o final).value, EachScope after b.body
  | none, _, _ => by rintro _ ⟨⟩
  | some (.mk _ body), braced, meets => by
    rintro _ ⟨⟩
    obtain ⟨here, below⟩ := meets _ rfl
    exact .of_minifyStmts rule braced here (scopesMeet_minifyStmts rule body braced below)

end

/-- It does so for all scopes of a simplified list. -/
theorem eachScope_minifyBody (rule : ScopeRule o before after) {body : List Stmt}
    (braced : stmtsEverywhere Stmt.BracesLexicals body) (each : EachScope before body) :
    EachScope after (minifyBody o body).value :=
  .of_minifyStmts rule braced each.here (scopesMeet_minifyStmts rule body braced each.below)

/-- What holds of the simplified statements of each body holds of each body of the simplified program. -/
theorem Program.EachBody.minify {p : Program} {d : List Stmt → Prop}
    (holds : d (minifyBody o p.body).value)
    (inside : ∀ fn ∈ stmtsFunctions p.body, d (minifyBody o fn.body).value) :
    (p.minify o).value.EachBody d where
  outside := holds
  inside := by
    intro fn mem
    obtain ⟨origin, before, rfl⟩ := exists_origin mem
    rw [origin.body_minify]
    exact inside origin before

/-- It does so for all scopes of a simplified program, in functions too. -/
theorem Program.eachScope_minify (rule : ScopeRule o before after) {p : Program}
    (braced : p.EachBody (stmtsEverywhere Stmt.BracesLexicals)) (each : p.EachBody (EachScope before)) :
    (p.minify o).value.EachBody (EachScope after) :=
  .minify (eachScope_minifyBody rule braced.outside each.outside) fun fn mem =>
    eachScope_minifyBody rule (braced.inside fn mem) (each.inside fn mem)

/-! ## Names of simplified scopes -/

/-- A scope without `let` and `const` has no names of theirs. -/
theorem lexicalNames_eq_nil {scope : List Stmt} (none : stmtsLexicals scope = []) :
    lexicalNames scope = [] :=
  congrArg (List.map Prod.snd) none

/-- A clash among `let`, `const` and `var` never comes up. -/
theorem lexicalsApart_rule (o : Options) : ScopeRule o RedeclaresNothing LexicalsApart where
  bare scope none := by constructor <;> simp [lexicalNames_eq_nil none]
  alike same free := by
    constructor
    · rw [same.lexicals]
      exact free.once
    · rw [same.lexicals, same.bindings]
      exact free.noVar

/-- A clash with a function does not come up either, if no function of the name may surface. -/
theorem redeclaresNothing_rule (o : Options) :
    ScopeRule o (fun scope => RedeclaresNothing scope ∧ NoneSurfaces o scope) RedeclaresNothing where
  bare scope none :=
    ⟨(lexicalsApart_rule o).bare scope none, by simp [lexicalNames_eq_nil none]⟩
  alike same free := by
    refine ⟨(lexicalsApart_rule o).alike same free.1, ?_⟩
    intro name bound declared
    exact free.2 name (same.lexicals ▸ bound) (same.functions name declared)

/-- If a program declares nothing twice, then in no scope of the simplified program a name that `let` or
`const` binds clashes with another one or with a `var`. Nor does it clash with a function, if in no scope of
the program a function may come to stand beside a `let` or `const` of its name. -/
theorem redeclarations_minify (o : Options) (p : Program)
    (braced : p.EachBody (stmtsEverywhere Stmt.BracesLexicals))
    (free : p.EachBody (EachScope RedeclaresNothing)) :
    (p.minify o).value.EachBody (EachScope LexicalsApart) ∧
      (p.EachBody (EachScope (NoneSurfaces o)) →
        (p.minify o).value.EachBody (EachScope RedeclaresNothing)) := by
  refine ⟨p.eachScope_minify (lexicalsApart_rule o) braced free, fun none => ?_⟩
  refine p.eachScope_minify (redeclaresNothing_rule o) braced ⟨?_, fun fn mem => ?_⟩
  · exact free.outside.and none.outside
  · exact (free.inside fn mem).and (none.inside fn mem)

/-- The case of `let a; { const b = null; function f() {} } throw x;` before
`{ function g() { let d; e: function h() {} } var c }`. The functions `g` and `h` leave their places. -/
theorem redeclarations_minify_lifted :
    let here : Place := default
    let fn : Func := .mk default [] []
    let outer : Func := .mk default [] [.var default (.mk default .block [.mk "d" none]),
      .label here "e" (.func here "h" fn)]
    let p : Program := ⟨default, [.var default (.mk default .block [.mk "a" none]),
      .block here [.var default (.mk default .const [.mk "b" (some (.null here))]),
        .func here "f" fn],
      .throw here (.ident here "x"),
      .block here [.func here "g" outer, .var default (.mk default .var [.mk "c" none])]]⟩
    let o := Options.all true
    p.EachBody (stmtsEverywhere Stmt.BracesLexicals) ∧ p.EachBody (EachScope RedeclaresNothing) ∧
      p.EachBody (EachScope (NoneSurfaces o)) ∧
      (p.minify o).value.render =
        "let a;\x7bconst b=null;function f()\x7b\x7d\x7dthrow x;" ++
          "function g()\x7blet d;function h()\x7b\x7d\x7dvar c;" ∧
      (p.minify o).value.EachBody (EachScope RedeclaresNothing) := by
  intro here fn outer p o
  have each {c : List Stmt → Prop} (outside : c p.body) (inOuter : c outer.body) (inFn : c []) :
      p.EachBody c := by
    refine ⟨outside, ?_⟩
    intro found mem
    have either : found = fn ∨ found = outer := by
      simp only [p, fn, outer, stmtsFunctions, Census.functions] at mem
      simp at mem
      tauto
    obtain rfl | rfl := either
    · exact inFn
    · exact inOuter
  have braced : p.EachBody (stmtsEverywhere Stmt.BracesLexicals) := by
    refine each ?_ ?_ trivial
    · simp [p, Stmt.BracesLexicals, Stmt.bodies]
    · simp [outer, Func.body, Stmt.BracesLexicals, Stmt.bodies, Stmt.lexicalDecl?]
  have scopes {c : List Stmt → Prop} (outside : c p.body)
      (inBlock : c [.var default (.mk default .const [.mk "b" (some (.null here))]), .func here "f" fn])
      (unreached : c [.func here "g" outer, .var default (.mk default .var [.mk "c" none])])
      (inOuter : c outer.body) (inFn : c []) : p.EachBody (EachScope c) := by
    refine each ⟨outside, ?_⟩ ⟨inOuter, ?_⟩ ⟨inFn, trivial⟩
    · simpa [p, Stmt.scopes] using ⟨inBlock, unreached⟩
    · simp [outer, Func.body, Stmt.scopes]
  have free : p.EachBody (EachScope RedeclaresNothing) := by
    apply scopes <;> decide +kernel
  have noneSurfaces : p.EachBody (EachScope (NoneSurfaces o)) := by
    apply scopes <;> decide +kernel
  exact ⟨braced, free, noneSurfaces, by decide +kernel,
    (redeclarations_minify o p braced free).2 noneSurfaces⟩

/-- The case of `let f; throw x; { function f() {} }`. The function comes to stand beside the `let`. -/
theorem redeclaresNothing_minify_ne :
    let here : Place := default
    let fn : Func := .mk default [] []
    let p : Program := ⟨default, [.var default (.mk default .block [.mk "f" none]),
      .throw here (.ident here "x"), .block here [.func here "f" fn]]⟩
    let o := Options.all true
    p.EachBody (stmtsEverywhere Stmt.BracesLexicals) ∧ p.EachBody (EachScope RedeclaresNothing) ∧
      (p.minify o).value.render = "let f;throw x;function f()\x7b\x7d" ∧
      ¬ (p.minify o).value.EachBody (EachScope RedeclaresNothing) := by
  intro here fn p o
  have functions : ∀ found ∈ stmtsFunctions p.body, found = fn := by
    intro found mem
    simpa [p, fn, stmtsFunctions, Census.functions] using mem
  refine ⟨⟨?_, ?_⟩, ⟨⟨?_, ?_⟩, ?_⟩, by decide +kernel, ?_⟩
  · simp [p, Stmt.BracesLexicals, Stmt.bodies]
  · intro found mem
    rw [functions found mem]
    trivial
  · decide +kernel
  · have block : RedeclaresNothing [Stmt.func here "f" fn] := by decide +kernel
    simpa [p, Stmt.scopes] using block
  · intro found mem
    rw [functions found mem]
    exact ⟨by decide +kernel, trivial⟩
  · intro free
    exact absurd free.outside.here (by decide +kernel)

end Minifier
