import Mathlib.Data.List.Forall2
import Minifier.Proofs.Grammar.Tokens
import Minifier.Proofs.Grammar.Unambiguous
import Minifier.Proofs.Grammar.WellFormed

/-!
# Printed expressions are read back

The tokens of a well-formed expression stand for that expression, as it is written, and for no
other. Each level of the printer is the nonterminal that the grammar has for it, so an operand that
binds as tightly as its position demands is derived without parentheses, and any other one with
them. Calls and accesses share a level but not a nonterminal: below `new` only those can stand that
hold no call outside of parentheses and brackets.
-/

namespace Minifier.Grammar

/-- The nonterminal of what binds at least as tightly as a level demands. -/
def Nonterminal.ofLevel : Nat → Nonterminal
  | 0 | 1 => expression
  | 2 | 3 => assignment
  | 4 => conditional
  | 5 => logicalOr
  | 6 => logicalAnd
  | 7 => bitwiseOr
  | 8 => bitwiseXor
  | 9 => bitwiseAnd
  | 10 => equality
  | 11 => relational
  | 12 => shift
  | 13 => additive
  | 14 => multiplicative
  | 15 | 16 => unary
  | 17 => postfixed
  | _ => leftHandSide

open Nonterminal (ofLevel)

/-- One level up the nonterminal is the same, or one that the lower one consists of. -/
theorem ofLevel_succ (level : Nat) :
    ofLevel (level + 1) = ofLevel level ∨ ofLevel (level + 1) ∈ (ofLevel level).units := by
  match level with
  | 0 | 1 | 2 | 3 | 4 | 5 | 6 | 7 | 8 | 9 | 10 | 11 | 12 | 13 | 14 | 15 | 16 | 17 => decide
  | level + 18 => exact .inl rfl

/-- What binds as tightly as an access is a left-hand side. -/
theorem ofLevel_of_le {level : Nat} (access : accessLevel ≤ level) :
    ofLevel level = .leftHandSide := by
  obtain ⟨more, rfl⟩ := Nat.exists_eq_add_of_le access
  rw [accessLevel, Nat.add_comm]
  rfl

variable {a b c ts : List Token} {us vs : List Terminal} {t : Token} {u : Terminal}
variable {n : Nonterminal} {e left right : Expr} {op : Operator}

/-- What is derived at a level is derived at all lower levels. -/
theorem Derives.lower {low high : Nat} (le : low ≤ high)
    (derives : Derives (.expr (ofLevel high)) us e) : Derives (.expr (ofLevel low)) us e := by
  induction le with
  | refl => exact derives
  | @step high le ih =>
    apply ih
    obtain same | mem := ofLevel_succ high
    · rwa [← same]
    · exact .unit mem derives

/-! ## Lists of tokens that are read -/

/-- The tokens are read as terminals that stand for `x`. -/
def ReadAs {α : Type} (Stands : List Terminal → α → Prop) (ts : List Token) (x : α) : Prop :=
  ∃ us, terminals? ts = some us ∧ Stands us x

/-- There is a first token, and it is no point. -/
def Begins (ts : List Token) : Prop :=
  ∃ t rest, ts = t :: rest ∧ t ≠ .punct "."

/-- The tokens are those of an expression that stands for a nonterminal. -/
structure Printed (n : Nonterminal) (ts : List Token) (e : Expr) : Prop where
  begins : Begins ts
  reads : ReadAs (Derives (.expr n)) ts e

/-- How a list of tokens begins does not depend on what follows it. -/
theorem Begins.append (begins : Begins a) (b : List Token) : Begins (a ++ b) := by
  obtain ⟨t, rest, rfl, other⟩ := begins
  exact ⟨t, rest ++ b, rfl, other⟩

theorem Begins.startsWithPoint_eq (begins : Begins ts) : startsWithPoint ts = false := by
  obtain ⟨t, rest, rfl, other⟩ := begins
  simpa [startsWithPoint] using other

theorem begins_parens (ts : List Token) : Begins (inParens ts) :=
  ⟨_, _, rfl, by decide⟩

/-- Two lists of tokens with a token between them that is neither a number nor a point. -/
theorem terminals_infix (noPoint : t ≠ .punct ".") (noNumber : isWhole t = false)
    (first : terminals? a = some us) (middle : terminal? t = some u)
    (second : terminals? b = some vs) : terminals? (a ++ t :: b) = some (us ++ u :: vs) := by
  have apart : startsWithPoint (t :: b) = false := by simpa [startsWithPoint] using noPoint
  exact terminals_append (.inr apart) first (terminals_cons (.inl noNumber) middle second)

/-- What stands for a nonterminal stands for every other one that derives as much. -/
theorem Printed.mono {m n : Nonterminal} (printed : Printed m ts e)
    (weaker : ∀ us, Derives (.expr m) us e → Derives (.expr n) us e) : Printed n ts e where
  begins := printed.begins
  reads := by
    obtain ⟨us, read, derives⟩ := printed.reads
    exact ⟨us, read, weaker us derives⟩

/-- An expression in parentheses stands for a primary expression. -/
theorem Printed.parens (printed : Printed (ofLevel 0) ts e) : Printed .primary (inParens ts) e where
  begins := begins_parens ts
  reads := by
    obtain ⟨us, read, derives⟩ := printed.reads
    exact ⟨_, terminals_between _ _ (by decide) read, .parens derives⟩

/-- A single token stands for a primary expression. -/
theorem Printed.atom (noPoint : t ≠ .punct ".") (read : terminal? t = some u) (atom : Atom u e) :
    Printed .primary [t] e where
  begins := ⟨t, [], rfl, noPoint⟩
  reads := ⟨[u], terminals_singleton read, .atom atom⟩

/-! ## Levels and nonterminals -/

/-- Whether a call that is not below `new` is part of a chain of accesses. -/
def chainsCall : Expr → Bool
  | .call _ isNew _ _ => !isNew
  | .member _ object _ => chainsCall object
  | .index _ object _ => chainsCall object
  | _ => false

/-- The nonterminal of an expression that is called or accessed. -/
def accessOf (e : Expr) : Nonterminal :=
  if chainsCall e then .call else .member

/-- The nonterminal of an expression when it is printed without parentheses. -/
def nonterminalOf (e : Expr) : Nonterminal :=
  if accessLevel ≤ e.level then accessOf e else ofLevel e.level

/-- Every operator binds less tightly than an access. -/
theorem precedence_lt (op : Operator) : op.precedence < accessLevel := by
  cases op <;> decide

/-- What binds less tightly than an access is no chain of accesses, so no call is part of it. -/
theorem chainsCall_of_level (low : e.level < accessLevel) : chainsCall e = false := by
  cases e with
  | call | index | member => exact absurd low (Nat.lt_irrefl _)
  | _ => rfl

/-- A callee below `new` that has no call in its chain stands for a member expression. -/
theorem chainsCall_of_calleeHasCall : (e : Expr) → e.calleeHasCall = false → chainsCall e = false
  | .call .., free => by cases free
  | .member _ object _, free => chainsCall_of_calleeHasCall object free
  | .index _ object _, free => chainsCall_of_calleeHasCall object free
  | .binary .., _ | .cond .., _ | .func .., _ | .ident .., _ | .this _, _ | .unary .., _
  | .update .., _ | .array .., _ | .bool .., _ | .null _, _ | .num .., _ | .object .., _
  | .regex .., _ | .str .., _ | .undef _, _ => rfl

theorem accessOf_mem (e : Expr) : accessOf e ∈ [Nonterminal.member, .call] := by
  unfold accessOf
  split <;> simp

/-- A chain of accesses is a left-hand side, with a call in it or without. -/
theorem Derives.leftHandSide_of_access (derives : Derives (.expr (accessOf left)) us e) :
    Derives (.expr .leftHandSide) us e := by
  by_cases chains : chainsCall left
  · rw [accessOf, if_pos chains] at derives
    exact .unit (by decide) derives
  · rw [accessOf, if_neg chains] at derives
    exact .unit (m := .newExpr) (by decide) (.unit (by decide) derives)

/-- The nonterminal of an expression is one of those its level stands for. -/
theorem Derives.level_of_nonterminal (derives : Derives (.expr (nonterminalOf left)) us e) :
    Derives (.expr (ofLevel left.level)) us e := by
  by_cases access : accessLevel ≤ left.level
  · rw [nonterminalOf, if_pos access] at derives
    rw [ofLevel_of_le access]
    exact derives.leftHandSide_of_access
  · rwa [nonterminalOf, if_neg access] at derives

theorem Printed.asMember (printed : Printed .primary ts e) : Printed .member ts e :=
  printed.mono fun _ => .unit (by decide)

/-- A primary expression fits at every level up to that of accesses. -/
theorem Printed.atLevel (printed : Printed .primary ts e) {level : Nat} (most : level ≤ accessLevel) :
    Printed (ofLevel level) ts e := by
  refine printed.asMember.mono fun us derives => Derives.lower most ?_
  have created : Derives (.expr .newExpr) us e := .unit (by decide) derives
  exact .unit (by decide) created

/-- Whatever is printed without parentheses is an expression. -/
theorem Printed.whole {tree : Expr} (printed : Printed (nonterminalOf e) ts tree) :
    Printed (ofLevel 0) ts tree :=
  printed.mono fun _ derives => derives.level_of_nonterminal.lower (Nat.zero_le _)

/-- An operand stands in its position, in parentheses if need be. -/
theorem Printed.fit {tree : Expr} (least : Nat) (most : least ≤ accessLevel)
    (printed : Printed (nonterminalOf e) ts tree) : Printed (ofLevel least) (e.fit least ts) tree := by
  unfold Expr.fit
  split
  · exact printed.whole.parens.atLevel most
  · next tight =>
    exact printed.mono fun us derives => derives.level_of_nonterminal.lower (Nat.le_of_not_lt tight)

/-- What is called or accessed stands in its position, in parentheses if need be. -/
theorem Printed.fitAccess {tree : Expr} (printed : Printed (nonterminalOf e) ts tree) :
    Printed (accessOf e) (e.fit accessLevel ts) tree := by
  unfold Expr.fit
  split
  · next low =>
    rw [accessOf, chainsCall_of_level low]
    exact printed.whole.parens.asMember
  · next tight =>
    rwa [nonterminalOf, if_pos (Nat.le_of_not_lt tight)] at printed

/-! ## Operators -/

/-- Every operator between two operands that stores nothing has a production, at the level of its
precedence, with operands of the levels it is printed with. -/
theorem mem_infixes (between : op.position? = some .between) (free : op.needsTarget = false) :
    op.leftLevel = op.precedence ∧ ∃ u ∈ terminal? op.infixToken,
      (u, op, ofLevel op.rightLevel) ∈ (ofLevel op.precedence).infixes := by
  revert between free
  cases op <;> decide

/-- Every operator that stores is one of the assignment operators, and its right operand is another
assignment. -/
theorem mem_assignments (between : op.position? = some .between) (stores : op.needsTarget = true) :
    op.precedence = 3 ∧ op.rightLevel = 3 ∧
      ∃ u ∈ terminal? op.infixToken, (u, op) ∈ assignments := by
  revert between stores
  cases op <;> decide

/-- Every operator before an operand has a production. -/
theorem mem_prefixes (before : op.position? = some .before) :
    ∃ u ∈ terminal? op.unaryToken, (u, op) ∈ prefixes := by
  revert before
  cases op <;> decide

/-- Every operator behind an operand has a production. -/
theorem mem_suffixes (behind : op.position? = some .behind) : (.punct op.text, op) ∈ suffixes := by
  revert behind
  cases op <;> decide

/-- The token of an operator is never taken together with the point of a number before it. -/
theorem infixToken_apart (op : Operator) :
    op.infixToken ≠ .punct "." ∧ isWhole op.infixToken = false := by
  cases op <;> decide

theorem unaryToken_apart (op : Operator) :
    op.unaryToken ≠ .punct "." ∧ isWhole op.unaryToken = false := by
  cases op <;> decide

/-- An operator behind its operand stores something there. -/
theorem needsTarget_of_behind (behind : op.position? = some .behind) : op.needsTarget = true := by
  revert behind
  cases op <;> decide

/-- A binary expression is read from its operands and the operator between them. -/
theorem Printed.binary (between : op.position? = some .between) (free : op.needsTarget = false)
    (first : Printed (ofLevel op.leftLevel) a left)
    (second : Printed (ofLevel op.rightLevel) b right) :
    Printed (ofLevel op.precedence) (a ++ op.infixToken :: b) (.binary default op left right) where
  begins := first.begins.append _
  reads := by
    obtain ⟨us, readFirst, derivesFirst⟩ := first.reads
    obtain ⟨vs, readSecond, derivesSecond⟩ := second.reads
    obtain ⟨same, u, read, mem⟩ := mem_infixes between free
    obtain ⟨noPoint, noNumber⟩ := infixToken_apart op
    rw [same] at derivesFirst
    exact ⟨_, terminals_infix noPoint noNumber readFirst read readSecond,
      .binary mem derivesFirst derivesSecond⟩

/-- An assignment is read from its target, the operator and the value. -/
theorem Printed.assign (between : op.position? = some .between) (stores : op.needsTarget = true)
    (first : Printed .leftHandSide a left) (second : Printed (ofLevel op.rightLevel) b right) :
    Printed (ofLevel op.precedence) (a ++ op.infixToken :: b) (.binary default op left right) where
  begins := first.begins.append _
  reads := by
    obtain ⟨us, readFirst, derivesFirst⟩ := first.reads
    obtain ⟨vs, readSecond, derivesSecond⟩ := second.reads
    obtain ⟨level, rightLevel, u, read, mem⟩ := mem_assignments between stores
    obtain ⟨noPoint, noNumber⟩ := infixToken_apart op
    rw [rightLevel] at derivesSecond
    rw [level]
    exact ⟨_, terminals_infix noPoint noNumber readFirst read readSecond,
      .assign mem derivesFirst derivesSecond⟩

/-- An operator and the operand behind it. -/
theorem Printed.unary (before : op.position? = some .before)
    (inner : Printed (ofLevel unaryLevel) ts e) :
    Printed (ofLevel unaryLevel) (op.unaryToken :: ts) (.unary default op e) where
  begins := ⟨_, _, rfl, (unaryToken_apart op).1⟩
  reads := by
    obtain ⟨us, readInner, derives⟩ := inner.reads
    obtain ⟨u, read, mem⟩ := mem_prefixes before
    exact ⟨_, terminals_cons (.inl (unaryToken_apart op).2) read readInner, .unary mem derives⟩

/-- A target and the operator behind it. -/
theorem Printed.update (behind : op.position? = some .behind)
    (inner : Printed .leftHandSide ts e) :
    Printed (ofLevel targetLevel) (ts ++ [.punct op.text]) (.update default op e) where
  begins := inner.begins.append _
  reads := by
    obtain ⟨us, readInner, derives⟩ := inner.reads
    have mem := mem_suffixes behind
    have noPoint : op.text ≠ "." := by
      rintro eq
      rw [eq] at mem
      simp [suffixes] at mem
    have read := terminals_singleton (terminal_punct op.text)
    exact ⟨_, terminals_append (.inr (by simpa using noPoint)) readInner read, .suffix mem derives⟩

/-- A condition and two branches, which may be assignments. -/
theorem Printed.cond {test yes no : Expr} (first : Printed (ofLevel 5) a test)
    (second : Printed (ofLevel assignmentLevel) b yes)
    (third : Printed (ofLevel assignmentLevel) c no) :
    Printed (ofLevel 4) (a ++ .punct "?" :: b ++ .punct ":" :: c)
      (.cond default test yes no) where
  begins := (first.begins.append _).append _
  reads := by
    obtain ⟨us, readFirst, derivesFirst⟩ := first.reads
    obtain ⟨vs, readSecond, derivesSecond⟩ := second.reads
    obtain ⟨ws, readThird, derivesThird⟩ := third.reads
    have both := terminals_infix (by decide) rfl readFirst (terminal_punct "?") readSecond
    exact ⟨_, terminals_infix (by decide) rfl both (terminal_punct ":") readThird,
      .cond derivesFirst derivesSecond derivesThird⟩

/-- What can be assigned to binds as tightly as an access, so it is printed without parentheses. -/
theorem isTarget_level (target : e.isTarget = true) : accessLevel ≤ e.level := by
  cases e with
  | ident => exact (by decide : accessLevel ≤ primaryLevel)
  | member | index => exact Nat.le_refl _
  | _ => cases target

/-- A target needs no parentheses. -/
theorem Printed.target {tree : Expr} (target : e.isTarget = true) {least : Nat}
    (most : least ≤ accessLevel) (printed : Printed (nonterminalOf e) ts tree) :
    Printed .leftHandSide (e.fit least ts) tree := by
  have level := isTarget_level target
  rw [Expr.fit, if_neg (by omega)]
  refine printed.mono fun us derives => ?_
  rw [nonterminalOf, if_pos level] at derives
  exact derives.leftHandSide_of_access

/-! ## Lists -/

/-- Lists with commas between them are the first one and each other one behind a comma. -/
theorem commaJoined_cons (ts : List Token) (rest : List (List Token)) :
    commaJoined (ts :: rest) = ts ++ rest.flatMap (.punct "," :: ·) := by
  induction rest generalizing ts with
  | nil => simp [commaJoined]
  | cons next rest ih => rw [commaJoined, ih, List.flatMap_cons, List.cons_append]; simp

theorem startsWithPoint_rest (rest : List (List Token)) :
    startsWithPoint (rest.flatMap (.punct "," :: ·)) = false := by
  cases rest with
  | nil => rfl
  | cons => simp

section CommaJoined

variable {α : Type} (Item : List Terminal → α → Prop) (All : List Terminal → List α → Prop)

/-- What follows the first item of a list extend what stands for the items before. -/
theorem reads_rest
    (next : ∀ {us vs xs x}, All us xs → Item vs x → All (us ++ .punct "," :: vs) (xs ++ [x]))
    {tss : List (List Token)} {ys : List α} (items : List.Forall₂ (ReadAs Item) tss ys) :
    ∃ vs, terminals? (tss.flatMap (.punct "," :: ·)) = some vs ∧
      ∀ {us xs}, All us xs → All (us ++ vs) (xs ++ ys) := by
  induction items with
  | nil => exact ⟨[], rfl, by simp⟩
  | @cons ts y tss ys item _ ih =>
    obtain ⟨us, read, stands⟩ := item
    obtain ⟨vs, readRest, extend⟩ := ih
    refine ⟨.punct "," :: us ++ vs, ?_, fun {ws xs} before => ?_⟩
    · rw [List.flatMap_cons]
      have first := terminals_cons (.inl rfl) (terminal_punct ",") read
      exact terminals_append (.inr (startsWithPoint_rest tss)) first readRest
    · have more := extend (next before stands)
      simpa using more

/-- Items that are read are read as a list when commas are put between them. -/
theorem reads_commaJoined (single : ∀ {us x}, Item us x → All us [x])
    (next : ∀ {us vs xs x}, All us xs → Item vs x → All (us ++ .punct "," :: vs) (xs ++ [x]))
    {ts : List Token} {tss : List (List Token)} {x : α} {xs : List α} (first : ReadAs Item ts x)
    (items : List.Forall₂ (ReadAs Item) tss xs) :
    ReadAs All (commaJoined (ts :: tss)) (x :: xs) := by
  obtain ⟨us, read, stands⟩ := first
  obtain ⟨vs, readRest, extend⟩ := reads_rest Item All next items
  rw [commaJoined_cons]
  exact ⟨_, terminals_append (.inr (startsWithPoint_rest tss)) read readRest, extend (single stands)⟩

end CommaJoined

/-- Arguments that are read one by one are read together. -/
theorem reads_arguments {tss : List (List Token)} {args : List Expr}
    (items : List.Forall₂ (ReadAs (Derives (.expr .assignment))) tss args) :
    ReadAs (Derives .arguments) (inParens (commaJoined tss)) args := by
  cases items with
  | nil => exact ⟨_, rfl, .noArguments⟩
  | cons first rest =>
    obtain ⟨us, read, derives⟩ :=
      reads_commaJoined _ (Derives .argumentList) .firstArgument .nextArgument first rest
    exact ⟨_, terminals_between _ _ (by decide) read, .someArguments derives⟩

/-- A property name, a colon and a value. -/
inductive Property : List Terminal → Member → Prop
  | value {t : Terminal} {us : List Terminal} {key : String} {e : Expr}
    (isKey : t.key? = some key) (inner : Derives (.expr .assignment) us e) :
    Property (t :: .punct ":" :: us) (.value default key e)

/-- Members that are read one by one are read together. -/
theorem reads_object {tss : List (List Token)} {members : List Member}
    (items : List.Forall₂ (ReadAs Property) tss members) :
    ReadAs (Derives (.expr .primary)) (inBraces (commaJoined tss)) (.object default members) := by
  cases items with
  | nil => exact ⟨_, rfl, .emptyObject⟩
  | cons first rest =>
    have single {us : List Terminal} {m : Member} (property : Property us m) :
        Derives .propertyList us [m] := by
      obtain ⟨isKey, inner⟩ := property
      exact .firstProperty isKey inner
    have next {us vs : List Terminal} {ms : List Member} {m : Member}
        (list : Derives .propertyList us ms) (property : Property vs m) :
        Derives .propertyList (us ++ .punct "," :: vs) (ms ++ [m]) := by
      obtain ⟨isKey, inner⟩ := property
      exact .nextProperty list isKey inner
    obtain ⟨us, read, derives⟩ := reads_commaJoined Property (Derives .propertyList) single next first rest
    exact ⟨_, terminals_between _ _ (by decide) read, .object derives⟩

/-! ## Array literals -/

/-- The tokens between the brackets of an array literal. -/
def arrayTokens (elements : List (Option Expr)) : List Token :=
  commaJoined (elementTokens elements) ++
    match elements.getLast? with
    | some none => [.punct ","]
    | _ => []

/-- A hole is a comma, also at the end. -/
theorem arrayTokens_hole (rest : List (Option Expr)) :
    arrayTokens (none :: rest) = .punct "," :: arrayTokens rest := by
  cases rest with
  | nil => rfl
  | cons next others =>
    cases next <;> simp only [arrayTokens, elementTokens, commaJoined, List.getLast?_cons_cons,
      List.nil_append, List.cons_append]

theorem arrayTokens_single (e : Expr) :
    arrayTokens [some e] = e.fit assignmentLevel e.tokens := by
  simp [arrayTokens, elementTokens, commaJoined]

/-- Between two elements of an array literal there is a comma, the second may be a hole. -/
theorem arrayTokens_element (e : Expr) (next : Option Expr) (rest : List (Option Expr)) :
    arrayTokens (some e :: next :: rest) =
      e.fit assignmentLevel e.tokens ++ .punct "," :: arrayTokens (next :: rest) := by
  cases next with
  | none | some =>
    simp only [arrayTokens, elementTokens, commaJoined, List.getLast?_cons_cons, List.append_assoc,
      List.cons_append]

/-- The terminals stand for the elements when they are put in brackets. -/
def Contents (us : List Terminal) (elements : List (Option Expr)) : Prop :=
  Derives (.expr .primary) (.punct "[" :: us ++ [.punct "]"]) (.array default elements)

/-- Elements are read from the first one on, and also behind others: behind `n` commas alone, or
behind a list, its comma and `n` more. -/
theorem reads_elements : (elements : List (Option Expr)) →
    (∀ e, some e ∈ elements →
      ReadAs (Derives (.expr .assignment)) (e.fit assignmentLevel e.tokens) e.written) →
    ∃ us, terminals? (arrayTokens elements) = some us ∧
      (∀ n, Contents (elision n ++ us) (holes n ++ writtenElements elements)) ∧
      ∀ n vs before, Derives .elementList vs before →
        Contents (vs ++ .punct "," :: elision n ++ us)
          (before ++ holes n ++ writtenElements elements)
  | [], _ => by
    refine ⟨[], rfl, fun n => ?_, fun n vs before list => ?_⟩
    · simpa [Contents] using Derives.arrayOfHoles n
    · simpa [Contents] using Derives.arrayWithHoles list n
  | none :: rest, all => by
    obtain ⟨us, read, first, later⟩ := reads_elements rest fun e mem => all e (.tail _ mem)
    have comma (n : Nat) : elision n ++ .punct "," :: us = elision (n + 1) ++ us := by
      simp [elision, List.replicate_succ']
    have hole (n : Nat) : holes n ++ none :: writtenElements rest =
        holes (n + 1) ++ writtenElements rest := by
      simp [holes, List.replicate_succ']
    refine ⟨.punct "," :: us, ?_, fun n => ?_, fun n vs before list => ?_⟩
    · rw [arrayTokens_hole]
      exact terminals_cons (.inl rfl) (terminal_punct ",") read
    · rw [writtenElements, comma, hole]
      exact first (n + 1)
    · rw [writtenElements, List.append_assoc, List.cons_append, comma, List.append_assoc, hole]
      simpa using later (n + 1) vs before list
  | [some e], all => by
    obtain ⟨us, read, derives⟩ := all e (.head _)
    refine ⟨us, ?_, fun n => ?_, fun n vs before list => ?_⟩
    · rw [arrayTokens_single]
      exact read
    · exact .array (.firstElement n derives)
    · exact .array (.nextElement list n derives)
  | some e :: next :: rest, all => by
    obtain ⟨us, read, derives⟩ := all e (.head _)
    obtain ⟨vs, readRest, -, later⟩ := reads_elements (next :: rest) fun e mem => all e (.tail _ mem)
    refine ⟨us ++ .punct "," :: vs, ?_, fun n => ?_, fun n ws before list => ?_⟩
    · rw [arrayTokens_element]
      exact terminals_infix (by decide) rfl read (terminal_punct ",") readRest
    · have whole := later 0 _ _ (.firstElement n derives)
      simpa [Contents, elision, holes] using whole
    · have whole := later 0 _ _ (.nextElement list n derives)
      simpa [Contents, elision, holes] using whole

/-! ## Expressions -/

theorem digits_ne_point (text : String) : Token.digits text ≠ .punct "." :=
  fun same => by cases congrArg Token.kind same

/-- A quotient of constants, as numbers are written that are not finite. -/
theorem Printed.quotient (first : Printed (ofLevel quotientLevel) a left)
    (second : Printed .primary b right) : Printed (ofLevel quotientLevel) (a ++ .punct "/" :: b)
      (.binary default .division left right) :=
  @binary _ _ _ _ .division rfl rfl first (second.atLevel (by decide))

/-- A sign before a number is an operator to the reader. -/
theorem Printed.negative (inner : Printed .primary ts e) :
    Printed (ofLevel unaryLevel) (.punct "-" :: ts) (.unary default .unaryMinus e) :=
  @unary _ _ .unaryMinus rfl (inner.atLevel (by decide))

/-- A number is read as it is written. -/
theorem printed_number (pl : Place) (v : Double) :
    Printed (nonterminalOf (.num pl v)) v.tokens v.written := by
  have literal {text : String} {v : Double} (read : terminal? (.digits text) = some (.number v)) :
      Printed .primary [.digits text] (.num default v) :=
    .atom (digits_ne_point text) read (.number v)
  have zero := literal terminal_zero
  have one := literal terminal_one
  cases v with
  | nan => exact (zero.atLevel (by decide)).quotient zero
  | infinite negative =>
    cases negative with
    | false => exact (one.atLevel (by decide)).quotient zero
    | true =>
      have dividend := one.negative.mono fun us => Derives.lower (by decide : 14 ≤ unaryLevel)
      exact dividend.quotient zero
  | finite negative code =>
    have magnitude := literal (terminal_source code)
    cases negative with
    | false => exact magnitude.asMember
    | true => exact magnitude.negative

/-- A call is read from its callee and the arguments in parentheses. -/
theorem Printed.call {args : List Expr} {tss : List (List Token)}
    (mem : n ∈ [Nonterminal.member, .call]) (callee : Printed n a e)
    (items : List.Forall₂ (ReadAs (Derives (.expr .assignment))) tss args) :
    Printed .call (a ++ inParens (commaJoined tss)) (.call default false e args) where
  begins := callee.begins.append _
  reads := by
    obtain ⟨us, read, derives⟩ := callee.reads
    obtain ⟨vs, readArgs, derivesArgs⟩ := reads_arguments items
    have apart := (begins_parens (commaJoined tss)).startsWithPoint_eq
    exact ⟨_, terminals_append (.inr apart) read readArgs, .call mem derives derivesArgs⟩

/-- So is an object that is created, with the word `new` before the callee. -/
theorem Printed.create {args : List Expr} {tss : List (List Token)} (callee : Printed .member a e)
    (items : List.Forall₂ (ReadAs (Derives (.expr .assignment))) tss args) :
    Printed .member (.word "new" :: a ++ inParens (commaJoined tss))
      (.call default true e args) where
  begins := ⟨_, _, rfl, by decide⟩
  reads := by
    obtain ⟨us, read, derives⟩ := callee.reads
    obtain ⟨vs, readArgs, derivesArgs⟩ := reads_arguments items
    have apart := (begins_parens (commaJoined tss)).startsWithPoint_eq
    have opened := terminals_cons (.inl rfl) (terminal_word "new") read
    exact ⟨_, terminals_append (.inr apart) opened readArgs,
      .newWithArguments derives derivesArgs⟩

/-- An index is read from the object and the key in brackets. -/
theorem Printed.index {key : Expr} (mem : n ∈ [Nonterminal.member, .call]) (object : Printed n a e)
    (inner : Printed (ofLevel 0) b key) :
    Printed n (a ++ .punct "[" :: b ++ [.punct "]"]) (.index default e key) where
  begins := (object.begins.append _).append _
  reads := by
    obtain ⟨us, read, derives⟩ := object.reads
    obtain ⟨vs, readKey, derivesKey⟩ := inner.reads
    refine ⟨us ++ .punct "[" :: vs ++ [.punct "]"], ?_, .index mem derives derivesKey⟩
    have brackets := terminals_between "[" "]" (by decide) readKey
    rw [List.append_assoc, List.append_assoc]
    exact terminals_append (.inr (by simp)) read brackets

/-- A member is read from the object, a point and a name, if the point is not taken for that of a
number. -/
theorem Printed.member {name : String} (mem : n ∈ [Nonterminal.member, .call])
    (object : Printed n a e) (apart : endsWhole a = false)
    (isName : Text.isIdentifier name = true) :
    Printed n (a ++ [.punct ".", .name name]) (.member default e name) where
  begins := object.begins.append _
  reads := by
    obtain ⟨us, read, derives⟩ := object.reads
    exact ⟨_, terminals_append (.inl apart) read rfl, .dot mem derives isName⟩

/-- How a list of tokens ends does not depend on what stands before it. -/
theorem endsWhole_append (some : b ≠ []) : endsWhole (a ++ b) = endsWhole b := by
  rw [endsWhole, List.getLast?_append_of_ne_nil _ some, endsWhole]

/-- Nothing but a number ends in a number where it is accessed. -/
theorem endsWhole_fit (other : ∀ pl v, e ≠ .num pl v) :
    endsWhole (e.fit accessLevel e.tokens) = false := by
  have parens (ts : List Token) : endsWhole (inParens ts) = false := endsWhole_concat _ _
  unfold Expr.fit
  split
  · exact parens _
  · next high =>
    cases e with
    | binary pl op => exact absurd (precedence_lt op) high
    | cond => exact absurd (precedence_lt .conditional) high
    | unary | undef => exact absurd (precedence_lt .void) high
    | update => exact absurd (precedence_lt .postIncrement) high
    | func pl name fn =>
      obtain ⟨span, params, body⟩ := fn
      rw [Expr.tokens, Func.tokens, ← List.append_assoc]
      exact (endsWhole_append (by simp [inBraces])).trans (endsWhole_concat _ _)
    | num pl v => exact absurd rfl (other pl v)
    | call => exact (endsWhole_append (by simp [inParens])).trans (parens _)
    | member => exact endsWhole_append (by simp)
    | index | array | object => exact endsWhole_concat _ _
    | ident | this | bool | null | regex | str => rfl

/-- A number is written as digits alone, or it binds less tightly than an access. -/
theorem bare_or_level_lt (v : Double) :
    (∃ code, v = .finite false code) ∨ v.level < accessLevel := by
  cases v with
  | nan => exact .inr (by decide)
  | infinite negative => exact .inr (precedence_lt .division)
  | finite negative code =>
    cases negative with
    | false => exact .inl ⟨code, rfl⟩
    | true => exact .inr (precedence_lt .unaryMinus)

/-- What stands before the point of a member access. -/
theorem printed_object {pl : Place} {name : String} (fine : e.isWellFormed = true)
    (printed : Printed (nonterminalOf e) e.tokens e.written) :
    ∃ ts, (Expr.member pl e name).tokens = ts ++ [.punct ".", .name name] ∧
      Printed (accessOf e) ts e.written ∧ endsWhole ts = false := by
  cases e with
  | num place v =>
    obtain ⟨code, rfl⟩ | low := bare_or_level_lt v
    · -- The number has a point or an exponent, or it is given a point of its own.
      obtain ⟨read, apart⟩ := terminals_beforeMember code
      have begins : Begins (Double.finite false code).tokensBeforeMember := by
        unfold Double.tokensBeforeMember
        dsimp only
        split <;> exact ⟨_, _, rfl, digits_ne_point _⟩
      have member : Derives (.expr .member) [.number (.finite false code)] _ :=
        .unit (by decide) (.atom (.number _))
      exact ⟨_, by rw [Expr.tokens]; rfl, ⟨begins, _, read, member⟩, apart⟩
    · have loose : v.level ≠ primaryLevel := fun eq => absurd low (by rw [eq]; decide)
      refine ⟨_, by rw [Expr.tokens, if_neg loose], printed.fitAccess, ?_⟩
      rw [Expr.fit, if_pos (show (Expr.num place v).level < accessLevel from low)]
      exact endsWhole_concat _ _
  | _ => exact ⟨_, rfl, printed.fitAccess, endsWhole_fit (by simp)⟩

/-- Below `new` a callee with a call is put in parentheses. -/
theorem Printed.belowNew {tree : Expr} (printed : Printed (nonterminalOf e) ts tree) :
    Printed .member (if e.calleeHasCall then inParens ts else e.fit accessLevel ts) tree := by
  split
  · exact printed.whole.parens.asMember
  · next free =>
    have noCall := chainsCall_of_calleeHasCall e (Bool.eq_false_iff.2 free)
    have head := printed.fitAccess
    rwa [accessOf, noCall] at head

/-- A plain name can stand for a variable. -/
theorem isReference_of_isPlainName {name : String} (plain : Text.isPlainName name = true) :
    isReference name = true := by
  have reserved : ∀ word ∈ reservedWords, word ∈ Text.reservedWords := by decide
  simp only [Text.isPlainName, Text.isReserved, Bool.and_eq_true, Bool.not_eq_true',
    List.contains_eq_mem, decide_eq_false_iff_not] at plain
  obtain ⟨isName, free⟩ := plain
  have free : name ∉ reservedWords := fun mem => free (reserved name mem)
  simp [isReference, isName, free]

/-- The operands of an operator never have to bind tighter than an access. -/
theorem levels_le (op : Operator) : op.leftLevel ≤ accessLevel ∧ op.rightLevel ≤ accessLevel := by
  cases op <;> decide

mutual

/-- The tokens of a well-formed expression are read as the expression, in its own position. -/
theorem printed_expr : (e : Expr) → e.isWellFormed = true →
    Printed (nonterminalOf e) e.tokens e.written
  | .binary pl op left right, fine => by
    simp only [Expr.isWellFormed, Bool.and_eq_true, beq_iff_eq] at fine
    obtain ⟨⟨⟨between, target⟩, fineLeft⟩, fineRight⟩ := fine
    obtain ⟨leftMost, rightMost⟩ := levels_le op
    have first := printed_expr left fineLeft
    have second := (printed_expr right fineRight).fit op.rightLevel rightMost
    have level : nonterminalOf (.binary pl op left right) = ofLevel op.precedence :=
      if_neg (Nat.not_le.2 (precedence_lt op))
    rw [level, Expr.tokens, Expr.written]
    cases stores : op.needsTarget with
    | false => exact .binary between stores (first.fit op.leftLevel leftMost) second
    | true =>
      have target : left.isTarget = true := by simpa [stores] using target
      exact .assign between stores (first.target target leftMost) second
  | .call pl isNew callee args, fine => by
    simp only [Expr.isWellFormed, Bool.and_eq_true] at fine
    obtain ⟨fineCallee, fineArgs⟩ := fine
    have head := printed_expr callee fineCallee
    have items := reads_args args fineArgs
    rw [Expr.tokens, Expr.written]
    cases isNew with
    | false => exact .call (accessOf_mem callee) head.fitAccess items
    | true => exact .create head.belowNew items
  | .index pl object key, fine => by
    simp only [Expr.isWellFormed, Bool.and_eq_true] at fine
    obtain ⟨fineObject, fineKey⟩ := fine
    have head := (printed_expr object fineObject).fitAccess
    have inner := (printed_expr key fineKey).whole
    rw [Expr.tokens, Expr.written]
    exact .index (accessOf_mem object) head inner
  | .cond pl test yes no, fine => by
    simp only [Expr.isWellFormed, Bool.and_eq_true] at fine
    obtain ⟨⟨fineTest, fineYes⟩, fineNo⟩ := fine
    rw [Expr.tokens, Expr.written]
    exact .cond ((printed_expr test fineTest).fit _ (by decide))
      ((printed_expr yes fineYes).fit _ (by decide)) ((printed_expr no fineNo).fit _ (by decide))
  | .func .., fine => by cases fine
  | .ident pl name, fine => by
    rw [Expr.tokens, Expr.written]
    exact (Printed.atom (by simp [Token.name, Token.punct]) rfl
      (.ident (isReference_of_isPlainName fine))).asMember
  | .member pl object name, fine => by
    simp only [Expr.isWellFormed, Bool.and_eq_true] at fine
    obtain ⟨fineObject, isName⟩ := fine
    obtain ⟨ts, tokens, head, apart⟩ :=
      printed_object fineObject (printed_expr object fineObject)
    rw [tokens, Expr.written]
    exact .member (accessOf_mem object) head apart isName
  | .unary pl op arg, fine => by
    simp only [Expr.isWellFormed, Bool.and_eq_true, beq_iff_eq] at fine
    obtain ⟨⟨before, -⟩, fineArg⟩ := fine
    rw [Expr.tokens, Expr.written]
    exact .unary before ((printed_expr arg fineArg).fit _ (by decide))
  | .update pl op arg, fine => by
    simp only [Expr.isWellFormed, Bool.and_eq_true, beq_iff_eq] at fine
    obtain ⟨⟨behind, target⟩, fineArg⟩ := fine
    have target : arg.isTarget = true := by simpa [needsTarget_of_behind behind] using target
    rw [Expr.tokens, Expr.written]
    exact .update behind ((printed_expr arg fineArg).target target (by decide))
  | .array pl elements, fine => by
    obtain ⟨us, read, first, -⟩ := reads_elements elements (reads_each elements fine)
    rw [Expr.tokens, Expr.written]
    have array : Printed .primary (.punct "[" :: arrayTokens elements ++ [.punct "]"])
        (.array default (writtenElements elements)) :=
      ⟨⟨_, _, rfl, by decide⟩, _, terminals_between _ _ (by decide) read, first 0⟩
    exact array.asMember
  | .object pl members, fine => by
    have items := reads_members members fine
    rw [Expr.tokens, Expr.written]
    have object : Printed .primary _ _ := ⟨⟨_, _, rfl, by decide⟩, reads_object items⟩
    exact object.asMember
  | .num pl v, _ => printed_number pl v
  | .this _, _ => (Printed.atom (by decide) rfl .this).asMember
  | .bool _ value, _ => by
    cases value with
    | false => exact (Printed.atom (by decide) rfl (.bool false)).asMember
    | true => exact (Printed.atom (by decide) rfl (.bool true)).asMember
  | .null _, _ => (Printed.atom (by decide) rfl .null).asMember
  | .regex _ text, _ => (Printed.atom (by simp [Token.punct]) rfl (.regex text)).asMember
  | .str _ value, _ =>
    (Printed.atom (by simp [Token.punct]) (terminal_quoted value) (.string value)).asMember
  | .undef _, _ => by
    have zero := Printed.atom (digits_ne_point "0") terminal_zero (.number _)
    exact @Printed.unary _ _ .void rfl (zero.atLevel (by decide))

/-- The arguments of a call are read one by one. -/
theorem reads_args : (args : List Expr) → exprsWellFormed args = true →
    List.Forall₂ (ReadAs (Derives (.expr .assignment))) (argumentTokens args) (writtenExprs args)
  | [], _ => .nil
  | e :: rest, fine => by
    simp only [exprsWellFormed, Bool.and_eq_true] at fine
    obtain ⟨fineHead, fineRest⟩ := fine
    have first := (printed_expr e fineHead).fit assignmentLevel (by decide)
    exact .cons first.reads (reads_args rest fineRest)

/-- So are the elements of an array literal that are no holes. -/
theorem reads_each : (elements : List (Option Expr)) → elementsWellFormed elements = true →
    ∀ e, some e ∈ elements →
      ReadAs (Derives (.expr .assignment)) (e.fit assignmentLevel e.tokens) e.written
  | none :: rest, fine, e, mem => by
    cases mem with
    | tail _ mem => exact reads_each rest fine e mem
  | some first :: rest, fine, e, mem => by
    simp only [elementsWellFormed, Bool.and_eq_true] at fine
    obtain ⟨fineHead, fineRest⟩ := fine
    have head := (printed_expr first fineHead).fit assignmentLevel (by decide)
    cases mem with
    | head => exact head.reads
    | tail _ mem => exact reads_each rest fineRest e mem

/-- So are the members of an object literal. -/
theorem reads_members : (members : List Member) → membersWellFormed members = true →
    List.Forall₂ (ReadAs Property) (memberTokens members) (writtenMembers members)
  | [], _ => .nil
  | .value _ key e :: rest, fine => by
    simp only [membersWellFormed, Bool.and_eq_true] at fine
    obtain ⟨fineHead, fineRest⟩ := fine
    obtain ⟨us, read, derives⟩ := ((printed_expr e fineHead).fit assignmentLevel (by decide)).reads
    obtain ⟨u, readKey, isKey⟩ := terminal_keyToken key
    have value := terminals_cons (.inl rfl) (terminal_punct ":") read
    exact .cons ⟨_, terminals_cons (.inr (by simp)) readKey value, .value isKey derives⟩
      (reads_members rest fineRest)
  | .getter .. :: _, fine | .setter .. :: _, fine => by cases fine

end

/-- The tokens of a well-formed expression are read as the expression it is written as, and as no
other. -/
theorem tokens_read_back {e : Expr} (fine : e.isWellFormed = true) :
    ∃ us, terminals? e.tokens = some us ∧
      ∀ tree, Derives (.expr .expression) us tree ↔ tree = e.written := by
  obtain ⟨us, read, derives⟩ := (printed_expr e fine).whole.reads
  refine ⟨us, read, fun tree => ⟨fun other => other.unique derives, ?_⟩⟩
  rintro rfl
  exact derives

/-- The case of `new (a().c)(5..x, [0/0,,]), b = -1/0 - {7: void 0}`, whose tokens need parentheses
below `new`, a point of their own before a member, and a comma for the hole at the end. -/
theorem tokens_read_back_created :
    let here : Place := default
    let created := Expr.call here true (.member here (.call here false (.ident here "a") []) "c")
      [.member here (.num here (.ofNat 5)) "x", .array here [some (.num here .nan), none]]
    let stored := Expr.binary here .assign (.ident here "b")
      (.binary here .subtraction (.num here (.infinite true))
        (.object here [.value default "7" (.undef here)]))
    let e := Expr.binary here .comma created stored
    e.isWellFormed = true ∧ ∃ us, terminals? e.tokens = some us ∧
      ∀ tree, Derives (.expr .expression) us tree ↔ tree = e.written := by
  intro here created stored e
  have fine : e.isWellFormed = true := by decide
  exact ⟨fine, tokens_read_back fine⟩

end Minifier.Grammar
