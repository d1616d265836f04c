import Minifier.Proofs.Grammar.Expression

/-!
# Reading expressions

A procedure that reads terminals one at a time: it reads the start of an expression, and then goes
on to whatever binds tightly enough, accesses, operators behind their operand, binary operators.
`Reads` is this procedure as a relation, with one rule for each thing it may meet. It is
deterministic. It may accept more than the grammar derives, since it looks at what binds how
tightly and not at whether a target can be assigned to.
-/

namespace Minifier.Grammar

/-! ## What a terminal announces -/

namespace Nonterminal

/-- How tightly an expression of the nonterminal holds together, as seen from the left: it is read
where at least this much is asked for. -/
def rank : Nonterminal → Nat
  | primary => 20
  | member | newExpr => 19
  | call | leftHandSide => 18
  | postfixed => 17
  | unary => 16
  | multiplicative => 14
  | additive => 13
  | shift => 12
  | relational => 11
  | equality => 10
  | bitwiseAnd => 9
  | bitwiseXor => 8
  | bitwiseOr => 7
  | logicalAnd => 6
  | logicalOr => 5
  | conditional => 4
  | assignment => 3
  | expression => 1

/-- What may follow an expression of the nonterminal without becoming a part of it or of its last
operand: only what binds this tightly at most. -/
def bound : Nonterminal → Nat
  | primary => 20
  | member | call => 19
  | newExpr | leftHandSide => 17
  | postfixed => 16
  | unary => 15
  | conditional | assignment => 2
  | n => n.rank

/-- The nonterminals of left-associative operators. -/
def leftAssociative : List Nonterminal := [
  multiplicative, additive, shift, relational, equality, bitwiseAnd, bitwiseXor, bitwiseOr,
  logicalAnd, logicalOr, expression]

end Nonterminal

/-- What a terminal opens at the start of an expression. -/
inductive Opening
  | atom (e : Expr)
  | unary (op : Operator)
  | newWord
  | parens
  | array
  | object
  | other

/-- What a terminal goes on with behind an operand. A binary operator has a rank of its own and one
for its right operand. -/
inductive Sequel
  | index
  | dot
  | call
  | suffix (op : Operator)
  | binary (op : Operator) (rank right : Nat)
  | cond
  | other
deriving DecidableEq

/-- How tightly a sequel binds the operand before it. -/
def Sequel.rank : Sequel → Nat
  | index | dot => 19
  | call => 18
  | suffix _ => 17
  | binary _ rank _ => rank
  | cond => 4
  | other => 0

namespace Terminal

/-- The expression that a terminal is by itself. -/
def atom? : Terminal → Option Expr
  | .number value => some (.num default value)
  | .string value => some (.str default value)
  | .regex text => some (.regex default text)
  | .word text =>
    if isReference text then some (.ident default text)
    else if text = "this" then some (.this default)
    else if text = "null" then some (.null default)
    else if text = "true" then some (.bool default true)
    else if text = "false" then some (.bool default false)
    else none
  | .punct _ => none

/-- What a terminal opens. -/
def opening (t : Terminal) : Opening :=
  match t.atom?, prefixes.lookup t with
  | some e, _ => .atom e
  | none, some op => .unary op
  | none, none =>
    if t = .word "new" then .newWord
    else if t = .punct "(" then .parens
    else if t = .punct "[" then .array
    else if t = .punct "\x7b" then .object
    else .other

/-- The operator that a terminal is in one of the tables of left-associative operators. -/
def infix? (t : Terminal) : Option Sequel :=
  Nonterminal.leftAssociative.findSome? fun n =>
    (n.infixes.lookup t).map fun (op, m) => .binary op n.rank m.rank

/-- What a terminal goes on with. -/
def sequel (t : Terminal) : Sequel :=
  match suffixes.lookup t, assignments.lookup t, t.infix? with
  | some op, _, _ => .suffix op
  | none, some op, _ => .binary op 3 3
  | none, none, some found => found
  | none, none, none =>
    if t = .punct "[" then .index
    else if t = .punct "." then .dot
    else if t = .punct "(" then .call
    else if t = .punct "?" then .cond
    else .other

end Terminal

/-- How tightly the first of the terminals would bind an operand before it. -/
def nextRank : List Terminal → Nat
  | [] => 0
  | t :: _ => t.sequel.rank

/-! ## The reading procedure -/

/-- What is to be read: an expression of at least the given rank, its rest behind what was read of
it, or the rest of a list behind what was read of that. -/
inductive Goal
  | expr (least : Nat)
  | rest (least : Nat) (left : Expr)
  | argument (read : List Expr)
  | afterArgument (read : List Expr)
  | element (read : List (Option Expr))
  | afterElement (read : List (Option Expr))
  | property (read : List Member)
  | afterProperty (read : List Member)

/-- What reading gives. -/
abbrev Goal.Tree : Goal → Type
  | .expr _ | .rest _ _ => Expr
  | .argument _ | .afterArgument _ => List Expr
  | .element _ | .afterElement _ => List (Option Expr)
  | .property _ | .afterProperty _ => List Member

/-- Reading towards a goal gives a tree and leaves some terminals. -/
inductive Reads : (g : Goal) → List Terminal → g.Tree → List Terminal → Prop
  | atom {least : Nat} {t : Terminal} {ts rest : List Terminal} {e r : Expr}
    (opens : t.opening = .atom e) (more : Reads (.rest least e) ts r rest) :
    Reads (.expr least) (t :: ts) r rest
  | unary {least : Nat} {t : Terminal} {ts us rest : List Terminal} {op : Operator} {e r : Expr}
    (opens : t.opening = .unary op) (inner : Reads (.expr 16) ts e us)
    (more : Reads (.rest least (.unary default op e)) us r rest) :
    Reads (.expr least) (t :: ts) r rest
  | newWithArguments {least : Nat} {t : Terminal} {ts us vs rest : List Terminal} {callee r : Expr}
    {args : List Expr} (opens : t.opening = .newWord)
    (inner : Reads (.expr 19) ts callee (.punct "(" :: us)) (list : Reads (.argument []) us args vs)
    (more : Reads (.rest least (.call default true callee args)) vs r rest) :
    Reads (.expr least) (t :: ts) r rest
  | newBare {least : Nat} {t : Terminal} {ts us rest : List Terminal} {callee r : Expr}
    (opens : t.opening = .newWord) (inner : Reads (.expr 19) ts callee us)
    (bare : us.head? ≠ some (.punct "("))
    (more : Reads (.rest least (.call default true callee [])) us r rest) :
    Reads (.expr least) (t :: ts) r rest
  | parens {least : Nat} {t : Terminal} {ts us rest : List Terminal} {e r : Expr}
    (opens : t.opening = .parens) (inner : Reads (.expr 1) ts e (.punct ")" :: us))
    (more : Reads (.rest least e) us r rest) : Reads (.expr least) (t :: ts) r rest
  | array {least : Nat} {t : Terminal} {ts us rest : List Terminal} {r : Expr}
    {elements : List (Option Expr)} (opens : t.opening = .array)
    (list : Reads (.element []) ts elements us)
    (more : Reads (.rest least (.array default elements)) us r rest) :
    Reads (.expr least) (t :: ts) r rest
  | object {least : Nat} {t : Terminal} {ts us rest : List Terminal} {r : Expr}
    {members : List Member} (opens : t.opening = .object)
    (list : Reads (.property []) ts members us)
    (more : Reads (.rest least (.object default members)) us r rest) :
    Reads (.expr least) (t :: ts) r rest
  | stop {least : Nat} {left : Expr} {ts : List Terminal} (loose : nextRank ts < least) :
    Reads (.rest least left) ts left ts
  | index {least : Nat} {left key r : Expr} {t : Terminal} {ts us rest : List Terminal}
    (goesOn : t.sequel = .index) (tight : least ≤ 19)
    (inner : Reads (.expr 1) ts key (.punct "]" :: us))
    (more : Reads (.rest least (.index default left key)) us r rest) :
    Reads (.rest least left) (t :: ts) r rest
  | dot {least : Nat} {left r : Expr} {t : Terminal} {name : String} {ts rest : List Terminal}
    (goesOn : t.sequel = .dot) (tight : least ≤ 19)
    (more : Reads (.rest least (.member default left name)) ts r rest) :
    Reads (.rest least left) (t :: .word name :: ts) r rest
  | call {least : Nat} {left r : Expr} {t : Terminal} {ts us rest : List Terminal}
    {args : List Expr} (goesOn : t.sequel = .call) (tight : least ≤ 18)
    (list : Reads (.argument []) ts args us)
    (more : Reads (.rest least (.call default false left args)) us r rest) :
    Reads (.rest least left) (t :: ts) r rest
  | suffix {least : Nat} {left r : Expr} {t : Terminal} {op : Operator} {ts rest : List Terminal}
    (goesOn : t.sequel = .suffix op) (tight : least ≤ 17)
    (more : Reads (.rest least (.update default op left)) ts r rest) :
    Reads (.rest least left) (t :: ts) r rest
  | binary {least rank right : Nat} {left e r : Expr} {t : Terminal} {op : Operator}
    {ts us rest : List Terminal} (goesOn : t.sequel = .binary op rank right) (tight : least ≤ rank)
    (inner : Reads (.expr right) ts e us)
    (more : Reads (.rest least (.binary default op left e)) us r rest) :
    Reads (.rest least left) (t :: ts) r rest
  | cond {least : Nat} {left yes no r : Expr} {t : Terminal} {ts us vs rest : List Terminal}
    (goesOn : t.sequel = .cond) (tight : least ≤ 4)
    (first : Reads (.expr 3) ts yes (.punct ":" :: us)) (second : Reads (.expr 3) us no vs)
    (more : Reads (.rest least (.cond default left yes no)) vs r rest) :
    Reads (.rest least left) (t :: ts) r rest
  | noArgument {t : Terminal} {ts : List Terminal} (closes : t = .punct ")") :
    Reads (.argument []) (t :: ts) [] ts
  | argument {read args : List Expr} {e : Expr} {ts us rest : List Terminal}
    (present : ts.head? ≠ some (.punct ")")) (inner : Reads (.expr 3) ts e us)
    (more : Reads (.afterArgument (read ++ [e])) us args rest) :
    Reads (.argument read) ts args rest
  | lastArgument {read : List Expr} {t : Terminal} {ts : List Terminal} (closes : t = .punct ")") :
    Reads (.afterArgument read) (t :: ts) read ts
  | nextArgument {read args : List Expr} {t : Terminal} {ts rest : List Terminal}
    (comma : t = .punct ",") (more : Reads (.argument read) ts args rest) :
    Reads (.afterArgument read) (t :: ts) args rest
  | noElement {read : List (Option Expr)} {t : Terminal} {ts : List Terminal}
    (closes : t = .punct "]") : Reads (.element read) (t :: ts) read ts
  | hole {read elements : List (Option Expr)} {t : Terminal} {ts rest : List Terminal}
    (comma : t = .punct ",") (more : Reads (.element (read ++ [none])) ts elements rest) :
    Reads (.element read) (t :: ts) elements rest
  | element {read elements : List (Option Expr)} {e : Expr} {ts us rest : List Terminal}
    (present : ts.head? ≠ some (.punct "]") ∧ ts.head? ≠ some (.punct ","))
    (inner : Reads (.expr 3) ts e us)
    (more : Reads (.afterElement (read ++ [some e])) us elements rest) :
    Reads (.element read) ts elements rest
  | lastElement {read : List (Option Expr)} {t : Terminal} {ts : List Terminal}
    (closes : t = .punct "]") : Reads (.afterElement read) (t :: ts) read ts
  | nextElement {read elements : List (Option Expr)} {t : Terminal} {ts rest : List Terminal}
    (comma : t = .punct ",") (more : Reads (.element read) ts elements rest) :
    Reads (.afterElement read) (t :: ts) elements rest
  | noProperty {read : List Member} {t : Terminal} {ts : List Terminal}
    (closes : t = .punct "\x7d") : Reads (.property read) (t :: ts) read ts
  | property {read members : List Member} {t : Terminal} {key : String} {e : Expr}
    {ts us rest : List Terminal} (isKey : t.key? = some key) (inner : Reads (.expr 3) ts e us)
    (more : Reads (.afterProperty (read ++ [.value default key e])) us members rest) :
    Reads (.property read) (t :: .punct ":" :: ts) members rest
  | lastProperty {read : List Member} {t : Terminal} {ts : List Terminal}
    (closes : t = .punct "\x7d") : Reads (.afterProperty read) (t :: ts) read ts
  | nextProperty {read members : List Member} {t : Terminal} {ts rest : List Terminal}
    (comma : t = .punct ",") (more : Reads (.property read) ts members rest) :
    Reads (.afterProperty read) (t :: ts) members rest

/-! ## Reading is deterministic -/

/-- How an expression is read behind its first terminal, by what that opens. -/
def Opened (least : Nat) (ts : List Terminal) (r : Expr) (rest : List Terminal) : Opening → Prop
  | .atom e => Reads (.rest least e) ts r rest
  | .unary op => ∃ e us, Reads (.expr 16) ts e us ∧
    Reads (.rest least (.unary default op e)) us r rest
  | .newWord => ∃ callee us, Reads (.expr 19) ts callee us ∧
    ((∃ vs args ws, us = .punct "(" :: vs ∧ Reads (.argument []) vs args ws ∧
        Reads (.rest least (.call default true callee args)) ws r rest) ∨
      us.head? ≠ some (.punct "(") ∧ Reads (.rest least (.call default true callee [])) us r rest)
  | .parens => ∃ e us, Reads (.expr 1) ts e (.punct ")" :: us) ∧ Reads (.rest least e) us r rest
  | .array => ∃ elements us, Reads (.element []) ts elements us ∧
    Reads (.rest least (.array default elements)) us r rest
  | .object => ∃ members us, Reads (.property []) ts members us ∧
    Reads (.rest least (.object default members)) us r rest
  | .other => False

/-- How the rest of an expression is read behind a terminal that belongs to it, by what that goes on
with. -/
def WentOn (least : Nat) (left : Expr) (ts : List Terminal) (r : Expr) (rest : List Terminal) :
    Sequel → Prop
  | .index => ∃ key us, Reads (.expr 1) ts key (.punct "]" :: us) ∧
    Reads (.rest least (.index default left key)) us r rest
  | .dot => ∃ name us, ts = .word name :: us ∧
    Reads (.rest least (.member default left name)) us r rest
  | .call => ∃ args us, Reads (.argument []) ts args us ∧
    Reads (.rest least (.call default false left args)) us r rest
  | .suffix op => Reads (.rest least (.update default op left)) ts r rest
  | .binary op _ right => ∃ e us, Reads (.expr right) ts e us ∧
    Reads (.rest least (.binary default op left e)) us r rest
  | .cond => ∃ yes us no vs, Reads (.expr 3) ts yes (.punct ":" :: us) ∧
    Reads (.expr 3) us no vs ∧ Reads (.rest least (.cond default left yes no)) vs r rest
  | .other => False

section Inversion

variable {least : Nat} {left r : Expr} {t : Terminal} {ts rest : List Terminal}

theorem Reads.opened {opening : Opening} (reads : Reads (.expr least) (t :: ts) r rest)
    (opens : t.opening = opening) : Opened least ts r rest opening := by
  subst opens
  cases reads with
  | atom opens more => rw [opens]; exact more
  | unary opens inner more => rw [opens]; exact ⟨_, _, inner, more⟩
  | newWithArguments opens inner list more =>
    rw [opens]
    exact ⟨_, _, inner, .inl ⟨_, _, _, rfl, list, more⟩⟩
  | newBare opens inner bare more => rw [opens]; exact ⟨_, _, inner, .inr ⟨bare, more⟩⟩
  | parens opens inner more => rw [opens]; exact ⟨_, _, inner, more⟩
  | array opens list more => rw [opens]; exact ⟨_, _, list, more⟩
  | object opens list more => rw [opens]; exact ⟨_, _, list, more⟩

theorem Reads.wentOn {sequel : Sequel} (reads : Reads (.rest least left) (t :: ts) r rest)
    (goesOn : t.sequel = sequel) (tight : least ≤ sequel.rank) :
    WentOn least left ts r rest sequel := by
  subst goesOn
  cases reads with
  | stop loose => exact absurd loose (Nat.not_lt_of_le tight)
  | index goesOn _ inner more => rw [goesOn]; exact ⟨_, _, inner, more⟩
  | dot goesOn _ more => rw [goesOn]; exact ⟨_, _, rfl, more⟩
  | call goesOn _ list more => rw [goesOn]; exact ⟨_, _, list, more⟩
  | suffix goesOn _ more => rw [goesOn]; exact more
  | binary goesOn _ inner more => rw [goesOn]; exact ⟨_, _, inner, more⟩
  | cond goesOn _ first second more => rw [goesOn]; exact ⟨_, _, _, _, first, second, more⟩

/-- Nothing more is read where what follows is too loose. -/
theorem Reads.stopped (reads : Reads (.rest least left) ts r rest) (loose : nextRank ts < least) :
    left = r ∧ ts = rest := by
  cases reads with
  | stop => exact ⟨rfl, rfl⟩
  | _ =>
    simp_all only [nextRank, Sequel.rank]
    omega

end Inversion

/-- Reading is deterministic. The first terminal decides which rule applies; the two rules for `new`
are told apart by what follows the callee. -/
theorem Reads.unique {g : Goal} {ts rest : List Terminal} {r : g.Tree}
    (first : Reads g ts r rest) :
    ∀ {r' : g.Tree} {rest' : List Terminal}, Reads g ts r' rest' → r = r' ∧ rest = rest' := by
  induction first with
  | atom opens _ ih =>
    intro r' rest' second
    exact ih (second.opened opens)
  | unary opens _ _ ih ihMore =>
    intro r' rest' second
    obtain ⟨e, us, inner, more⟩ := second.opened opens
    obtain ⟨rfl, rfl⟩ := ih inner
    exact ihMore more
  | newWithArguments opens _ _ _ ih ihList ihMore =>
    intro r' rest' second
    obtain ⟨callee, us, inner, called | ⟨bare, -⟩⟩ := second.opened opens
    · obtain ⟨vs, args, ws, rfl, list, more⟩ := called
      obtain ⟨rfl, same⟩ := ih inner
      cases same
      obtain ⟨rfl, rfl⟩ := ihList list
      exact ihMore more
    · obtain ⟨-, rfl⟩ := ih inner
      exact absurd rfl bare
  | newBare opens _ bare _ ih ihMore =>
    intro r' rest' second
    obtain ⟨callee, us, inner, ⟨vs, args, ws, rfl, -⟩ | ⟨-, more⟩⟩ := second.opened opens
    · obtain ⟨-, rfl⟩ := ih inner
      exact absurd rfl bare
    · obtain ⟨rfl, rfl⟩ := ih inner
      exact ihMore more
  | parens opens _ _ ih ihMore =>
    intro r' rest' second
    obtain ⟨e, us, inner, more⟩ := second.opened opens
    obtain ⟨rfl, same⟩ := ih inner
    cases same
    exact ihMore more
  | array opens _ _ ih ihMore =>
    intro r' rest' second
    obtain ⟨elements, us, list, more⟩ := second.opened opens
    obtain ⟨rfl, rfl⟩ := ih list
    exact ihMore more
  | object opens _ _ ih ihMore =>
    intro r' rest' second
    obtain ⟨members, us, list, more⟩ := second.opened opens
    obtain ⟨rfl, rfl⟩ := ih list
    exact ihMore more
  | stop loose =>
    intro r' rest' second
    exact second.stopped loose
  | index goesOn tight _ _ ih ihMore =>
    intro r' rest' second
    obtain ⟨key, us, inner, more⟩ := second.wentOn goesOn tight
    obtain ⟨rfl, same⟩ := ih inner
    cases same
    exact ihMore more
  | dot goesOn tight _ ih =>
    intro r' rest' second
    obtain ⟨name, us, same, more⟩ := second.wentOn goesOn tight
    cases same
    exact ih more
  | call goesOn tight _ _ ih ihMore =>
    intro r' rest' second
    obtain ⟨args, us, list, more⟩ := second.wentOn goesOn tight
    obtain ⟨rfl, rfl⟩ := ih list
    exact ihMore more
  | suffix goesOn tight _ ih =>
    intro r' rest' second
    exact ih (second.wentOn goesOn tight)
  | binary goesOn tight _ _ ih ihMore =>
    intro r' rest' second
    obtain ⟨e, us, inner, more⟩ := second.wentOn goesOn tight
    obtain ⟨rfl, rfl⟩ := ih inner
    exact ihMore more
  | cond goesOn tight _ _ _ ihYes ihNo ihMore =>
    intro r' rest' second
    obtain ⟨yes, us, no, vs, first, last, more⟩ := second.wentOn goesOn tight
    obtain ⟨rfl, same⟩ := ihYes first
    cases same
    obtain ⟨rfl, rfl⟩ := ihNo last
    exact ihMore more
  | noArgument closes =>
    intro r' rest' second
    cases second with
    | noArgument => exact ⟨rfl, rfl⟩
    | argument present' => simp [closes] at present'
  | argument present _ _ ih ihMore =>
    intro r' rest' second
    cases second with
    | noArgument closes' => simp [closes'] at present
    | argument present' inner' more' =>
      obtain ⟨rfl, rfl⟩ := ih inner'
      exact ihMore more'
  | lastArgument closes =>
    intro r' rest' second
    cases second with
    | lastArgument => exact ⟨rfl, rfl⟩
    | nextArgument comma' => simp [closes] at comma'
  | nextArgument comma _ ih =>
    intro r' rest' second
    cases second with
    | lastArgument closes' => simp [closes'] at comma
    | nextArgument _ more' => exact ih more'
  | noElement closes =>
    intro r' rest' second
    cases second with
    | noElement => exact ⟨rfl, rfl⟩
    | hole comma' => simp [closes] at comma'
    | element present' => simp [closes] at present'
  | hole comma _ ih =>
    intro r' rest' second
    cases second with
    | noElement closes' => simp [closes'] at comma
    | hole _ more' => exact ih more'
    | element present' => simp [comma] at present'
  | element present _ _ ih ihMore =>
    intro r' rest' second
    cases second with
    | noElement closes' => simp [closes'] at present
    | hole comma' => simp [comma'] at present
    | element present' inner' more' =>
      obtain ⟨rfl, rfl⟩ := ih inner'
      exact ihMore more'
  | lastElement closes =>
    intro r' rest' second
    cases second with
    | lastElement => exact ⟨rfl, rfl⟩
    | nextElement comma' => simp [closes] at comma'
  | nextElement comma _ ih =>
    intro r' rest' second
    cases second with
    | lastElement closes' => simp [closes'] at comma
    | nextElement _ more' => exact ih more'
  | noProperty closes =>
    intro r' rest' second
    cases second with
    | noProperty => exact ⟨rfl, rfl⟩
    | property isKey' => simp [closes, Terminal.key?] at isKey'
  | property isKey _ _ ih ihMore =>
    intro r' rest' second
    cases second with
    | noProperty closes' => simp [closes', Terminal.key?] at isKey
    | property isKey' inner' more' =>
      rw [isKey] at isKey'
      cases isKey'
      obtain ⟨rfl, rfl⟩ := ih inner'
      exact ihMore more'
  | lastProperty closes =>
    intro r' rest' second
    cases second with
    | lastProperty => exact ⟨rfl, rfl⟩
    | nextProperty comma' => simp [closes] at comma'
  | nextProperty comma _ ih =>
    intro r' rest' second
    cases second with
    | lastProperty closes' => simp [closes'] at comma
    | nextProperty _ more' => exact ih more'

end Minifier.Grammar
