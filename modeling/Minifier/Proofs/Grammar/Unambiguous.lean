import Minifier.Proofs.Grammar.Reading

/-!
# The grammar is unambiguous

A list of terminals stands for at most one expression. Whatever the grammar derives is found by the
reading procedure, which finds at most one tree. For the left operand of an operator this has to be
said of every way in which the text may go on, as long as it does not bind more tightly than the
operand allows.
-/

namespace Minifier.Grammar

/-- An atom of the grammar opens an expression as that atom. -/
theorem opening_of_atom {t : Terminal} {e : Expr} (atom : Atom t e) : t.opening = .atom e := by
  cases atom with
  | ident reference => simp [Terminal.opening, Terminal.atom?, reference]
  | bool value => cases value <;> rfl
  | _ => rfl

/-- The sign of a unary operator opens an expression with it. -/
theorem opening_of_mem_prefixes {t : Terminal} {op : Operator} (mem : (t, op) ∈ prefixes) :
    t.opening = .unary op := by
  have table : ∀ p ∈ prefixes, p.1.atom?.isNone = true ∧ prefixes.lookup p.1 = some p.2 := by
    decide
  obtain ⟨noAtom, found⟩ := table _ mem
  simp only [Terminal.opening, Option.isNone_iff_eq_none.1 noAtom, found]

/-- The sign of an operator behind its operand goes on with it. -/
theorem sequel_of_mem_suffixes {t : Terminal} {op : Operator} (mem : (t, op) ∈ suffixes) :
    t.sequel = .suffix op := by
  have table : ∀ p ∈ suffixes, p.1.sequel = .suffix p.2 := by decide
  exact table _ mem

/-- An assignment goes on with an operand of its own rank. -/
theorem sequel_of_mem_assignments {t : Terminal} {op : Operator} (mem : (t, op) ∈ assignments) :
    t.sequel = .binary op 3 3 := by
  have table : ∀ p ∈ assignments, p.1.sequel = .binary p.2 3 3 := by decide
  exact table _ mem

/-- An operator binds as tightly as its nonterminal, and its right operand binds more tightly. -/
theorem sequel_of_mem_infixes {m n : Nonterminal} {t : Terminal} {op : Operator}
    (mem : (t, op, m) ∈ n.infixes) :
    t.sequel = .binary op n.rank m.rank ∧ n.rank < m.rank ∧ n.bound = n.rank ∧
      n.bound ≤ m.bound := by
  have table : ∀ p ∈ n.infixes, p.1.sequel = .binary p.2.1 n.rank p.2.2.rank ∧
      n.rank < p.2.2.rank ∧ n.bound = n.rank ∧ n.bound ≤ p.2.2.bound := by
    cases n <;> decide
  exact table _ mem

/-- A nonterminal that stands for another alone binds no tighter. -/
theorem rank_le_of_mem_units {m n : Nonterminal} (mem : m ∈ n.units) :
    n.rank ≤ m.rank ∧ n.bound ≤ m.bound := by
  have table : ∀ m ∈ n.units, n.rank ≤ m.rank ∧ n.bound ≤ m.bound := by
    cases n <;> decide
  exact table m mem

/-- No expression begins with a terminal that opens nothing. -/
theorem Reads.head_ne {least : Nat} {ts rest : List Terminal} {e : Expr}
    (reads : Reads (.expr least) ts e rest) {t : Terminal} (nothing : t.opening = .other) :
    ts.head? ≠ some t := by
  intro head
  cases reads <;> simp_all

/-- What it means that everything derived from a symbol is read. Of an expression this is said for
every way to go on behind it, so that it holds for the left operand of an operator too. -/
def Found : (s : Symbol) → List Terminal → s.Tree → Prop
  | .expr n, ts, e => ∀ ⦃least : Nat⦄ ⦃rest rest' : List Terminal⦄ ⦃r : Expr⦄, least ≤ n.rank →
    nextRank rest ≤ n.bound → Reads (.rest least e) rest r rest' →
    Reads (.expr least) (ts ++ rest) r rest'
  | .arguments, ts, args => ∃ us, ts = .punct "(" :: us ∧
    ∀ rest, Reads (.argument []) (us ++ rest) args rest
  | .argumentList, ts, args => ∀ ⦃rest rest' : List Terminal⦄ ⦃r : List Expr⦄,
    nextRank rest ≤ 2 → Reads (.afterArgument args) rest r rest' →
    Reads (.argument []) (ts ++ rest) r rest'
  | .elementList, ts, elements => ∀ ⦃rest rest' : List Terminal⦄ ⦃r : List (Option Expr)⦄,
    nextRank rest ≤ 2 → Reads (.afterElement elements) rest r rest' →
    Reads (.element []) (ts ++ rest) r rest'
  | .propertyList, ts, members => ∀ ⦃rest rest' : List Terminal⦄ ⦃r : List Member⦄,
    nextRank rest ≤ 2 → Reads (.afterProperty members) rest r rest' →
    Reads (.property []) (ts ++ rest) r rest'

/-- A whole expression is read where what follows is too loose to belong to it. -/
theorem Found.whole {n : Nonterminal} {ts rest : List Terminal} {e : Expr} {least : Nat}
    (found : Found (.expr n) ts e) (le : least ≤ n.rank) (bounded : nextRank rest ≤ n.bound)
    (loose : nextRank rest < least) : Reads (.expr least) (ts ++ rest) e rest :=
  found le bounded (.stop loose)

/-- Commas without elements between them are holes. -/
theorem reads_elision {read elements : List (Option Expr)} {ts rest : List Terminal} (n : Nat)
    (more : Reads (.element (read ++ holes n)) ts elements rest) :
    Reads (.element read) (elision n ++ ts) elements rest := by
  induction n generalizing read with
  | zero =>
    rw [show read ++ holes 0 = read from List.append_nil read] at more
    exact more
  | succ n ih =>
    rw [show read ++ holes (n + 1) = read ++ [none] ++ holes n by
      simp [holes, List.replicate_succ]] at more
    exact .hole rfl (ih more)

/-- An argument is read, and then what follows it in the list. -/
theorem Found.argument {read args : List Expr} {ts rest rest' : List Terminal} {e : Expr}
    (found : Found (.expr .assignment) ts e) (bounded : nextRank rest ≤ 2)
    (more : Reads (.afterArgument (read ++ [e])) rest args rest') :
    Reads (.argument read) (ts ++ rest) args rest' := by
  have inner : Reads (.expr 3) (ts ++ rest) e rest := found.whole (Nat.le_refl _) bounded (by omega)
  exact .argument (inner.head_ne rfl) inner more

/-- An element of an array literal is read up to what cannot go on with it. -/
theorem Found.element {read elements : List (Option Expr)} {ts rest rest' : List Terminal}
    {e : Expr} (found : Found (.expr .assignment) ts e) (bounded : nextRank rest ≤ 2)
    (more : Reads (.afterElement (read ++ [some e])) rest elements rest') :
    Reads (.element read) (ts ++ rest) elements rest' := by
  have inner : Reads (.expr 3) (ts ++ rest) e rest := found.whole (Nat.le_refl _) bounded (by omega)
  exact .element ⟨inner.head_ne rfl, inner.head_ne rfl⟩ inner more

/-- So is the value of a property of an object literal. -/
theorem Found.property {read members : List Member} {t : Terminal} {key : String}
    {ts rest rest' : List Terminal} {e : Expr} (isKey : t.key? = some key)
    (found : Found (.expr .assignment) ts e) (bounded : nextRank rest ≤ 2)
    (more : Reads (.afterProperty (read ++ [.value default key e])) rest members rest') :
    Reads (.property read) (t :: .punct ":" :: (ts ++ rest)) members rest' :=
  .property isKey (found.whole (Nat.le_refl _) bounded (by omega)) more

theorem bound_of_access {n : Nonterminal} (mem : n ∈ [Nonterminal.member, .call]) :
    18 ≤ n.rank ∧ n.rank ≤ 19 ∧ n.bound = 19 := by
  have table : ∀ n ∈ [Nonterminal.member, .call], 18 ≤ n.rank ∧ n.rank ≤ 19 ∧ n.bound = 19 := by
    decide
  exact table n mem

theorem nextRank_le {t : Terminal} {ts : List Terminal} {n : Nat} (le : t.sequel.rank ≤ n) :
    nextRank (t :: ts) ≤ n := le

theorem nextRank_lt {t : Terminal} {ts : List Terminal} {n : Nat} (lt : t.sequel.rank < n) :
    nextRank (t :: ts) < n := lt

/-- Whatever the grammar derives is read. -/
theorem Derives.found {s : Symbol} {ts : List Terminal} {tree : s.Tree}
    (derives : Derives s ts tree) : Found s ts tree := by
  induction derives with
  | unit mem _ ih =>
    obtain ⟨rank, bound⟩ := rank_le_of_mem_units mem
    intro least rest rest' r le bounded more
    exact ih (Nat.le_trans le rank) (Nat.le_trans bounded bound) more
  | atom atom =>
    intro least rest rest' r le bounded more
    exact .atom (opening_of_atom atom) more
  | parens _ ih =>
    intro least rest rest' r le bounded more
    rw [List.append_assoc]
    refine .parens rfl (ih.whole (Nat.le_refl _) ?_ ?_) more
    · exact nextRank_le (by decide)
    · exact nextRank_lt (by decide)
  | arrayOfHoles n =>
    intro least rest rest' r le bounded more
    rw [List.append_assoc]
    exact .array rfl (reads_elision n (.noElement rfl)) more
  | array _ ih =>
    intro least rest rest' r le bounded more
    rw [List.append_assoc]
    exact .array rfl (ih (nextRank_le (by decide)) (.lastElement rfl)) more
  | arrayWithHoles _ n ih =>
    intro least rest rest' r le bounded more
    rw [List.append_assoc, List.append_assoc]
    refine .array rfl (ih (nextRank_le (by decide)) (.nextElement rfl ?_)) more
    exact reads_elision n (.noElement rfl)
  | emptyObject =>
    intro least rest rest' r le bounded more
    exact .object rfl (.noProperty rfl) more
  | object _ ih =>
    intro least rest rest' r le bounded more
    rw [List.append_assoc]
    exact .object rfl (ih (nextRank_le (by decide)) (.lastProperty rfl)) more
  | objectWithComma _ ih =>
    intro least rest rest' r le bounded more
    rw [List.append_assoc]
    exact .object rfl (ih (nextRank_le (by decide)) (.nextProperty rfl (.noProperty rfl))) more
  | index mem _ _ ihLeft ihRight =>
    obtain ⟨-, rank, bound⟩ := bound_of_access mem
    intro least rest rest' r le bounded more
    rw [List.append_assoc, List.append_assoc]
    refine ihLeft le (nextRank_le (by rw [bound]; decide)) (.index rfl (Nat.le_trans le rank) ?_ more)
    exact ihRight.whole (Nat.le_refl _) (nextRank_le (by decide)) (nextRank_lt (by decide))
  | dot mem _ _ ih =>
    obtain ⟨-, rank, bound⟩ := bound_of_access mem
    intro least rest rest' r le bounded more
    rw [List.append_assoc]
    exact ih le (nextRank_le (by rw [bound]; decide)) (.dot rfl (Nat.le_trans le rank) more)
  | newWithArguments _ _ ihLeft ihRight =>
    obtain ⟨us, rfl, list⟩ := ihRight
    intro least rest rest' r le bounded more
    rw [List.append_assoc]
    refine .newWithArguments rfl ?_ (list rest) more
    exact ihLeft.whole (Nat.le_refl _) (nextRank_le (by decide)) (nextRank_lt (by decide))
  | newBare _ ih =>
    intro least rest rest' r le bounded more
    have loose : nextRank rest ≤ 17 := bounded
    refine .newBare rfl (ih.whole (Nat.le_refl _) bounded (by omega)) ?_ more
    -- An opening parenthesis would bind more tightly than that.
    cases rest with
    | nil => simp
    | cons t rest =>
      rintro ⟨⟩
      exact absurd loose (by show ¬ 18 ≤ 17; decide)
  | call mem _ _ ihLeft ihRight =>
    obtain ⟨least_rank, -, bound⟩ := bound_of_access mem
    obtain ⟨us, rfl, list⟩ := ihRight
    intro least rest rest' r le bounded more
    rw [List.append_assoc]
    exact ihLeft (Nat.le_trans le least_rank) (nextRank_le (by rw [bound]; decide))
      (.call rfl le (list rest) more)
  | suffix mem _ ih =>
    have goesOn := sequel_of_mem_suffixes mem
    intro least rest rest' r le bounded more
    rw [List.append_assoc]
    refine ih (Nat.le_trans le (by decide)) (nextRank_le ?_) (.suffix goesOn le more)
    rw [goesOn]
    exact Nat.le_refl 17
  | unary mem _ ih =>
    intro least rest rest' r le bounded more
    have loose : nextRank rest ≤ 15 := bounded
    exact .unary (opening_of_mem_prefixes mem) (ih.whole (Nat.le_refl _) bounded (by omega)) more
  | binary mem _ _ ihFirst ihSecond =>
    obtain ⟨goesOn, tighter, bound, le_bound⟩ := sequel_of_mem_infixes mem
    intro least rest rest' r le bounded more
    rw [List.append_assoc]
    refine ihFirst le (nextRank_le ?_) (.binary goesOn le ?_ more)
    · rw [goesOn, bound]
      exact Nat.le_refl _
    · exact ihSecond.whole (Nat.le_refl _) (Nat.le_trans bounded le_bound) (by omega)
  | @cond _ us vs _ yes no _ _ _ ihTest ihYes ihNo =>
    intro least rest rest' r le bounded more
    have loose : nextRank rest ≤ 2 := bounded
    have second : Reads (.expr 3) (vs ++ rest) no rest :=
      ihNo.whole (Nat.le_refl _) bounded (by omega)
    have first : Reads (.expr 3) (us ++ .punct ":" :: (vs ++ rest)) yes (.punct ":" :: (vs ++ rest)) :=
      ihYes.whole (Nat.le_refl _) (nextRank_le (by decide)) (nextRank_lt (by decide))
    rw [List.append_assoc, List.append_assoc]
    exact ihTest (Nat.le_trans le (by decide)) (nextRank_le (by decide))
      (.cond rfl le first second more)
  | assign mem _ _ ihFirst ihSecond =>
    have goesOn := sequel_of_mem_assignments mem
    intro least rest rest' r le bounded more
    have loose : nextRank rest ≤ 2 := bounded
    rw [List.append_assoc]
    refine ihFirst (Nat.le_trans le (by decide)) (nextRank_le ?_) (.binary goesOn le ?_ more)
    · rw [goesOn]
      show 3 ≤ 17
      decide
    · exact ihSecond.whole (Nat.le_refl _) bounded (by omega)
  | noArguments => exact ⟨_, rfl, fun rest => .noArgument rfl⟩
  | someArguments _ ih =>
    refine ⟨_ ++ [.punct ")"], rfl, fun rest => ?_⟩
    rw [List.append_assoc]
    exact ih (nextRank_le (by decide)) (.lastArgument rfl)
  | firstArgument _ ih =>
    intro rest rest' r bounded more
    exact ih.argument bounded more
  | nextArgument _ _ ihList ih =>
    intro rest rest' r bounded more
    rw [List.append_assoc]
    exact ihList (nextRank_le (by decide)) (.nextArgument rfl (ih.argument bounded more))
  | firstElement n _ ih =>
    intro rest rest' r bounded more
    rw [List.append_assoc]
    exact reads_elision n (ih.element bounded more)
  | nextElement _ n _ ihList ih =>
    intro rest rest' r bounded more
    rw [List.append_assoc, List.append_assoc]
    refine ihList (nextRank_le (by decide)) (.nextElement rfl ?_)
    exact reads_elision n (ih.element bounded more)
  | firstProperty isKey _ ih =>
    intro rest rest' r bounded more
    exact ih.property isKey bounded more
  | nextProperty _ isKey _ ihList ih =>
    intro rest rest' r bounded more
    rw [List.append_assoc]
    exact ihList (nextRank_le (by decide)) (.nextProperty rfl (ih.property isKey bounded more))

/-- A list of terminals stands for at most one expression of a nonterminal. -/
theorem Derives.unique {n : Nonterminal} {ts : List Terminal} {e e' : Expr}
    (first : Derives (.expr n) ts e) (second : Derives (.expr n) ts e') : e = e' := by
  have rank : nextRank [] < n.rank := by cases n <;> decide
  have reads := first.found.whole (Nat.le_refl _) (Nat.zero_le _) rank
  have reads' := second.found.whole (Nat.le_refl _) (Nat.zero_le _) rank
  exact (reads.unique reads').1

end Minifier.Grammar
