import Minifier.Proofs.Bindings

/-!
# Directive prologues

String literals that stand as statements before all other statements of a program or a function are
its directives. No change to a list of statements asks for them. If expressions are left apart, all
directives stay in place, but a string literal can come to stand behind them that was no directive.
If expressions are joined, a directive is an expression like any other: it stays one only if it is
alone and nothing behind it takes it in.
-/

namespace Minifier

/-- The text of a statement that is a string literal. -/
def Stmt.directive? : Stmt → Option String
  | .expr _ (.str _ text) => some text
  | _ => none

/-- The directives of a list: the texts of the string literals that stand in front. -/
def prologue : List Stmt → List String
  | [] => []
  | s :: rest =>
    match s.directive? with
    | some text => text :: prologue rest
    | none => []

/-- The statements behind the directives. -/
def behindPrologue : List Stmt → List Stmt
  | [] => []
  | s :: rest =>
    match s.directive? with
    | some _ => behindPrologue rest
    | none => s :: rest

/-- The simplified list before expressions are joined. -/
def unjoined (o : Options) (body : List Stmt) : List Stmt :=
  let simplified := unwrapBlocks (minifyStmts o body).value
  if o.deadCode then (dropUnreachable o simplified).value else simplified

/-- An expression in front of the list is not joined with anything in it. -/
def LeavesApart : List Stmt → Prop
  | .expr _ _ :: _ => False
  | [.ret _ (some _)] | [.throw _ _] => False
  | _ => True

/-- The directives of a list are those of the simplified list. If expressions are left apart, no string
literal may come to stand right behind them. If expressions are joined, there is one directive, which
what comes to stand behind it leaves apart; or there is none, and no string literal comes to stand in
front that is left apart. -/
def PrologueStands (o : Options) (body : List Stmt) : Prop :=
  let behind := unjoined o (behindPrologue body)
  if o.sequences then
    match prologue body with
    | [] => ∀ s rest, behind = s :: rest → LeavesApart rest → s.directive? = none
    | [_] => LeavesApart behind
    | _ => False
  else prologue behind = []

/-- What becomes of the directives of a list. -/
structure KeepsPrologue (o : Options) (before after : List Stmt) : Prop where
  same_iff : prologue after = prologue before ↔ PrologueStands o before
  apart : o.sequences = false →
    prologue after = prologue before ++ prologue (unjoined o (behindPrologue before))
  joined : o.sequences = true → prologue after = [] ∨
    (prologue after).length = 1 ∧
      prologue after = prologue before ++ prologue (unjoined o (behindPrologue before))

variable {o : Options}

/-! ## Lists before expressions are joined -/

/-- Joining expressions is the last thing done to a list. -/
theorem value_minifyBody (body : List Stmt) :
    (minifyBody o body).value =
      if o.sequences then fuse (unjoined o body) else unjoined o body := by
  rw [minifyBody, Report.value_bind, value_tighten]
  rfl

/-- A directive is a string literal that stands as a statement. -/
theorem Stmt.eq_of_directive? {s : Stmt} {text : String} (directive : s.directive? = some text) :
    ∃ pl inner, s = .expr pl (.str inner text) := by
  unfold Stmt.directive? at directive
  split at directive
  · next pl inner found =>
    cases directive
    exact ⟨pl, inner, rfl⟩
  · cases directive

/-- A statement that is no jump stays in front. -/
theorem dropUnreachable_cons {s : Stmt} (goesOn : s.isJump = false) (rest : List Stmt) :
    (dropUnreachable o (s :: rest)).value = s :: (dropUnreachable o rest).value := by
  simp only [value_dropUnreachable, splitAtJump, goesOn, Bool.false_eq_true, if_false,
    List.cons_append]

/-- No change but joining concerns a directive. -/
theorem unjoined_cons {s : Stmt} {text : String} (directive : s.directive? = some text)
    (rest : List Stmt) : unjoined o (s :: rest) = s :: unjoined o rest := by
  obtain ⟨pl, inner, rfl⟩ := Stmt.eq_of_directive? directive
  have simplified : unwrapBlocks (minifyStmts o (.expr pl (.str inner text) :: rest)).value =
      .expr pl (.str inner text) :: unwrapBlocks (minifyStmts o rest).value := rfl
  unfold unjoined
  rw [simplified]
  split
  · exact dropUnreachable_cons rfl _
  · rfl

/-- If expressions are left apart, the directives stay, and others may come to stand behind them. -/
theorem prologue_unjoined (body : List Stmt) :
    prologue (unjoined o body) = prologue body ++ prologue (unjoined o (behindPrologue body)) := by
  induction body with
  | nil => rfl
  | cons s rest ih =>
    cases directive : s.directive? with
    | none => simp only [prologue, behindPrologue, directive, List.nil_append]
    | some text =>
      rw [unjoined_cons directive]
      simp only [prologue, behindPrologue, directive, ih, List.cons_append]

/-! ## Joined expressions -/

/-- A run that is not a string literal does not become one. -/
theorem joinRuns_pending {pl : Place} {e : Expr} (other : (Stmt.expr pl e).directive? = none)
    (stmts : List Stmt) :
    ∃ s rest, joinRuns (some (pl, e)) stmts = s :: rest ∧ s.directive? = none := by
  induction stmts generalizing pl e with
  | nil => exact ⟨.expr pl e, [], rfl, other⟩
  | cons s rest ih =>
    cases s with
    | expr next second =>
      rw [joinRuns]
      exact ih rfl
    | _ => exact ⟨.expr pl e, _, rfl, other⟩

/-- The first statement stays by itself if the others leave it apart. -/
theorem joinRuns_cons {s : Stmt} {rest : List Stmt} (apart : LeavesApart rest) :
    joinRuns none (s :: rest) = s :: joinRuns none rest := by
  cases s with
  | expr pl e =>
    cases rest with
    | nil => rfl
    | cons t rest =>
      cases t with
      | expr next f => exact apart.elim
      | _ => rfl
  | _ => rfl

/-- What leaves an expression apart does not begin with one, so its first statement is no directive and
stays where it is. -/
theorem LeavesApart.cases {rest : List Stmt} (apart : LeavesApart rest) :
    rest = [] ∨ ∃ s more, rest = s :: more ∧ s.directive? = none ∧
      joinRuns none rest = s :: joinRuns none more := by
  cases rest with
  | nil => exact .inl rfl
  | cons s more =>
    cases s with
    | expr pl e => exact apart.elim
    | _ => exact .inr ⟨_, more, rfl, rfl, rfl⟩

/-- Where joining leaves one statement that was left apart, there was only that one. -/
theorem eq_singleton_of_joinRuns {s : Stmt} {rest : List Stmt} (apart : LeavesApart rest)
    (joined : joinRuns none rest = [s]) : rest = [s] := by
  obtain rfl | ⟨t, more, rfl, -, headStays⟩ := apart.cases
  · cases joined
  · rw [headStays] at joined
    obtain ⟨rfl, noMore⟩ := List.cons.inj joined
    rw [joinRuns_eq_nil noMore]

/-- What leaves an expression apart has no directives, and joining gives it none. -/
theorem LeavesApart.prologues {rest : List Stmt} (apart : LeavesApart rest) :
    prologue rest = [] ∧ prologue (joinRuns none rest) = [] := by
  obtain rfl | ⟨s, more, rfl, other, headStays⟩ := apart.cases
  · exact ⟨rfl, rfl⟩
  · simp only [headStays, prologue, other, and_self]

/-- If a list begins with no directive once its runs are joined, it has none in the end. -/
theorem prologue_fuse_of_joined {s : Stmt} {stmts rest : List Stmt}
    (joined : joinRuns none stmts = s :: rest) (other : s.directive? = none) :
    prologue (fuse stmts) = [] := by
  unfold fuse
  split
  · rfl
  · rfl
  · rw [joined]
    simp only [prologue, other]

/-- A string literal that is left apart stays a directive. -/
theorem prologue_fuse_of_leavesApart {s : Stmt} {rest : List Stmt} (apart : LeavesApart rest) :
    prologue (fuse (s :: rest)) = s.directive?.toList := by
  have joined : joinRuns none (s :: rest) = s :: joinRuns none rest := joinRuns_cons apart
  have noExit {first last : Stmt} (shape : joinRuns none (s :: rest) = [first, last]) :
      LeavesApart [last] := by
    have behind : joinRuns none rest = [last] := (List.cons.inj (joined ▸ shape)).2
    exact eq_singleton_of_joinRuns apart behind ▸ apart
  unfold fuse
  split
  · next shape => exact (noExit shape).elim
  · next shape => exact (noExit shape).elim
  · rw [joined, prologue, apart.prologues.2]
    cases s.directive? <;> rfl

/-- An expression in front that is joined with the next one is no directive any more. -/
theorem prologue_fuse_of_not_leavesApart {s : Stmt} {rest : List Stmt}
    (joins : ¬ LeavesApart rest) : prologue (fuse (s :: rest)) = [] := by
  cases s with
  | expr pl e =>
    unfold LeavesApart at joins
    split at joins
    · next next f rest =>
      let span := pl.outer.cover next.outer
      have comma : (Stmt.expr (.both span) (.comma span e f)).directive? = none := rfl
      obtain ⟨s, behind, joined, other⟩ := joinRuns_pending comma rest
      exact prologue_fuse_of_joined joined other
    · rfl
    · rfl
    · exact (joins trivial).elim
  | _ => exact prologue_fuse_of_joined rfl rfl

/-! ## Directives of simplified lists -/

/-- A joined list has no directives exactly if it begins with none that is left apart. -/
theorem prologue_fuse_eq_nil_iff (stmts : List Stmt) :
    prologue (fuse stmts) = [] ↔
      ∀ s rest, stmts = s :: rest → LeavesApart rest → s.directive? = none := by
  cases stmts with
  | nil => simp [fuse, joinRuns, prologue]
  | cons s rest =>
    by_cases apart : LeavesApart rest
    · rw [prologue_fuse_of_leavesApart apart, Option.toList_eq_nil_iff]
      constructor
      · rintro other s rest ⟨⟩ -
        exact other
      · intro others
        exact others s rest rfl apart
    · simp only [prologue_fuse_of_not_leavesApart apart, true_iff]
      rintro s rest ⟨⟩ apart'
      exact (apart apart').elim

/-- Without directives the whole list stands behind them. -/
theorem behindPrologue_eq_self {body : List Stmt} (none : prologue body = []) :
    behindPrologue body = body := by
  cases body with
  | nil => rfl
  | cons s rest =>
    cases directive : s.directive? with
    | none => simp only [behindPrologue, directive]
    | some text => simp [prologue, directive] at none

/-- Joining leaves at most one directive, and that only if there would be no other one without it. -/
theorem prologue_fuse (stmts : List Stmt) :
    prologue (fuse stmts) = [] ∨
      (prologue (fuse stmts)).length = 1 ∧ prologue (fuse stmts) = prologue stmts := by
  cases stmts with
  | nil => exact .inl rfl
  | cons s rest =>
    by_cases apart : LeavesApart rest
    · rw [prologue_fuse_of_leavesApart apart, prologue, apart.prologues.1]
      cases s.directive? with
      | none => exact .inl rfl
      | some text => exact .inr ⟨rfl, rfl⟩
    · exact .inl (prologue_fuse_of_not_leavesApart apart)

/-- The first directive is the first statement, and the other ones are those of the rest. -/
theorem prologue_eq_cons {body : List Stmt} {text : String} {texts : List String}
    (found : prologue body = text :: texts) :
    ∃ s rest, body = s :: rest ∧ s.directive? = some text ∧ prologue rest = texts := by
  cases body with
  | nil => cases found
  | cons s rest =>
    cases directive : s.directive? with
    | none => simp [prologue, directive] at found
    | some first =>
      simp only [prologue, directive, List.cons.injEq] at found
      obtain ⟨rfl, behind⟩ := found
      exact ⟨s, rest, rfl, directive, behind⟩

/-- Joining keeps the directives exactly if the prologue stands. -/
theorem prologue_fuse_eq_iff (joins : o.sequences = true) (body : List Stmt) :
    prologue (fuse (unjoined o body)) = prologue body ↔ PrologueStands o body := by
  rcases found : prologue body with _ | ⟨text, _ | ⟨next, texts⟩⟩
  · simp only [PrologueStands, joins, if_true, found, behindPrologue_eq_self found]
    exact prologue_fuse_eq_nil_iff _
  · obtain ⟨s, rest, rfl, directive, noMore⟩ := prologue_eq_cons found
    simp only [PrologueStands, joins, if_true, found, behindPrologue, directive,
      behindPrologue_eq_self noMore, unjoined_cons directive]
    by_cases apart : LeavesApart (unjoined o rest)
    · simp [prologue_fuse_of_leavesApart apart, directive, apart]
    · simp [prologue_fuse_of_not_leavesApart apart, apart]
  · -- The second directive takes in the first.
    obtain ⟨s, rest, rfl, directive, more⟩ := prologue_eq_cons found
    obtain ⟨t, rest, rfl, second, -⟩ := prologue_eq_cons more
    have joined : ¬ LeavesApart (t :: unjoined o rest) := by
      obtain ⟨pl, inner, rfl⟩ := Stmt.eq_of_directive? second
      exact id
    simp only [PrologueStands, joins, if_true, found, unjoined_cons directive, unjoined_cons second]
    simp [prologue_fuse_of_not_leavesApart joined]

/-- What becomes of the directives of any list that is simplified. -/
theorem keepsPrologue_minifyBody (o : Options) (body : List Stmt) :
    KeepsPrologue o body (minifyBody o body).value where
  same_iff := by
    rw [value_minifyBody]
    by_cases joins : o.sequences = true
    · rw [if_pos joins]
      exact prologue_fuse_eq_iff joins body
    · rw [if_neg joins, PrologueStands, if_neg joins, prologue_unjoined]
      exact List.append_right_eq_self
  apart stays := by
    rw [value_minifyBody, stays]
    exact prologue_unjoined body
  joined joins := by
    rw [value_minifyBody, if_pos joins, ← prologue_unjoined]
    exact prologue_fuse _

/-- What becomes of the directives of a program, and of the functions that are left of it. -/
theorem prologues_minify (o : Options) (p : Program) :
    KeepsPrologue o p.body (p.minify o).value.body ∧
      ∃ survivors ≤ stmtsFunctions p.body,
        stmtsFunctions (p.minify o).value.body =
            survivors.map (fun fn => (Func.minify o fn).value) ∧
          ∀ fn ∈ survivors, KeepsPrologue o fn.body (fn.minify o).value.body := by
  refine ⟨keepsPrologue_minifyBody o p.body, ?_⟩
  obtain ⟨survivors, part, shape⟩ := stmtsFunctions_minifyBody o p.body
  refine ⟨survivors, part, shape, ?_⟩
  intro fn _
  rw [fn.body_minify]
  exact keepsPrologue_minifyBody o fn.body

/-- The case of `"use strict"; f()`. The directive is joined with what follows it, and none is left. -/
theorem prologue_minify_ne :
    let here : Place := default
    let p : Program := ⟨default, [.expr here (.str here "use strict"),
      .expr here (.call here false (.ident here "f") [])]⟩
    let o := Options.all true
    prologue p.body = ["use strict"] ∧ prologue (p.minify o).value.body = [] ∧
      (p.minify o).value.render = "\"use strict\",f();" := by
  decide +kernel

end Minifier
