import Minifier.Proofs.SecondPass.Tidy

/-!
# Tidy lists

Each change to a list of statements leaves a list to which it no longer applies, and a later change
does not undo what an earlier one has achieved. So a list that has gone through all of them is tidy, if
its statements are.
-/

namespace Minifier

variable {o : Options}

/-! ## Unreachable statements -/

theorem Declarator.strip_strip (span : Span) (mode : DeclMode) (d : Declarator) :
    (d.strip span mode).strip span mode = d.strip span mode := by
  cases d
  rfl

/-- A declaration has no initial values to lose for a second time. -/
theorem VarDecl.strip_strip (decl : VarDecl) : decl.strip.strip = decl.strip := by
  cases decl
  simp [strip, Declarator.strip_strip]

theorem VarDecl.span_strip (decl : VarDecl) : decl.strip.span = decl.span := by
  cases decl
  rfl

/-- A declaration that was kept is kept as it is. -/
theorem Hoisted.kept_toStmt (h : Hoisted) : h.toStmt.kept = [h.toStmt] := by
  cases h with
  | var decl =>
    simp [toStmt, Stmt.kept, Stmt.leftOver, decl.strip_strip, decl.span_strip]
  | func span name fn => rfl

/-- All that is kept of an unreachable statement is kept as it is if it is unreachable again. -/
theorem Stmt.kept_of_mem_kept {s t : Stmt} (mem : t ∈ s.kept) : t.kept = [t] := by
  unfold kept at mem
  split at mem
  · obtain rfl := List.mem_singleton.mp mem
    rfl
  · obtain ⟨h, _, rfl⟩ := List.mem_map.mp mem
    exact h.kept_toStmt

/-- A list still splits at its first jump when what follows the jump is replaced. -/
theorem unreached_append {stmts rest : List Stmt} (jumps : (splitAtJump stmts).2 = [] → rest = []) :
    (splitAtJump ((splitAtJump stmts).1 ++ rest)).2 = rest := by
  fun_induction splitAtJump stmts with
  | case1 => rw [jumps rfl]; rfl
  | case2 s rest' jump => simp [splitAtJump, jump]
  | case3 s rest' noJump reached unreached split ih =>
    rw [split] at ih
    simpa [splitAtJump, noJump] using ih jumps

/-- What is left behind a jump stays if unreachable statements are dropped again. -/
theorem kept_dropUnreachable (stmts : List Stmt) :
    ∀ s ∈ (splitAtJump (dropUnreachable o stmts).value).2, s.kept = [s] := by
  rw [value_dropUnreachable, unreached_append fun nothing => by rw [nothing]; rfl]
  intro s mem
  obtain ⟨t, _, found⟩ := List.mem_flatMap.mp mem
  exact Stmt.kept_of_mem_kept found

/-- A list stays as it is if each of its statements does. -/
theorem flatMap_eq_self {f : Stmt → List Stmt} {stmts : List Stmt} (fixed : ∀ s ∈ stmts, f s = [s]) :
    stmts.flatMap f = stmts := by
  induction stmts with
  | nil => rfl
  | cons s rest ih =>
    obtain ⟨head, tail⟩ := List.forall_mem_cons.mp fixed
    rw [List.flatMap_cons, head, ih tail]
    rfl

/-- If all that stands behind a jump is kept as it is, nothing is dropped. -/
theorem dropUnreachable_of_kept {stmts : List Stmt}
    (kept : ∀ s ∈ (splitAtJump stmts).2, s.kept = [s]) : (dropUnreachable o stmts).value = stmts := by
  rw [value_dropUnreachable, flatMap_eq_self kept, splitAtJump_append]

/-! ## Runs of expressions -/

/-- There is nothing left to join after expressions have been joined. -/
theorem joinRuns_joinRuns (pending : Option (Place × Expr)) (stmts : List Stmt) :
    joinRuns none (joinRuns pending stmts) = joinRuns pending stmts := by
  fun_induction joinRuns pending stmts with
  | case1 => rfl
  | case2 => rfl
  | case3 pl e rest ih => exact ih
  | case4 pl first next second rest span ih => exact ih
  | case5 s rest other ih => rw [joinRuns.eq_5 _ _ other, ih]
  | case6 pl e s rest other ih => rw [joinRuns, joinRuns.eq_6 _ _ _ _ other, ih]

/-- Joining leaves a lone `return` or `throw` with a value, or it joins runs of expressions only. -/
theorem fuse_eq (stmts : List Stmt) :
    (∃ pl value, fuse stmts = [.ret pl (some value)]) ∨ (∃ pl value, fuse stmts = [.throw pl value]) ∨
      fuse stmts = joinRuns none stmts := by
  unfold fuse
  split
  · exact .inl ⟨_, _, rfl⟩
  · exact .inr (.inl ⟨_, _, rfl⟩)
  · exact .inr (.inr rfl)

/-- Joining for a second time does nothing. -/
theorem fuse_fuse (stmts : List Stmt) : fuse (fuse stmts) = fuse stmts := by
  have ofJoined : fuse (joinRuns none stmts) = fuse stmts := by
    unfold fuse
    rw [joinRuns_joinRuns]
  obtain ⟨pl, value, shape⟩ | ⟨pl, value, shape⟩ | shape := fuse_eq stmts
  · rw [shape]; rfl
  · rw [shape]; rfl
  · calc fuse (fuse stmts) = fuse (joinRuns none stmts) := by rw [shape]
      _ = fuse stmts := ofJoined

/-- If joining does nothing, there are no runs of expressions. -/
theorem joinRuns_of_fuse {stmts : List Stmt} (joined : fuse stmts = stmts) :
    joinRuns none stmts = stmts := by
  obtain ⟨pl, value, shape⟩ | ⟨pl, value, shape⟩ | shape := fuse_eq stmts
  · rw [← joined, shape]; rfl
  · rw [← joined, shape]; rfl
  · rw [← shape, joined]

/-- What is kept of unreachable statements are declarations, among which there is nothing to join. -/
theorem joinRuns_of_kept {stmts : List Stmt} (kept : ∀ s ∈ stmts, s.kept = [s]) :
    joinRuns none stmts = stmts := by
  induction stmts with
  | nil => rfl
  | cons s rest ih =>
    have inRest := ih fun t mem => kept t (List.mem_cons_of_mem s mem)
    cases s with
    | expr pl e => exact absurd (kept _ List.mem_cons_self) (by simp [Stmt.kept, Stmt.leftOver])
    | _ => exact congrArg _ inRest

/-- Joining expressions brings nothing behind a jump that was not there. -/
theorem kept_joinRuns {pending : Option (Place × Expr)} {stmts : List Stmt}
    (kept : ∀ s ∈ (splitAtJump stmts).2, s.kept = [s]) :
    ∀ s ∈ (splitAtJump (joinRuns pending stmts)).2, s.kept = [s] := by
  have step (s : Stmt) (rest : List Stmt)
      (ih : (∀ t ∈ (splitAtJump rest).2, t.kept = [t]) →
        ∀ t ∈ (splitAtJump (joinRuns none rest)).2, t.kept = [t])
      (kept : ∀ t ∈ (splitAtJump (s :: rest)).2, t.kept = [t]) :
      ∀ t ∈ (splitAtJump (s :: joinRuns none rest)).2, t.kept = [t] := by
    by_cases jump : s.isJump = true
    · simp only [splitAtJump, jump, if_true] at kept ⊢
      rwa [joinRuns_of_kept kept]
    · simp only [splitAtJump, jump, Bool.false_eq_true, if_false] at kept ⊢
      exact ih kept
  fun_induction joinRuns pending stmts with
  | case1 => exact kept
  | case2 => exact kept
  | case3 pl e rest ih => exact ih kept
  | case4 pl first next second rest span ih => exact ih kept
  | case5 s rest other ih => exact step s rest ih kept
  | case6 pl e s rest other ih => exact step s rest ih kept

/-- Joining leaves alone what stands behind a jump. -/
theorem kept_fuse {stmts : List Stmt} (kept : ∀ s ∈ (splitAtJump stmts).2, s.kept = [s]) :
    ∀ s ∈ (splitAtJump (fuse stmts)).2, s.kept = [s] := by
  obtain ⟨pl, value, shape⟩ | ⟨pl, value, shape⟩ | shape := fuse_eq stmts
  · simp [shape, splitAtJump, Stmt.isJump]
  · simp [shape, splitAtJump, Stmt.isJump]
  · rw [shape]
    exact kept_joinRuns kept

/-! ## Statements of a list -/

/-- A block that stays one in a list has to be one. -/
theorem needsBlock_of_unwrapped {pl : Place} {body : List Stmt}
    (listed : (Stmt.block pl body).unwrapped = [.block pl body]) : needsBlock body = true := by
  cases needed : needsBlock body with
  | true => rfl
  | false =>
    rw [Stmt.unwrapped, needed, if_neg Bool.false_ne_true] at listed
    -- The block would be a statement of itself.
    have size := congrArg sizeOf listed
    simp at size
    omega

/-- What stays as it is in a list has no braces to lose. -/
theorem Stmt.unbraced_of_unwrapped {s : Stmt} (listed : s.unwrapped = [s]) : s.unbraced = s := by
  cases s with
  | block pl body =>
    simp only [unbraced, blockStmt]
    split
    · rw [if_pos (needsBlock_of_unwrapped listed)]
    · rfl
  | _ => rfl

/-- A tidy statement as part of a list. -/
def Stmt.IsListed (o : Options) (s : Stmt) : Prop :=
  s.Meets (.tidy o) ∧ s.unwrapped = [s]

/-- The statements of a tidy block can stand in another list as they are. -/
theorem Stmt.isListed_of_mem_unwrapped {s t : Stmt} (tidy : s.Meets (.tidy o))
    (mem : t ∈ s.unwrapped) : t.IsListed o := by
  cases s with
  | block pl body =>
    by_cases needed : needsBlock body = true
    · rw [unwrapped, if_pos needed] at mem
      obtain rfl := List.mem_singleton.mp mem
      exact ⟨tidy, by rw [unwrapped, if_pos needed]⟩
    · rw [unwrapped, if_neg needed] at mem
      exact ⟨(stmtsMeet_iff _ _).mp tidy.2.2 t mem, tidy.2.1.unwrapped t mem⟩
  | empty pl => cases mem
  | _ =>
    obtain rfl := List.mem_singleton.mp mem
    exact ⟨tidy, rfl⟩

/-- After blocks are unwrapped, there are none left to unwrap. -/
theorem isListed_unwrapBlocks {stmts : List Stmt} (tidy : ∀ s ∈ stmts, s.Meets (.tidy o)) :
    ∀ t ∈ unwrapBlocks stmts, t.IsListed o := by
  intro t mem
  obtain ⟨s, found, inside⟩ := List.mem_flatMap.mp mem
  exact Stmt.isListed_of_mem_unwrapped (tidy s found) inside

/-- A declaration without initial values is tidy. -/
theorem VarDecl.tidy_strip (decl : VarDecl) : decl.strip.Meets (.tidy o) := by
  obtain ⟨span, mode, declarators⟩ := decl
  change declaratorsMeet _ _
  induction declarators with
  | nil => trivial
  | cons d rest ih =>
    obtain ⟨name, init⟩ := d
    refine ⟨?_, ih⟩
    split <;> trivial

theorem Hoisted.unwrapped_toStmt (h : Hoisted) : h.toStmt.unwrapped = [h.toStmt] := by
  cases h <;> rfl

section HoistedFunctions

variable {c : Check} {span : Span} {name : String} {fn : Func}

/-- No function is hoisted from a declaration of variables. -/
theorem VarDecl.func_not_mem_hoisted {decl : VarDecl} : .func span name fn ∉ decl.hoisted := by
  unfold hoisted
  split <;> simp

theorem LoopHead.func_not_mem_hoisted {head : LoopHead} : .func span name fn ∉ head.hoisted := by
  cases head with
  | decl decl => exact decl.func_not_mem_hoisted
  | expr e => simp [hoisted]

mutual

/-- A function that is declared in a statement is as asked for if the statement is. -/
theorem Stmt.hoisted_meets :
    (s : Stmt) → s.Meets c → .func span name fn ∈ s.hoisted → fn.Meets c
  | .block _ body, meets, mem => stmtsHoisted_meet body meets.2.2 mem
  | .doWhile _ body _, meets, mem => body.hoisted_meets meets.2.1 mem
  | .forIn _ target _ body, meets, mem =>
    (List.mem_append.mp mem).elim (fun found => absurd found LoopHead.func_not_mem_hoisted)
      (body.hoisted_meets meets.2.2.2)
  | .forLoop _ none _ _ body, meets, mem => by
    simp only [Stmt.hoisted, Option.toList_none, List.flatMap_nil, List.nil_append] at mem
    exact body.hoisted_meets meets.2.2.2.2 mem
  | .forLoop _ (some head) _ _ body, meets, mem => by
    simp only [Stmt.hoisted, Option.toList_some, List.flatMap_singleton, List.mem_append,
      LoopHead.func_not_mem_hoisted, false_or] at mem
    exact body.hoisted_meets meets.2.2.2.2 mem
  | .func _ _ fn', meets, mem => by
    simp only [Stmt.hoisted, List.mem_singleton, Hoisted.func.injEq] at mem
    exact mem.2.2 ▸ meets.2
  | .ite _ _ yes none, meets, mem => yes.hoisted_meets meets.2.2.1 mem
  | .ite _ _ yes (some no), meets, mem =>
    (List.mem_append.mp mem).elim (yes.hoisted_meets meets.2.2.1) (no.hoisted_meets meets.2.2.2)
  | .label _ _ body, meets, mem => body.hoisted_meets meets.2 mem
  | .switch _ _ branches, meets, mem => branchesHoisted_meet branches meets.2.2 mem
  | .tryCatch _ (.mk _ body) handler final, meets, mem =>
    (List.mem_append.mp mem).elim
      (fun first => (List.mem_append.mp first).elim (stmtsHoisted_meet body meets.2.1.2)
        (handlerHoisted_meet handler meets.2.2.1))
      (finalHoisted_meet final meets.2.2.2)
  | .var _ decl, _, mem => absurd mem VarDecl.func_not_mem_hoisted
  | .whileLoop _ _ body, meets, mem => body.hoisted_meets meets.2.2 mem
  | .withObject _ _ body, meets, mem => body.hoisted_meets meets.2.2 mem
  | .breakTo _ _, _, mem | .continueTo _ _, _, mem | .debugger _, _, mem | .empty _, _, mem
  | .expr _ _, _, mem | .ret _ _, _, mem | .throw _ _, _, mem => by cases mem

theorem stmtsHoisted_meet :
    (stmts : List Stmt) → stmtsMeet c stmts → .func span name fn ∈ stmtsHoisted stmts → fn.Meets c
  | s :: rest, meets, mem =>
    (List.mem_append.mp mem).elim (s.hoisted_meets meets.1) (stmtsHoisted_meet rest meets.2)

theorem branchesHoisted_meet : (branches : List Branch) → branchesMeet c branches →
    .func span name fn ∈ branchesHoisted branches → fn.Meets c
  | .mk _ _ body :: rest, meets, mem =>
    (List.mem_append.mp mem).elim (stmtsHoisted_meet body meets.2.1.2)
      (branchesHoisted_meet rest meets.2.2)

theorem handlerHoisted_meet : (handler : Option Handler) → handlerMeets c handler →
    .func span name fn ∈ handlerHoisted handler → fn.Meets c
  | some (.mk _ _ body), meets, mem => stmtsHoisted_meet body meets.2 mem

theorem finalHoisted_meet : (final : Option Block) → finalMeets c final →
    .func span name fn ∈ finalHoisted final → fn.Meets c
  | some (.mk _ body), meets, mem => stmtsHoisted_meet body meets.2 mem

end

end HoistedFunctions

/-- A declaration that is kept without the rest of a tidy statement may stand in a list. -/
theorem Stmt.isListed_toStmt {s : Stmt} {h : Hoisted} (tidy : s.Meets (.tidy o))
    (mem : h ∈ s.hoisted) : h.toStmt.IsListed o := by
  refine ⟨?_, h.unwrapped_toStmt⟩
  cases h with
  | var decl => exact ⟨trivial, decl.tidy_strip⟩
  | func span name fn => exact ⟨trivial, s.hoisted_meets tidy mem⟩

/-- What is kept of a tidy statement is tidy, and no block. -/
theorem Stmt.isListed_kept {s t : Stmt} (listed : s.IsListed o) (mem : t ∈ s.kept) :
    t.IsListed o := by
  cases s with
  | func pl name fn =>
    obtain rfl := List.mem_singleton.mp mem
    exact listed
  | var outer decl =>
    obtain rfl := List.mem_singleton.mp mem
    exact ⟨⟨trivial, decl.tidy_strip⟩, rfl⟩
  | _ =>
    obtain ⟨h, found, rfl⟩ := List.mem_map.mp mem
    exact Stmt.isListed_toStmt listed.1 found

/-- Dropping unreachable statements leaves no block to unwrap. -/
theorem isListed_dropUnreachable {stmts : List Stmt} (listed : ∀ s ∈ stmts, s.IsListed o) :
    ∀ t ∈ (dropUnreachable o stmts).value, t.IsListed o := by
  rw [← splitAtJump_append stmts] at listed
  intro t mem
  rw [value_dropUnreachable] at mem
  obtain reached | kept := List.mem_append.mp mem
  · exact listed t (List.mem_append_left _ reached)
  · obtain ⟨s, found, inside⟩ := List.mem_flatMap.mp kept
    exact Stmt.isListed_kept (listed s (List.mem_append_right _ found)) inside

/-- Joining expressions leaves no block to unwrap, and the joined ones are tidy. -/
theorem isListed_joinRuns {pending : Option (Place × Expr)} {stmts : List Stmt}
    (inPending : ∀ p ∈ pending, p.2.Meets (.tidy o)) (listed : ∀ s ∈ stmts, s.IsListed o) :
    ∀ t ∈ joinRuns pending stmts, t.IsListed o := by
  fun_induction joinRuns pending stmts with
  | case1 => exact listed
  | case2 pl e => exact List.forall_mem_singleton.mpr ⟨⟨trivial, inPending _ rfl⟩, rfl⟩
  | case3 pl e rest ih =>
    obtain ⟨head, tail⟩ := List.forall_mem_cons.mp listed
    refine ih ?_ tail
    rintro p ⟨⟩
    exact head.1.2
  | case4 pl first next second rest span ih =>
    obtain ⟨head, tail⟩ := List.forall_mem_cons.mp listed
    refine ih ?_ tail
    rintro p ⟨⟩
    exact tidy_comma (inPending _ rfl) head.1.2
  | case5 s rest other ih =>
    obtain ⟨head, tail⟩ := List.forall_mem_cons.mp listed
    exact List.forall_mem_cons.mpr ⟨head, ih inPending tail⟩
  | case6 pl e s rest other ih =>
    obtain ⟨head, tail⟩ := List.forall_mem_cons.mp listed
    have joined : (Stmt.expr pl e).IsListed o := ⟨⟨trivial, inPending _ rfl⟩, rfl⟩
    exact List.forall_mem_cons.mpr ⟨joined, List.forall_mem_cons.mpr ⟨head, ih (by simp) tail⟩⟩

/-- So does joining an expression with a `return` or a `throw`. -/
theorem isListed_fuse {stmts : List Stmt} (listed : ∀ s ∈ stmts, s.IsListed o) :
    ∀ t ∈ fuse stmts, t.IsListed o := by
  have joined : ∀ t ∈ joinRuns none stmts, t.IsListed o := isListed_joinRuns (by simp) listed
  unfold fuse
  split
  · next shape =>
    simp only [shape, List.forall_mem_cons] at joined
    exact List.forall_mem_singleton.mpr ⟨⟨trivial, tidy_comma joined.1.1.2 joined.2.1.1.2⟩, rfl⟩
  · next shape =>
    simp only [shape, List.forall_mem_cons] at joined
    exact List.forall_mem_singleton.mpr ⟨⟨trivial, tidy_comma joined.1.1.2 joined.2.1.1.2⟩, rfl⟩
  · exact joined

/-! ## Tidy lists -/

/-- A list is tidy if its statements are tidy and stay as they are in a list, and if neither dropping
nor joining applies. -/
theorem bodyMeets_iff {body : List Stmt} :
    bodyMeets (.tidy o) body ↔ (∀ s ∈ body, s.IsListed o) ∧
      (o.deadCode = true → ∀ s ∈ (splitAtJump body).2, s.kept = [s]) ∧
      (o.sequences = true → fuse body = body) := by
  unfold bodyMeets
  rw [stmtsMeet_iff]
  constructor
  · rintro ⟨⟨unwrapped, reached, joined⟩, tidy⟩
    exact ⟨fun s mem => ⟨tidy s mem, unwrapped s mem⟩, reached, joined⟩
  · rintro ⟨listed, reached, joined⟩
    exact ⟨⟨fun s mem => (listed s mem).2, reached, joined⟩, fun s mem => (listed s mem).1⟩

/-- A list of tidy statements is tidy after all changes to it. -/
theorem tidy_tighten {stmts : List Stmt} (tidy : ∀ s ∈ stmts, s.Meets (.tidy o)) :
    bodyMeets (.tidy o) (tighten o stmts).value := by
  rw [value_tighten]
  dsimp only
  generalize shape : (if o.deadCode then (dropUnreachable o (unwrapBlocks stmts)).value
    else unwrapBlocks stmts) = reachable
  have listed : ∀ s ∈ reachable, s.IsListed o := by
    subst shape
    split
    · exact isListed_dropUnreachable (isListed_unwrapBlocks tidy)
    · exact isListed_unwrapBlocks tidy
  have reached : o.deadCode = true → ∀ s ∈ (splitAtJump reachable).2, s.kept = [s] := by
    intro drops
    rw [← shape, if_pos drops]
    exact kept_dropUnreachable _
  rw [bodyMeets_iff]
  split
  · exact ⟨isListed_fuse listed, fun drops => kept_fuse (reached drops), fun _ => fuse_fuse _⟩
  · next apart => exact ⟨listed, reached, fun joins => absurd joins apart⟩

/-- A list of one tidy statement is tidy. -/
theorem tidy_singleton {s : Stmt} (listed : s.IsListed o) : bodyMeets (.tidy o) [s] := by
  refine bodyMeets_iff.mpr ⟨List.forall_mem_singleton.mpr listed, fun _ => ?_, fun _ => ?_⟩
  · simp only [splitAtJump]
    split <;> simp
  · cases s <;> rfl

/-- A tidy statement gives a tidy list when it is unwrapped. -/
theorem Stmt.tidy_unwrapped {s : Stmt} (tidy : s.Meets (.tidy o)) :
    bodyMeets (.tidy o) s.unwrapped := by
  cases s with
  | block pl body =>
    by_cases needed : needsBlock body = true
    · have single : (Stmt.block pl body).unwrapped = [.block pl body] := by
        rw [unwrapped, if_pos needed]
      rw [single]
      exact tidy_singleton ⟨tidy, single⟩
    · rw [unwrapped, if_neg needed]
      exact tidy.2
  | empty pl =>
    exact bodyMeets_iff.mpr ⟨by simp [unwrapped], by simp [unwrapped, splitAtJump], fun _ => rfl⟩
  | _ => exact tidy_singleton ⟨tidy, rfl⟩

/-- Declarations before a list leave nothing more to join in it. -/
theorem joinRuns_declarations_append (decls : List VarDecl) {body : List Stmt}
    (joined : joinRuns none body = body) :
    joinRuns none (decls.map (fun d => (Hoisted.var d).toStmt) ++ body) =
      decls.map (fun d => (Hoisted.var d).toStmt) ++ body := by
  induction decls with
  | nil => exact joined
  | cons d rest ih => exact congrArg _ ih

/-- Declarations before a list do not jump, so the same statements are unreachable. -/
theorem unreached_declarations_append (decls : List VarDecl) (body : List Stmt) :
    (splitAtJump (decls.map (fun d => (Hoisted.var d).toStmt) ++ body)).2 = (splitAtJump body).2 := by
  induction decls with
  | nil => rfl
  | cons d rest ih => exact ih

/-- Declarations of variables may stand in front of a tidy list. -/
theorem tidy_declarations_append (decls : List VarDecl) {body : List Stmt}
    (tidy : bodyMeets (.tidy o) body) :
    bodyMeets (.tidy o) (decls.map (fun d => (Hoisted.var d).toStmt) ++ body) := by
  obtain ⟨listed, reached, joined⟩ := bodyMeets_iff.mp tidy
  refine bodyMeets_iff.mpr ⟨?_, fun drops => ?_, fun joins => ?_⟩
  · intro s mem
    obtain inDecls | inBody := List.mem_append.mp mem
    · obtain ⟨d, _, rfl⟩ := List.mem_map.mp inDecls
      exact ⟨⟨trivial, d.tidy_strip⟩, rfl⟩
    · exact listed s inBody
  · rw [unreached_declarations_append]
    exact reached drops
  · cases decls with
    | nil => exact joined joins
    | cons d rest =>
      unfold fuse
      rw [joinRuns_declarations_append (d :: rest) (joinRuns_of_fuse (joined joins))]
      rfl

end Minifier
