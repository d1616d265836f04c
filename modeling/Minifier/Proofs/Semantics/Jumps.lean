import Minifier.Proofs.Exits
import Minifier.Proofs.Semantics.Statement

/-!
# Where jumps lead

A statement that ends with a jump to a label has that jump among its exits. So the labels before a
statement do not matter, unless a `continue` that leads out of it names one of them.
-/

namespace Minifier

open Minifier.Action

variable {S V R α β : Type}

namespace Action

/-- Every abrupt end of the action is of the given kind. -/
def EndsIn (x : Action S V α) (kind : Abrupt V → Prop) : Prop :=
  ∀ s c t, x.run s (.error c) t → kind c

namespace EndsIn

variable {kind : Abrupt V → Prop}

theorem pure (a : α) : (pure a : Action S V α).EndsIn kind := by
  rintro s c t ⟨shape, -⟩
  cases shape

theorem throw {c : Abrupt V} (here : kind c) : (throw c : Action S V α).EndsIn kind := by
  rintro s d t ⟨shape, -⟩
  cases shape
  exact here

/-- One action after another ends abruptly in one of the two. -/
theorem bind {x : Action S V α} {f : α → Action S V β} (first : x.EndsIn kind)
    (second : ∀ a, (f a).EndsIn kind) : (x >>= f).EndsIn kind := by
  rintro s c t ⟨r, u, ran, after⟩
  cases r with
  | ok a => exact second a u c t after
  | error d =>
    obtain ⟨shape, rfl⟩ := after
    cases shape
    exact first s c t ran

/-- An effect ends abruptly only by throwing. -/
theorem perform (thrown : ∀ v, kind (.throw v)) (x : Effect S V α) : (perform x).EndsIn kind := by
  rintro s c t ⟨outcome, ran, shape⟩
  cases outcome with
  | ok a => cases shape
  | error v =>
    cases shape
    exact thrown v

/-- An action that is handled ends as its handlers do. -/
theorem orElse {x : Action S V α} {other : Abrupt V → Action S V α}
    (handled : ∀ s c t, x.run s (.error c) t → (other c).EndsIn kind) :
    (x.orElse other).EndsIn kind := by
  rintro s c t ⟨r, u, ran, after⟩
  cases r with
  | ok a =>
    obtain ⟨shape, -⟩ := after
    cases shape
  | error d => exact handled s d u ran u c t after

/-- What is done in any case may end abruptly itself. -/
theorem always {x : Action S V α} {last : Action S V Unit} (first : x.EndsIn kind)
    (second : last.EndsIn kind) : (x.always last).EndsIn kind := by
  rintro s c t ⟨r, u, ran, q, v, ranLast, after⟩
  cases q with
  | ok done =>
    obtain ⟨rfl, rfl⟩ := after
    exact first s c u ran
  | error d =>
    obtain ⟨shape, rfl⟩ := after
    cases shape
    exact second u c t ranLast

/-- A loop ends abruptly where a round of it does. -/
theorem repeating {step : Action S V Bool} (each : step.EndsIn kind) :
    (repeating step).EndsIn kind := by
  intro s c t ran
  generalize shape : (Except.error c : Completion V) = r at ran
  change Repeats step s r t at ran
  induction ran with
  | done _ => cases shape
  | stop here => cases shape; exact each _ _ _ here
  | again _ _ ih => exact ih shape

/-- The body of a loop takes the jumps that go on with the loop. -/
theorem loopBody {labels : List String} {body : Action S V Unit}
    (each : body.EndsIn fun c => c.goesOn? labels = none → kind c) :
    (loopBody labels body).EndsIn kind := by
  refine orElse fun s c t ran => ?_
  have inBody : (body >>= fun _ => Pure.pure true).EndsIn fun c => c.goesOn? labels = none → kind c :=
    bind each fun _ => pure true
  split
  · exact pure _
  · next passes => exact throw (inBody s c t ran passes)

/-- A statement takes the breaks that lead behind it. -/
theorem breakable {label : Option String} {x : Action S V Unit}
    (each : x.EndsIn fun c => c.isBreakTo label = false → kind c) :
    (breakable label x).EndsIn kind := by
  refine orElse fun s c t ran => ?_
  split
  · exact pure ()
  · next passes => exact throw (each s c t ran (by simpa using passes))

theorem mono {wider : Abrupt V → Prop} {x : Action S V α} (each : x.EndsIn kind)
    (widen : ∀ c, kind c → wider c) : x.EndsIn wider :=
  fun s c t ran => widen c (each s c t ran)

end EndsIn

end Action

/-- The body of a loop. -/
def Stmt.loopBody? : Stmt → Option Stmt
  | .doWhile _ body _ | .forIn _ _ _ body | .forLoop _ _ _ _ body | .whileLoop _ _ body => some body
  | _ => none

/-- The jump to a label that an abrupt end is. -/
def Abrupt.exit? : Abrupt V → Option Jump
  | .breakTo (some l) => some (.breakTo l)
  | .continueTo (some l) => some (.continueTo l)
  | .breakTo none | .continueTo none | .ret _ | .throw _ => none

/-- An abrupt end that is one of the given jumps, if it is a jump to a label at all. -/
def Abrupt.IsAmong (exits : List Jump) (c : Abrupt V) : Prop :=
  ∀ j, c.exit? = some j → j ∈ exits

/-- A jump that is one of a few is one of more. -/
theorem Abrupt.IsAmong.mono {exits more : List Jump} {c : Abrupt V} (sub : exits ⊆ more)
    (among : c.IsAmong exits) : c.IsAmong more :=
  fun j found => sub (among j found)

namespace StmtSemantics

variable {sem : StmtSemantics S V R} {kind : Abrupt V → Prop}

/-- Entering and leaving a scope makes no jump. -/
theorem endsIn_inScope (thrown : ∀ v, kind (.throw v)) {names : List (DeclMode × String)}
    {x : Action S V α} (inside : x.EndsIn kind) : (sem.inScope names x).EndsIn kind :=
  .bind (.perform thrown _) fun _ => .always inside (.perform thrown _)

/-- Apart from what it throws, a loop ends abruptly only where its body does and the loop takes no
care of it. -/
theorem endsIn_loop (thrown : ∀ v, kind (.throw v)) {s body : Stmt} {labels : List String}
    (found : s.loopBody? = some body)
    (inside : (loopBody labels (sem.run body [])).EndsIn kind) : (sem.run s labels).EndsIn kind := by
  cases s with
  | doWhile pl _ test =>
    cases found
    refine .repeating (.bind inside fun more => ?_)
    split
    · exact .perform thrown _
    · exact .pure _
  | whileLoop pl test _ =>
    cases found
    refine .repeating (.bind (.perform thrown _) fun more => ?_)
    split
    · exact inside
    · exact .pure _
  | forIn pl target object _ =>
    cases found
    refine .bind (.perform thrown _) fun _ => .bind (.perform thrown _) fun _ =>
      .bind (.perform thrown _) fun keys => .repeating (.bind (.perform thrown _) fun key => ?_)
    split
    · exact .pure _
    · exact endsIn_inScope thrown (.bind (.perform thrown _) fun _ => inside)
  | forLoop pl init test step _ =>
    cases found
    refine endsIn_inScope thrown (.bind (.perform thrown _) fun _ =>
      .repeating (.bind (.perform thrown _) fun more => ?_))
    split
    · refine .bind inside fun again => ?_
      split
      · exact .bind (.perform thrown _) fun _ => .bind (.perform thrown _) fun _ => .pure _
      · exact .pure _
    · exact .pure _
  | _ => cases found

/-- A loop takes care of a `continue` that names a label before it. -/
theorem endsIn_of_isLoop {l : String} : (s : Stmt) → s.isLoop = true → (labels : List String) →
    l ∈ labels → (sem.run s labels).EndsIn fun c => c ≠ .continueTo (some l)
  | .label _ name body, loop, labels, mem =>
    .breakable ((endsIn_of_isLoop body loop (name :: labels) (List.mem_cons_of_mem _ mem)).mono
      fun _ other _ => other)
  | .doWhile _ body _, _, labels, mem | .whileLoop _ _ body, _, labels, mem
  | .forIn _ _ _ body, _, labels, mem | .forLoop _ _ _ _ body, _, labels, mem => by
    refine endsIn_loop (fun v shape => by cases shape) rfl (.loopBody ?_)
    rintro s c t - passes rfl
    simp [Abrupt.goesOn?, mem] at passes

/-- What is no jump to a label leads nowhere. -/
theorem isAmong_of_no_exit {exits : List Jump} {c : Abrupt V} (none : c.exit? = none) :
    c.IsAmong exits := by
  intro j found
  rw [none] at found
  cases found

theorem isAmong_throw {exits : List Jump} (v : V) : (Abrupt.throw v).IsAmong exits :=
  isAmong_of_no_exit rfl

/-- A jump out of a labelled statement names another label, or is a `continue` while the label stands
before no loop. -/
theorem isAmong_label {name : String} {body : Stmt} {c : Abrupt V} (among : c.IsAmong body.exits)
    (noBreak : c.isBreakTo (some name) = false)
    (noContinue : body.isLoop = true → c ≠ .continueTo (some name)) (pl : Place) :
    c.IsAmong (Stmt.label pl name body).exits := by
  intro j found
  refine List.mem_filter.mpr ⟨among j found, ?_⟩
  cases c with
  | breakTo label => cases label <;> cases found; simpa [Abrupt.isBreakTo, Jump.endsAt] using noBreak
  | continueTo label =>
    cases label <;> cases found
    by_cases loop : body.isLoop = true <;> simp_all [Jump.endsAt]
  | _ => cases found

mutual

/-- A statement that ends with a jump to a label has it among its exits. -/
theorem endsIn_run : (s : Stmt) → (labels : List String) →
    (sem.run s labels).EndsIn (Abrupt.IsAmong s.exits)
  | .block _ body, _ => endsIn_inScope isAmong_throw (endsIn_runAll body)
  | .breakTo _ none, _ => .throw (isAmong_of_no_exit rfl)
  | .breakTo _ (some l), _ => .throw fun j found => by cases found; exact List.mem_singleton.mpr rfl
  | .continueTo _ none, _ => .throw (isAmong_of_no_exit rfl)
  | .continueTo _ (some l), _ =>
    .throw fun j found => by cases found; exact List.mem_singleton.mpr rfl
  | .debugger _, _ | .empty _, _ => .pure _
  | .doWhile _ body _, _ | .whileLoop _ _ body, _ | .forIn _ _ _ body, _
  | .forLoop _ _ _ _ body, _ =>
    endsIn_loop isAmong_throw rfl (.loopBody ((endsIn_run body []).mono fun _ among _ => among))
  | .expr _ _, _ => .bind (.perform isAmong_throw _) fun _ => .pure _
  | .func _ _ _, _ => .perform isAmong_throw _
  | .ite _ _ yes no, _ => by
    refine .bind (.perform isAmong_throw _) fun truth => ?_
    split
    · exact (endsIn_run yes []).mono fun _ => .mono (List.subset_append_left _ _)
    · exact (endsIn_runElse no).mono fun _ => .mono (List.subset_append_right _ _)
  | .label pl name body, labels => by
    refine .breakable fun s c t ran noBreak => isAmong_label ?_ noBreak (fun loop => ?_) pl
    · exact endsIn_run body (name :: labels) s c t ran
    · exact endsIn_of_isLoop body loop (name :: labels) List.mem_cons_self s c t ran
  | .ret _ _, _ => .bind (.perform isAmong_throw _) fun _ => .throw (isAmong_of_no_exit rfl)
  | .switch _ _ branches, _ => by
    refine .bind (.perform isAmong_throw _) fun v => endsIn_inScope isAmong_throw (.breakable ?_)
    exact (endsIn_runCases v (endsIn_runDefault branches) branches (List.Subset.refl _)).mono
      fun _ among _ => among
  | .throw _ _, _ => .bind (.perform isAmong_throw _) fun _ => .throw (isAmong_throw _)
  | .tryCatch _ body handler final, _ =>
    have inBody := (endsIn_runBlock body).mono fun _ => .mono (List.subset_append_left _ _)
    have inRest := List.subset_append_right body.exits (handlerExits handler ++ finalExits final)
    endsIn_runFinal
      (endsIn_runHandler inBody handler (List.Subset.trans (List.subset_append_left _ _) inRest)) final
      (List.Subset.trans (List.subset_append_right _ _) inRest)
  | .var _ _, _ => .perform isAmong_throw _
  | .withObject _ _ body, _ => .bind (.perform isAmong_throw _) fun _ =>
    .bind (.perform isAmong_throw _) fun _ =>
      .always (endsIn_run body []) (.perform isAmong_throw _)

theorem endsIn_runElse : (no : Option Stmt) → (sem.runElse no).EndsIn (Abrupt.IsAmong (elseExits no))
  | none => .pure _
  | some s => endsIn_run s []

/-- A list of statements ends in one of its exits. -/
theorem endsIn_runAll : (body : List Stmt) →
    (sem.runAll body).EndsIn (Abrupt.IsAmong (stmtsExits body))
  | [] => .pure _
  | s :: rest => .bind ((endsIn_run s []).mono fun _ => .mono (List.subset_append_left _ _)) fun _ =>
    (endsIn_runAll rest).mono fun _ => .mono (List.subset_append_right _ _)

/-- A `switch` ends in an exit of its branches, wherever it begins to run them. -/
theorem endsIn_runCases (v : V) {other : Action S V Unit} {exits : List Jump}
    (otherwise : other.EndsIn (Abrupt.IsAmong exits)) : (branches : List Branch) →
      branchesExits branches ⊆ exits →
      (sem.runCases v other branches).EndsIn (Abrupt.IsAmong exits)
  | [], _ => otherwise
  | .mk _ none _ :: rest, sub =>
    endsIn_runCases v otherwise rest (List.append_subset.mp sub).2
  | .mk _ (some _) body :: rest, sub => by
    refine .bind (.perform isAmong_throw _) fun w => .bind (.perform isAmong_throw _) fun same => ?_
    split
    · exact .bind ((endsIn_runAll body).mono fun _ => .mono (List.append_subset.mp sub).1) fun _ =>
        (endsIn_runBranches rest).mono fun _ => .mono (List.append_subset.mp sub).2
    · exact endsIn_runCases v otherwise rest (List.append_subset.mp sub).2

theorem endsIn_runDefault : (branches : List Branch) →
    (sem.runDefault branches).EndsIn (Abrupt.IsAmong (branchesExits branches))
  | [] => .pure _
  | .mk _ none body :: rest =>
    .bind ((endsIn_runAll body).mono fun _ => .mono (List.subset_append_left _ _)) fun _ =>
      (endsIn_runBranches rest).mono fun _ => .mono (List.subset_append_right _ _)
  | .mk _ (some _) _ :: rest =>
    (endsIn_runDefault rest).mono fun _ => .mono (List.subset_append_right _ _)

theorem endsIn_runBranches : (branches : List Branch) →
    (sem.runBranches branches).EndsIn (Abrupt.IsAmong (branchesExits branches))
  | [] => .pure _
  | .mk _ _ body :: rest =>
    .bind ((endsIn_runAll body).mono fun _ => .mono (List.subset_append_left _ _)) fun _ =>
      (endsIn_runBranches rest).mono fun _ => .mono (List.subset_append_right _ _)

/-- A block ends in one of its exits. -/
theorem endsIn_runBlock : (block : Block) → (sem.runBlock block).EndsIn (Abrupt.IsAmong block.exits)
  | .mk _ body => endsIn_inScope isAmong_throw (endsIn_runAll body)

/-- The `catch` part takes what is thrown, and no jumps. -/
theorem endsIn_runHandler {x : Action S V Unit} {exits : List Jump}
    (first : x.EndsIn (Abrupt.IsAmong exits)) : (handler : Option Handler) →
      handlerExits handler ⊆ exits → (sem.runHandler x handler).EndsIn (Abrupt.IsAmong exits)
  | none, _ => first
  | some (.mk _ param body), sub => by
    refine .orElse fun s c t ran => ?_
    split
    · refine .bind (.perform isAmong_throw _) fun _ => .always ?_ (.perform isAmong_throw _)
      exact endsIn_inScope isAmong_throw ((endsIn_runAll body).mono fun _ => .mono sub)
    · exact .throw (first s _ t ran)

/-- The `finally` part may end with a jump of its own. -/
theorem endsIn_runFinal {x : Action S V Unit} {exits : List Jump}
    (first : x.EndsIn (Abrupt.IsAmong exits)) : (final : Option Block) →
      finalExits final ⊆ exits → (sem.runFinal x final).EndsIn (Abrupt.IsAmong exits)
  | none, _ => first
  | some block, sub => .always first ((endsIn_runBlock block).mono fun _ => .mono sub)

end

/-! ## Labels that do not matter -/

/-- The labels before a loop matter to its body only. -/
theorem run_loop_congr {s body : Stmt} {labels others : List String}
    (found : s.loopBody? = some body)
    (same : loopBody labels (sem.run body []) = loopBody others (sem.run body [])) :
    sem.run s labels = sem.run s others := by
  cases s with
  | doWhile | whileLoop | forIn | forLoop => cases found; simp only [run, same]
  | _ => cases found

/-- They do not matter there either, if the same jumps go on with the loop. -/
theorem loopBody_congr {labels others : List String} {x : Action S V Unit}
    (same : x.EndsIn fun c => c.goesOn? labels = c.goesOn? others) :
    loopBody labels x = loopBody others x := by
  have inBody : (x >>= fun _ => pure true).EndsIn fun c => c.goesOn? labels = c.goesOn? others :=
    .bind same fun _ => .pure true
  refine orElse_congr fun s c t ran => ?_
  rw [inBody s c t ran]

/-- The labels before a statement matter only if a `continue` leads out of it that names one. -/
theorem run_labels : (s : Stmt) → {labels others : List String} →
    (∀ l, .continueTo l ∈ s.exits → (l ∈ labels ↔ l ∈ others)) →
    sem.run s labels = sem.run s others
  | .label pl name body, labels, others, same => by
    have inBody : ∀ l, .continueTo l ∈ body.exits → (l ∈ name :: labels ↔ l ∈ name :: others) := by
      intro l mem
      by_cases here : l = name
      · simp [here]
      · have out : .continueTo l ∈ (Stmt.label pl name body).exits :=
          List.mem_filter.mpr ⟨mem, by simp [Jump.endsAt, here]⟩
        simpa [here] using same l out
    rw [run, run, run_labels body inBody]
  | .doWhile _ body _, labels, others, same | .whileLoop _ _ body, labels, others, same
  | .forIn _ _ _ body, labels, others, same | .forLoop _ _ _ _ body, labels, others, same => by
    refine run_loop_congr rfl (loopBody_congr fun s c t ran => ?_)
    have among := endsIn_run body [] s c t ran
    cases c with
    | continueTo label =>
      cases label with
      | none => rfl
      | some l => simp only [Abrupt.goesOn?, same l (among _ rfl)]
    | breakTo label => cases label <;> rfl
    | ret | throw => rfl
  | .block _ _, _, _, _ | .breakTo _ _, _, _, _ | .continueTo _ _, _, _, _ | .debugger _, _, _, _
  | .empty _, _, _, _ | .expr _ _, _, _, _ | .func _ _ _, _, _, _ | .ite _ _ _ _, _, _, _
  | .ret _ _, _, _, _ | .switch _ _ _, _, _, _ | .throw _ _, _, _, _ | .tryCatch _ _ _ _, _, _, _
  | .var _ _, _, _, _ | .withObject _ _ _, _, _, _ => by simp only [run]

/-- The labels before a statement that is no loop do not matter. -/
theorem run_no_labels {s : Stmt} {labels : List String}
    (apart : ∀ l ∈ labels, .continueTo l ∉ s.exits) : sem.run s labels = sem.run s [] :=
  run_labels s fun l mem => ⟨fun named => absurd mem (apart l named), fun none => by cases none⟩

end StmtSemantics

end Minifier
