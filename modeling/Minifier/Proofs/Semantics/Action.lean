import Minifier.Proofs.Semantics.Expression

/-!
# Actions

What a statement does, as a relation: from which state it can end how, and in which state. An action
that does not come to an end is related to nothing. An action ends normally or abruptly, with a jump,
a returned value or a thrown one, and what would come after an abrupt end is not done.

Loops are the only actions that are not put together from a fixed number of parts. They are the
closure of their step, so a loop ends exactly if finitely many steps lead to its end.
-/

namespace Minifier

/-- A relation between a state, a result and the state that goes with the result. -/
def Run (S α : Type) := S → α → S → Prop

/-- How an action ends if it does not end normally. -/
inductive Abrupt (V : Type)
  | breakTo (label : Option String)
  | continueTo (label : Option String)
  | ret (v : V)
  | throw (v : V)

/-- How a statement ends: normally or abruptly. -/
abbrev Completion (V : Type) := Except (Abrupt V) Unit

/-- A relation between states whose result is replaced by an abrupt end if there is one. -/
abbrev Action (S V : Type) := ExceptT (Abrupt V) (Run S)

namespace Run

variable {S α : Type}

instance : Monad (Run S) where
  pure a := fun s b t => b = a ∧ t = s
  bind x f := fun s b t => ∃ a u, x s a u ∧ f a u b t

@[ext] theorem ext {x y : Run S α} (same : ∀ s a t, x s a t ↔ y s a t) : x = y := by
  funext s a t
  exact propext (same s a t)

instance : LawfulMonad (Run S) := by
  refine LawfulMonad.mk' _ ?_ ?_ ?_
  · intro α x
    ext s b t
    constructor
    · rintro ⟨a, u, before, rfl, rfl⟩
      exact before
    · intro before
      exact ⟨b, t, before, rfl, rfl⟩
  · intro α β a f
    ext s b t
    constructor
    · rintro ⟨_, _, ⟨rfl, rfl⟩, after⟩
      exact after
    · intro after
      exact ⟨a, s, ⟨rfl, rfl⟩, after⟩
  · intro α β γ x f g
    ext s c t
    constructor
    · rintro ⟨b, u, ⟨a, v, first, second⟩, third⟩
      exact ⟨a, v, first, b, u, second, third⟩
    · rintro ⟨a, v, first, b, u, second, third⟩
      exact ⟨b, u, ⟨a, v, first, second⟩, third⟩

end Run

namespace Action

variable {S V α β : Type}

/-- An effect as an action. What an effect throws is thrown. -/
def perform (x : Effect S V α) : Action S V α :=
  ExceptT.mk fun s r t => ∃ outcome, x s = some (outcome, t) ∧ r = outcome.mapError .throw

/-- The action, with something else done where it ends abruptly. -/
def orElse (x : Action S V α) (other : Abrupt V → Action S V α) : Action S V α :=
  ExceptT.mk do
    match ← x.run with
    | .ok a => return .ok a
    | .error c => (other c).run

/-- The action, with another one after it however it ends. The result is that of the first, unless
the second ends abruptly. -/
def always (x : Action S V α) (last : Action S V Unit) : Action S V α :=
  ExceptT.mk do
    let r ← x.run
    match ← last.run with
    | .ok () => return r
    | .error c => return .error c

/-- The ends of a loop, from the ends of its step, which says whether to go on. -/
inductive Repeats (step : Action S V Bool) : S → Completion V → S → Prop
  | done {s t : S} : step.run s (.ok false) t → Repeats step s (.ok ()) t
  | stop {s t : S} {c : Abrupt V} : step.run s (.error c) t → Repeats step s (.error c) t
  | again {s t u : S} {c : Completion V} :
    step.run s (.ok true) u → Repeats step u c t → Repeats step s c t

/-- Repeats a step as long as it says so. -/
def repeating (step : Action S V Bool) : Action S V Unit :=
  ExceptT.mk (Repeats step)

/-- Nothing is done behind an abrupt end. -/
theorem throw_bind (c : Abrupt V) (f : α → Action S V β) : (throw c >>= f) = throw c := by
  apply ExceptT.ext
  simp

/-- Only what is done at abrupt ends that can come about matters. -/
theorem orElse_congr {x : Action S V α} {f g : Abrupt V → Action S V α}
    (same : ∀ s c t, x.run s (.error c) t → f c = g c) : x.orElse f = x.orElse g := by
  apply Run.ext
  intro s r t
  refine exists_congr fun a => exists_congr fun u => and_congr_right fun ran => ?_
  cases a with
  | ok a => exact Iff.rfl
  | error c =>
    change (f c).run u r t ↔ (g c).run u r t
    rw [same s c u ran]

/-- An abrupt end that is only passed on need not be handled. -/
theorem orElse_throw (x : Action S V α) : x.orElse throw = x := by
  apply ExceptT.ext
  calc x.run >>= (fun r => match r with | .ok a => pure (.ok a) | .error c => pure (.error c))
      = x.run >>= pure := by
        congr 1
        funext r
        cases r <;> rfl
    _ = x.run := bind_pure _

/-- Nothing done after an action leaves its end as it is. -/
theorem always_pure (x : Action S V α) : x.always (pure ()) = x := by
  apply ExceptT.ext
  calc (x.run >>= fun r => (pure (.ok ()) : Run S (Completion V)) >>= fun last =>
        match last with | .ok () => pure r | .error c => pure (.error c))
      = x.run >>= pure := by simp only [pure_bind]
    _ = x.run := bind_pure _

@[simp] theorem perform_pure (a : α) : perform (pure a : Effect S V α) = pure a := by
  apply Run.ext
  intro s r t
  constructor
  · rintro ⟨_, ran, rfl⟩
    cases ran
    exact ⟨rfl, rfl⟩
  · rintro ⟨rfl, rfl⟩
    exact ⟨.ok a, rfl, rfl⟩

/-- Effects are performed one after the other. -/
@[simp] theorem perform_bind (x : Effect S V α) (f : α → Effect S V β) :
    perform (x >>= f) = (perform x >>= fun a => perform (f a)) := by
  apply Run.ext
  intro s r t
  change (∃ outcome, ((x s).bind fun p => _) = _ ∧ _) ↔ ∃ a u, _ ∧ _
  constructor
  · rintro ⟨outcome, ran, rfl⟩
    obtain ⟨⟨first, u⟩, ranFirst, ranSecond⟩ := Option.bind_eq_some_iff.mp ran
    refine ⟨_, u, ⟨first, ranFirst, rfl⟩, ?_⟩
    cases first with
    | ok a => exact ⟨outcome, ranSecond, rfl⟩
    | error v => cases ranSecond; exact ⟨rfl, rfl⟩
  · rintro ⟨_, u, ⟨first, ranFirst, rfl⟩, after⟩
    cases first with
    | ok a =>
      obtain ⟨outcome, ranSecond, rfl⟩ := after
      exact ⟨outcome, Option.bind_eq_some_iff.mpr ⟨_, ranFirst, ranSecond⟩, rfl⟩
    | error v =>
      obtain ⟨rfl, rfl⟩ := after
      exact ⟨.error v, Option.bind_eq_some_iff.mpr ⟨_, ranFirst, rfl⟩, rfl⟩

@[simp] theorem perform_map (f : α → β) (x : Effect S V α) :
    perform (f <$> x) = f <$> perform x := by
  rw [← bind_pure_comp, ← bind_pure_comp, perform_bind]
  simp only [perform_pure]

end Action

end Minifier
