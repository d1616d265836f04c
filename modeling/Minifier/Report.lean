import Minifier.Finding
import Minifier.Options

/-!
# Results with findings

A simplification gives a value together with the findings made on the way, in the order in which
they were made.
-/

namespace Minifier

/-- A value and the findings that came up with it. -/
structure Report (α : Type) where
  value : α
  findings : List Finding := []

namespace Report

/-- First one step and then another, which depends on the value of the first. -/
def andThen {α β : Type} (x : Report α) (f : α → Report β) : Report β :=
  let y := f x.value
  ⟨y.value, x.findings ++ y.findings⟩

instance : Monad Report where
  pure x := ⟨x, []⟩
  bind := andThen

/-- Makes a finding, unless findings are not wanted. -/
def note (o : Options) (f : Finding) : Report Unit :=
  ⟨(), if o.warnings then [f] else []⟩

@[simp] theorem value_pure {α : Type} (x : α) : (pure x : Report α).value = x := rfl

@[simp] theorem findings_pure {α : Type} (x : α) : (pure x : Report α).findings = [] := rfl

@[simp] theorem value_bind {α β : Type} (x : Report α) (f : α → Report β) :
    (x >>= f).value = (f x.value).value := rfl

@[simp] theorem findings_bind {α β : Type} (x : Report α) (f : α → Report β) :
    (x >>= f).findings = x.findings ++ (f x.value).findings := rfl

end Report

end Minifier
