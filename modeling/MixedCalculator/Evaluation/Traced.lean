import MixedCalculator.Fault

namespace MixedCalculator

/-!
# Computations that leave a trace

An evaluation reports what it does as it goes along.  A traced computation is a list of
events together with an outcome.  When it fails, the events up to the failure remain: they
tell how far it came.
-/

/-- Events in the order of their occurrence, and the outcome they lead to. -/
structure Traced (Event : Type) (α : Type) where
  events : List Event
  outcome : Except Fault α

namespace Traced

variable {Event : Type}

/-- Continue a computation that succeeded; a failed one is continued by nothing. -/
def andThen {α β : Type} (first : Traced Event α) (next : α -> Traced Event β) :
    Traced Event β :=
  match first.outcome with
  | .ok a =>
      let second := next a
      ⟨first.events ++ second.events, second.outcome⟩
  | .error fault => ⟨first.events, .error fault⟩

instance : Monad (Traced Event) where
  pure a := ⟨[], .ok a⟩
  bind := andThen

/-- A computation that may fail but reports nothing. -/
def silently {α : Type} (outcome : Except Fault α) : Traced Event α :=
  ⟨[], outcome⟩

/-- Fail without a report. -/
def fail {α : Type} (fault : Fault) : Traced Event α :=
  silently (.error fault)

/-- Report one event. -/
def emit (event : Event) : Traced Event Unit :=
  ⟨[event], .ok ()⟩

/-! ## Outcomes

Seen through its outcome alone, a traced computation is an ordinary one that may fail.
-/

@[simp] theorem outcome_pure {α : Type} (a : α) :
    (pure a : Traced Event α).outcome = .ok a := rfl

@[simp] theorem outcome_silently {α : Type} (outcome : Except Fault α) :
    (silently outcome : Traced Event α).outcome = outcome := rfl

@[simp] theorem outcome_fail {α : Type} (fault : Fault) :
    (fail fault : Traced Event α).outcome = .error fault := rfl

@[simp] theorem outcome_emit (event : Event) : (emit event).outcome = .ok () := rfl

@[simp] theorem outcome_bind {α β : Type} (first : Traced Event α)
    (next : α -> Traced Event β) :
    (first >>= next).outcome = first.outcome.bind (fun a => (next a).outcome) := by
  obtain ⟨events, outcome⟩ := first
  cases outcome <;> rfl

instance : LawfulMonad (Traced Event) :=
  LawfulMonad.mk' _
    (by
      rintro α ⟨events, outcome⟩
      cases outcome with
      | error fault => rfl
      | ok a => simp [Functor.map, andThen])
    (fun a next => by simp [pure, bind, andThen])
    (by
      rintro α β γ ⟨events, outcome⟩ second third
      cases outcome with
      | error fault => rfl
      | ok a =>
          simp only [bind, andThen]
          cases (second a).outcome with
          | error fault => rfl
          | ok b => simp only [List.append_assoc])

end Traced

end MixedCalculator
