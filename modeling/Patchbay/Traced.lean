/-! Computations that report events on their way to a result or an error. -/

namespace Patchbay

/-- How much an event matters. -/
inductive Event.Level where
  | debug
  | info
  | warning
deriving DecidableEq

/-- Something worth telling about a computation. -/
structure Event where
  level : Event.Level
  text : String
deriving DecidableEq

/-- The name of a level. -/
def Event.Level.name : Event.Level → String
  | debug => "DEBUG"
  | info => "INFO"
  | warning => "WARN"

/-- The events of a computation in order, and how it ended. An error keeps the events before it. -/
structure Traced (ε α : Type) where
  events : List Event
  outcome : Except ε α

namespace Traced

variable {ε α β : Type}

/-- A computation without events. -/
def ofExcept (outcome : Except ε α) : Traced ε α := ⟨[], outcome⟩

/-- Reports one event. -/
def report (level : Event.Level) (text : String) : Traced ε Unit := ⟨[⟨level, text⟩], .ok ()⟩

/-- Continues with the result of a computation, unless it failed. -/
def andThen (x : Traced ε α) (f : α → Traced ε β) : Traced ε β :=
  match x.outcome with
  | .error e => ⟨x.events, .error e⟩
  | .ok a => ⟨x.events ++ (f a).events, (f a).outcome⟩

instance : Monad (Traced ε) where
  pure a := ofExcept (.ok a)
  bind := andThen

instance : MonadLift (Except ε) (Traced ε) := ⟨ofExcept⟩

/-- Replaces the error of a computation. -/
def mapError {δ : Type} (f : ε → δ) (x : Traced ε α) : Traced δ α :=
  ⟨x.events, x.outcome.mapError f⟩

@[simp] theorem outcome_pure (a : α) : (pure a : Traced ε α).outcome = .ok a := rfl

@[simp] theorem outcome_ofExcept (x : Except ε α) : (ofExcept x).outcome = x := rfl

/-- Without its events, a computation is one that can fail. -/
@[simp] theorem outcome_bind (x : Traced ε α) (f : α → Traced ε β) :
    (x >>= f).outcome = x.outcome >>= fun a => (f a).outcome := by
  show (andThen x f).outcome = _
  unfold andThen
  cases x.outcome <;> rfl

@[simp] theorem outcome_foldlM (f : β → α → Traced ε β) (b : β) (l : List α) :
    (l.foldlM f b).outcome = l.foldlM (fun b a => (f b a).outcome) b := by
  induction l generalizing b with
  | nil => rfl
  | cons a l ih =>
    rw [List.foldlM_cons, outcome_bind, List.foldlM_cons]
    congr 1
    exact funext fun b => ih b

end Traced

end Patchbay
