import SmallLisp.Notice
import SmallLisp.Store

namespace SmallLisp

/-- A state that carries a store, and may carry more to observe a run: it is told when the body of
a closure is entered and when it is left, and what there is to log. -/
class RunState (σ : Type) where
  store : σ → Store
  change {α : Type} : (Store → α × Store) → σ → α × σ
  enter : σ → σ
  leave : σ → σ
  note : List Notice → σ → σ

namespace RunState

instance : RunState Store where
  store s := s
  change f := f
  enter s := s
  leave s := s
  note _ s := s

/-- A state that has no log. -/
class Quiet (σ : Type) [RunState σ] : Prop where
  note_eq (notices : List Notice) (s : σ) : note notices s = s

instance : Quiet Store := ⟨fun _ _ => rfl⟩

end RunState

abbrev Run (σ : Type) := EStateM Fault σ

namespace Run

variable {σ α : Type} [RunState σ]

@[inline]
def ask (f : Store → Except Fault α) : Run σ α := fun s =>
  match f (RunState.store s) with
  | .ok a => .ok a s
  | .error e => .error e s

@[inline]
def change (f : Store → α × Store) : Run σ α := fun s =>
  match RunState.change f s with
  | (a, s) => .ok a s

@[inline]
def attempt (f : Store → Except Fault α × Store) : Run σ α := fun s =>
  match RunState.change f s with
  | (.ok a, s) => .ok a s
  | (.error e, s) => .error e s

@[inline]
def ofExcept : Except Fault α → Run σ α
  | .ok a => pure a
  | .error e => throw e

@[inline]
def note (notices : List Notice) : Run σ Unit := fun s => .ok () (RunState.note notices s)

theorem note_eq_pure [RunState.Quiet σ] (notices : List Notice) :
    (note notices : Run σ Unit) = pure () :=
  funext fun s => congrArg (EStateM.Result.ok ()) (RunState.Quiet.note_eq notices s)

@[inline]
def within (r : Run σ α) : Run σ α := fun s =>
  match r (RunState.enter s) with
  | .ok a s => .ok a (RunState.leave s)
  | .error e s => .error e (RunState.leave s)

end Run

end SmallLisp
