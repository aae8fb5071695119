import SmallLisp.Gauge
import SmallLisp.Logged
import SmallLisp.Proofs.Eval.Lockstep
import SmallLisp.Proofs.Run

namespace SmallLisp

namespace RunState

class Faithful (σ : Type) [RunState σ] : Prop where
  change_eq {α : Type} (f : Store → α × Store) (s : σ) :
    f (store s) = ((change f s).1, store (change f s).2)
  store_enter (s : σ) : store (enter s) = store s
  store_leave (s : σ) : store (leave s) = store s
  store_note (notices : List Notice) (s : σ) : store (note notices s) = store s

instance : Faithful Gauge := ⟨fun _ _ => rfl, fun _ => rfl, fun _ => rfl, fun _ _ => rfl⟩

instance : Faithful Logged := ⟨fun _ _ => rfl, fun _ => rfl, fun _ => rfl, fun _ _ => rfl⟩

end RunState

open RunState (Faithful store)

namespace Run

variable {σ α : Type} [RunState σ] {r : Run σ α} {r' : Run Store α}

def erase : EStateM.Result Fault σ α → EStateM.Result Fault Store α
  | .ok a s => .ok a (store s)
  | .error e s => .error e (store s)

/-- The run on stores does what the other run does to the store of its state. -/
def Erases (r : Run σ α) (r' : Run Store α) : Prop := ∀ s, r' (store s) = erase (r s)

theorem Erases.outcome (h : Erases r r') (s : σ) : r'.outcome (store s) = r.outcome s := by
  rw [Run.outcome, h s, Run.outcome]
  cases r s <;> rfl

theorem Erases.after (h : Erases r r') (s : σ) : r'.after (store s) = store (r.after s) := by
  rw [Run.after, h s, Run.after]
  cases r s <;> rfl

theorem Erases.overflows (h : Erases r r') {s : σ} (hs : r.Overflows s) : r'.Overflows (store s) := by
  obtain ⟨limit, t, ht⟩ := hs
  exact ⟨limit, store t, (h s).trans (congrArg erase ht)⟩

theorem erases_ask (f : Store → Except Fault α) : Erases (ask f : Run σ α) (ask f) := by
  intro s
  cases h : f (store s) with
  | ok a => rw [ask_of_ok h, ask_of_ok (s := store s) h]; rfl
  | error e => rw [ask_of_error h, ask_of_error (s := store s) h]; rfl

theorem erases_bind {β : Type} {f : α → Run σ β} {f' : α → Run Store β} (h : Erases r r')
    (hf : ∀ a, Erases (f a) (f' a)) : Erases (r >>= f) (r' >>= f') := by
  intro s
  have hs := h s
  cases hr : r s with
  | ok a t =>
      rw [hr] at hs
      rw [bind_of_ok hr, bind_of_ok hs]
      exact hf a t
  | error e t =>
      rw [hr] at hs
      rw [bind_of_error hr, bind_of_error hs]
      rfl

variable [Faithful σ]

theorem erases_attempt (f : Store → Except Fault α × Store) :
    Erases (attempt f : Run σ α) (attempt f) := by
  intro s
  have hf := Faithful.change_eq f s
  rcases hs : RunState.change f s with ⟨_ | _, t⟩
  · rw [hs] at hf
    rw [attempt_of_error hs, attempt_of_error hf]
    rfl
  · rw [hs] at hf
    rw [attempt_of_ok hs, attempt_of_ok hf]
    rfl

theorem erases_change (f : Store → α × Store) : Erases (change f : Run σ α) (change f) := by
  intro s
  change EStateM.Result.ok (f (store s)).1 (f (store s)).2 = _
  rw [Faithful.change_eq f s]
  rfl

theorem erases_within (h : Erases r r') : Erases r.within r'.within := by
  intro s
  have hs := h (RunState.enter s)
  rw [Faithful.store_enter] at hs
  cases hr : r (RunState.enter s) with
  | ok a t =>
      rw [within_store, hs, hr, within_of_ok hr]
      exact congrArg (EStateM.Result.ok a) (Faithful.store_leave t).symm
  | error e t =>
      rw [within_store, hs, hr, within_of_error hr]
      exact congrArg (EStateM.Result.error e) (Faithful.store_leave t).symm

theorem erases_lockstep : Lockstep (σ := σ) fun _ r r' => Erases r r' where
  pure _ _ _ := rfl
  throw _ _ _ := rfl
  bind := erases_bind
  note _ notices s :=
    congrArg (EStateM.Result.ok ()) (Faithful.store_note notices s).symm
  lookup _ _ := erases_ask _
  close _ _ _ := erases_change _
  define _ _ _ := erases_attempt _
  extend _ _ h := erases_bind (erases_change _) h

theorem erases_evaluate (limit : Nat) (env : FrameId) (n : Node) :
    Erases (evaluate limit env n : Run σ Value) (evaluate limit env n) :=
  erases_lockstep.evaluate erases_within limit env n

theorem erases_apply (limit : Nat) (c : Closure) (args : List Value) :
    Erases (apply limit c args : Run σ Value) (apply limit c args) :=
  erases_lockstep.applyWithin erases_within limit limit c.env c args

end Run

end SmallLisp
