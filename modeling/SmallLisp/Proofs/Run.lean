import SmallLisp.Run

namespace SmallLisp

theorem exists_of_bind_eq_ok {ε α β : Type} {x : Except ε α} {f : α → Except ε β} {b : β}
    (h : (x >>= f) = .ok b) : ∃ a, x = .ok a ∧ f a = .ok b := by
  cases x with
  | ok a => exact ⟨a, rfl, h⟩
  | error e => cases h

namespace Run

variable {σ α β : Type}

def after (r : Run σ α) (s : σ) : σ :=
  match r s with
  | .ok _ t | .error _ t => t

theorem after_of_ok {r : Run σ α} {s t : σ} {a : α} (h : r s = .ok a t) : r.after s = t := by
  rw [after, h]

theorem after_of_error {r : Run σ α} {s t : σ} {e : Fault} (h : r s = .error e t) :
    r.after s = t := by
  rw [after, h]

def outcome (r : Run σ α) (s : σ) : Except Fault α :=
  match r s with
  | .ok a _ => .ok a
  | .error e _ => .error e

theorem outcome_of_ok {r : Run σ α} {s t : σ} {a : α} (h : r s = .ok a t) :
    r.outcome s = .ok a := by
  rw [outcome, h]

theorem outcome_of_error {r : Run σ α} {s t : σ} {e : Fault} (h : r s = .error e t) :
    r.outcome s = .error e := by
  rw [outcome, h]

theorem outcome_of_eq {r r' : Run σ α} {s t : σ} (h : r s = r' t) : r.outcome s = r'.outcome t := by
  rw [outcome, h, outcome]

theorem after_of_eq {r r' : Run σ α} {s t : σ} (h : r s = r' t) : r.after s = r'.after t := by
  rw [after, h, after]

theorem exists_of_outcome {r : Run σ α} {s : σ} {a : α} (h : r.outcome s = .ok a) :
    ∃ t, r s = .ok a t := by
  cases hr : r s with
  | ok b t =>
      rw [outcome_of_ok hr] at h
      cases h
      exact ⟨t, rfl⟩
  | error e t =>
      rw [outcome_of_error hr] at h
      cases h

theorem exists_of_outcome_error {r : Run σ α} {s : σ} {e : Fault} (h : r.outcome s = .error e) :
    ∃ t, r s = .error e t := by
  cases hr : r s with
  | ok b t =>
      rw [outcome_of_ok hr] at h
      cases h
  | error e t =>
      rw [outcome_of_error hr] at h
      cases h
      exact ⟨t, rfl⟩

theorem eq_of_outcome {r r' : Run σ α} {s t : σ} (ho : r.outcome s = r'.outcome t)
    (ha : r.after s = r'.after t) : r s = r' t := by
  cases h : r s with
  | ok a u =>
      rw [outcome_of_ok h] at ho
      rw [after_of_ok h] at ha
      obtain ⟨u', h'⟩ := exists_of_outcome ho.symm
      rw [after_of_ok h'] at ha
      rw [h', ha]
  | error e u =>
      rw [outcome_of_error h] at ho
      rw [after_of_error h] at ha
      obtain ⟨u', h'⟩ := exists_of_outcome_error ho.symm
      rw [after_of_error h'] at ha
      rw [h', ha]

theorem bind_of_ok {r : Run σ α} {f : α → Run σ β} {s t : σ} {a : α} (h : r s = .ok a t) :
    (r >>= f) s = f a t := by
  change EStateM.bind r f s = _
  rw [EStateM.bind, h]

theorem bind_of_error {r : Run σ α} {f : α → Run σ β} {s t : σ} {e : Fault}
    (h : r s = .error e t) : (r >>= f) s = .error e t := by
  change EStateM.bind r f s = _
  rw [EStateM.bind, h]

theorem outcome_bind_of_ok {r : Run σ α} {s t : σ} {a : α} (h : r s = .ok a t) (f : α → Run σ β) :
    (r >>= f).outcome s = (f a).outcome t := by
  rw [outcome, bind_of_ok h, outcome]

theorem after_bind_of_ok {r : Run σ α} {s t : σ} {a : α} (h : r s = .ok a t) (f : α → Run σ β) :
    (r >>= f).after s = (f a).after t := by
  rw [after, bind_of_ok h, after]

theorem exists_of_bind_eq_ok {r : Run σ α} {f : α → Run σ β} {s u : σ} {b : β}
    (h : (r >>= f) s = .ok b u) : ∃ a t, r s = .ok a t ∧ f a t = .ok b u := by
  cases hr : r s with
  | ok a t => exact ⟨a, t, rfl, by rwa [bind_of_ok hr] at h⟩
  | error e t =>
      rw [bind_of_error hr] at h
      cases h

theorem after_bind (r : Run σ α) (f : α → Run σ β) (s : σ) :
    (r >>= f).after s = r.after s ∨ ∃ a, (r >>= f).after s = (f a).after (r.after s) := by
  cases h : r s with
  | ok a t => exact .inr ⟨a, by rw [after_of_ok h, after_bind_of_ok h]⟩
  | error e t => exact .inl (by rw [after_of_error h, after_of_error (bind_of_error h)])

theorem outcome_bind_ofExcept (r : Run σ α) (f : α → Except Fault β) (s : σ) :
    (r >>= fun a => ofExcept (f a)).outcome s = r.outcome s >>= f := by
  cases h : r s with
  | ok a t =>
      rw [outcome_bind_of_ok h, outcome_of_ok h]
      change _ = f a
      cases f a <;> rfl
  | error e t => rw [outcome_of_error h, outcome_of_error (bind_of_error h)]; rfl

theorem after_bind_ofExcept (r : Run σ α) (f : α → Except Fault β) (s : σ) :
    (r >>= fun a => ofExcept (f a)).after s = r.after s := by
  cases h : r s with
  | ok a t =>
      rw [after_bind_of_ok h, after_of_ok h]
      cases f a <;> rfl
  | error e t => rw [after_of_error h, after_of_error (bind_of_error h)]

def Overflows (r : Run σ α) (s : σ) : Prop :=
  ∃ limit t, r s = .error (.stackOverflow limit) t

theorem not_overflows_of_ok {r : Run σ α} {s t : σ} {a : α} (h : r s = .ok a t) :
    ¬ r.Overflows s := by
  rintro ⟨limit, u, hu⟩
  rw [h] at hu
  cases hu

theorem overflows_bind {r : Run σ α} {f : α → Run σ β} {s : σ} :
    (r >>= f).Overflows s ↔ r.Overflows s ∨ ∃ a t, r s = .ok a t ∧ (f a).Overflows t := by
  cases h : r s with
  | ok a t =>
      constructor
      · rintro ⟨limit, u, hu⟩
        exact .inr ⟨a, t, rfl, limit, u, by rwa [bind_of_ok h] at hu⟩
      · rintro (⟨limit, u, hu⟩ | ⟨b, t', hb, limit, u, hu⟩)
        · rw [h] at hu
          cases hu
        · cases hb
          exact ⟨limit, u, by rwa [bind_of_ok h]⟩
  | error e t =>
      constructor
      · rintro ⟨limit, u, hu⟩
        rw [bind_of_error h] at hu
        cases hu
        exact .inl ⟨limit, t, h⟩
      · rintro (⟨limit, u, hu⟩ | ⟨b, t', hb, -⟩)
        · rw [h] at hu
          cases hu
          exact ⟨limit, t, bind_of_error h⟩
        · cases hb

variable [RunState σ]

theorem ask_of_ok {f : Store → Except Fault α} {s : σ} {a : α}
    (h : f (RunState.store s) = .ok a) : (ask f : Run σ α) s = .ok a s := by
  rw [ask, h]

theorem ask_of_error {f : Store → Except Fault α} {s : σ} {e : Fault}
    (h : f (RunState.store s) = .error e) : (ask f : Run σ α) s = .error e s := by
  rw [ask, h]

theorem attempt_of_ok {f : Store → Except Fault α × Store} {s t : σ} {a : α}
    (h : RunState.change f s = (.ok a, t)) : (attempt f : Run σ α) s = .ok a t := by
  rw [attempt, h]

theorem attempt_of_error {f : Store → Except Fault α × Store} {s t : σ} {e : Fault}
    (h : RunState.change f s = (.error e, t)) : (attempt f : Run σ α) s = .error e t := by
  rw [attempt, h]

@[simp]
theorem after_ask (f : Store → Except Fault α) (s : σ) : (ask f : Run σ α).after s = s := by
  cases h : f (RunState.store s) with
  | ok a => exact after_of_ok (ask_of_ok h)
  | error e => exact after_of_error (ask_of_error h)

theorem outcome_ask (f : Store → Except Fault α) (s : σ) :
    (ask f : Run σ α).outcome s = f (RunState.store s) := by
  cases h : f (RunState.store s) with
  | ok a => exact outcome_of_ok (ask_of_ok h)
  | error e => exact outcome_of_error (ask_of_error h)

@[simp]
theorem after_attempt (f : Store → Except Fault α × Store) (s : σ) :
    (attempt f : Run σ α).after s = (RunState.change f s).2 := by
  rcases h : RunState.change f s with ⟨_ | _, t⟩
  · exact after_of_error (attempt_of_error h)
  · exact after_of_ok (attempt_of_ok h)

theorem within_of_ok {r : Run σ α} {s t : σ} {a : α} (h : r (RunState.enter s) = .ok a t) :
    r.within s = .ok a (RunState.leave t) := by
  rw [within, h]

theorem within_of_error {r : Run σ α} {s t : σ} {e : Fault}
    (h : r (RunState.enter s) = .error e t) : r.within s = .error e (RunState.leave t) := by
  rw [within, h]

theorem after_within (r : Run σ α) (s : σ) :
    r.within.after s = RunState.leave (r.after (RunState.enter s)) := by
  cases h : r (RunState.enter s) with
  | ok a t => rw [after_of_ok h, after_of_ok (within_of_ok h)]
  | error e t => rw [after_of_error h, after_of_error (within_of_error h)]

/-- A store is not told of the body of a closure, so a run there is a run like any other. -/
theorem within_store (r : Run Store α) : r.within = r := by
  funext s
  cases h : r s <;> simp only [within, RunState.enter, RunState.leave, h]

end Run

end SmallLisp
