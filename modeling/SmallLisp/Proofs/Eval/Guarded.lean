import SmallLisp.Proofs.Eval.WellFormed

namespace SmallLisp

variable {α : Type} {V : Vocabulary} {s : Store} {given : List Node} {limit depth room : Nat}

/-- Applies a closure as it is due where `check` lets it pass, after its arguments have been counted
and room has been found for its body. Elsewhere it does what `other` does. -/
def applyGuarded (check : Store → Closure → List Value → Bool) (other : Applying Store)
    (limit : Nat) : Nat → Applying Store
  | room, c, args => do
      Run.ofExcept (c.checkArity args.length)
      match room with
      | 0 => throw (.stackOverflow limit)
      | room + 1 =>
          if check (← get) c args then
            let scope ← Run.change (·.extend c.env (c.params.zip args))
            Node.eval (applyGuarded check other limit room) scope c.body
          else other c args

section Guarded

variable {check : Store → Closure → List Value → Bool} {other : Applying Store} {c : Closure}
  {args : List Value}

theorem applyGuarded_of_error {e : Fault} (h : c.checkArity args.length = .error e) :
    applyGuarded check other limit room c args = throw e := by
  cases room <;> rw [applyGuarded, h] <;> rfl

theorem applyGuarded_zero (h : c.checkArity args.length = .ok ()) :
    applyGuarded check other limit 0 c args = throw (.stackOverflow limit) := by
  rw [applyGuarded, h]
  rfl

theorem applyGuarded_succ (h : c.checkArity args.length = .ok ()) (hcheck : check s c args) :
    applyGuarded check other limit (room + 1) c args s = (do
      let scope ← Run.change (·.extend c.env (c.params.zip args))
      Node.eval (applyGuarded check other limit room) scope c.body : Run Store Value) s := by
  rw [applyGuarded, h]
  change (if check s c args then _ else _ : Run Store Value) s = _
  rw [if_pos hcheck]

theorem arity_of_checkArity (h : c.checkArity args.length = .ok ()) : args.length = c.arity := by
  rw [Closure.checkArity] at h
  by_contra hne
  rw [if_neg hne] at h
  cases h

end Guarded

namespace Sound

variable {P : Store → α → Prop} {x : Nat → OpenRun α} {r r' : Run Store α}

theorem congr (h : Sound V P s x r) (he : ∀ t, t.MadeOf V → s.Before t → r' t = r t) :
    Sound V P s x r' := by
  intro t ht hst
  obtain ⟨hresult, hmade, hbefore, hvalue⟩ := h t ht hst
  have hrun := he t ht hst
  rw [← Run.outcome_of_eq hrun, ← Run.after_of_eq hrun] at hresult
  rw [← Run.after_of_eq hrun] at hmade hbefore
  rw [← Run.outcome_of_eq hrun, ← Run.after_of_eq hrun] at hvalue
  exact ⟨hresult, hmade, hbefore, hvalue⟩

/-- In stores made of parts of given nodes, every application that passes its checks is let pass if
well-formed closures are. -/
theorem applies_guarded {check : Store → Closure → List Value → Bool} (other : Applying Store)
    (hcheck : ∀ s c args, c.AppliesExactly given s args → check s c args)
    (h : depth + room = limit) :
    Applies (.ofParts given) limit depth (applyGuarded check other limit room) := by
  induction room generalizing depth with
  | zero =>
      intro s c args _ _
      cases hc : c.checkArity args.length with
      | error e =>
          rw [applyGuarded_of_error hc]
          exact call (OpenRun.apply_of_error limit · depth hc) (throw e)
      | ok _ =>
          rw [applyGuarded_zero hc]
          exact call (fun k => OpenRun.apply_of_not_lt limit k depth hc (by omega)) (throw _)
  | succ room ih =>
      intro s c args hmade hargs
      cases hc : c.checkArity args.length with
      | error e =>
          rw [applyGuarded_of_error hc]
          exact call (OpenRun.apply_of_error limit · depth hc) (throw e)
      | ok _ =>
          refine (entered (ih (by omega)) (by omega) hc hmade hargs).congr fun t ht hst => ?_
          have hgood := ((hmade.mono hst).wellFormed ht).appliesExactly (arity_of_checkArity hc)
          exact applyGuarded_succ hc (hcheck t c args hgood)

end Sound

end SmallLisp
