import SmallLisp.Proofs.Eval.Counter
import SmallLisp.Proofs.Eval.Soundness

namespace SmallLisp

variable {α β : Type} {V : Vocabulary} {s t : Store} {call call' : Applying Store} {limit : Nat}

/-- A run from the store `t` that is as good as another, and leaves a store made of `V`. -/
structure CoincideAt (V : Vocabulary) (P : Store → α → Prop) (t : Store) (r r' : Run Store α) :
    Prop where
  eq : r t = r' t
  made : (r.after t).MadeOf V
  before : t.Before (r.after t)
  value : ∀ a, r.outcome t = .ok a → P (r.after t) a

/-- Runs that are one from `s` on, in stores made of `V`. -/
def Coincide (V : Vocabulary) (P : Store → α → Prop) (s : Store) (r r' : Run Store α) : Prop :=
  ∀ t, t.MadeOf V → s.Before t → CoincideAt V P t r r'

namespace Coincide

variable {P : Store → α → Prop} {Q : Store → β → Prop} {r r' : Run Store α}

theorem ofSound {x : Nat → OpenRun α} (h : Sound V P s x r) (h' : Sound V P s x r') :
    Coincide V P s r r' := by
  intro t ht hst
  obtain ⟨hresult, hmade, hbefore, hvalue⟩ := h t ht hst
  have heq := hresult.unique (h' t ht hst).result
  rw [Prod.mk.injEq] at heq
  exact ⟨Run.eq_of_outcome heq.1 heq.2, hmade, hbefore, hvalue⟩

theorem mono (h : Coincide V P s r r') (hst : s.Before t) : Coincide V P t r r' :=
  fun u hu htu => h u hu (hst.trans htu)

theorem pure {a : α} (h : ∀ t, s.Before t → P t a) : Coincide V P s (pure a) (pure a) := by
  intro t ht hst
  refine ⟨rfl, ht, .refl t, ?_⟩
  rintro _ ⟨⟩
  exact h t hst

theorem bind {f f' : α → Run Store β} (h : Coincide V P s r r')
    (hf : ∀ t a, s.Before t → P t a → Coincide V Q t (f a) (f' a)) :
    Coincide V Q s (r >>= f) (r' >>= f') := by
  intro t ht hst
  obtain ⟨heq, hmade, hbefore, hvalue⟩ := h t ht hst
  cases hr : r t with
  | ok a u =>
      rw [Run.outcome_of_ok hr] at hvalue
      rw [Run.after_of_ok hr] at hmade hbefore hvalue
      obtain ⟨heq', hmade', hbefore', hvalue'⟩ :=
        hf u a (hst.trans hbefore) (hvalue a rfl) u hmade (.refl u)
      have hrf : (r >>= f) t = f a u := Run.bind_of_ok hr
      refine ⟨?_, ?_, ?_, ?_⟩
      · rw [hrf, heq', Run.bind_of_ok (heq.symm.trans hr)]
      · rwa [Run.after_of_eq hrf]
      · rw [Run.after_of_eq hrf]
        exact hbefore.trans hbefore'
      · rwa [Run.after_of_eq hrf, Run.outcome_of_eq hrf]
  | error e u =>
      have hrf : (r >>= f) t = .error e u := Run.bind_of_error hr
      rw [Run.after_of_error hr] at hmade hbefore
      refine ⟨?_, ?_, ?_, ?_⟩
      · rw [hrf, Run.bind_of_error (heq.symm.trans hr)]
      · rwa [Run.after_of_error hrf]
      · rwa [Run.after_of_error hrf]
      · rw [Run.outcome_of_error hrf]
        rintro _ ⟨⟩

end Coincide

theorem Coincide.ofExcept {P : Store → α → Prop} {x : Except Fault α}
    (h : ∀ a, x = .ok a → ∀ t, s.Before t → P t a) :
    Coincide V P s (Run.ofExcept x) (Run.ofExcept x) :=
  .ofSound (.ofExcept h) (.ofExcept h)

def Value.AnyMadeOf (V : Vocabulary) (t : Store) (o : Option Value) : Prop :=
  ∀ v, o = some v → v.MadeOf V t

section Steps

variable (hcall : Sound.Applies V limit 0 call) (hcall' : Sound.Applies V limit 0 call')

include hcall hcall'

theorem coincide_eval {env : FrameId} (henv : env < s.frames.size) {n : Node} (hn : V.node n) :
    Coincide V (fun t v => v.MadeOf V t) s (n.eval call env) (n.eval call' env) :=
  .ofSound ((Sound.eval_all hcall).1 env n hn henv) ((Sound.eval_all hcall').1 env n hn henv)

theorem coincide_evalAll {env : FrameId} (henv : env < s.frames.size) {ns : List Node}
    (hns : ∀ n ∈ ns, V.node n) :
    Coincide V (fun t vs => ∀ v ∈ vs, v.MadeOf V t) s (Node.evalAll call env ns)
      (Node.evalAll call' env ns) :=
  .ofSound ((Sound.eval_all hcall).2.2.2 env ns hns henv)
    ((Sound.eval_all hcall').2.2.2 env ns hns henv)

theorem coincide_apply {c : Closure} (hc : c.MadeOf V s) {args : List Value}
    (hargs : ∀ v ∈ args, v.MadeOf V s) :
    Coincide V (fun t v => v.MadeOf V t) s (call c args) (call' c args) :=
  .ofSound (hcall hc hargs) (hcall' hc hargs)

theorem coincide_inOrder {env : FrameId} (henv : env < s.frames.size) {ns : List Node}
    (hns : ∀ n ∈ ns, V.node n) {last : Option Value} (hlast : Value.AnyMadeOf V s last) :
    Coincide V (Value.AnyMadeOf V) s (evaluateInOrder call env last ns)
      (evaluateInOrder call' env last ns) := by
  induction ns generalizing s last with
  | nil => exact .pure fun t hst v hv => (hlast v hv).mono hst
  | cons n ns ih =>
      obtain ⟨hn, hns⟩ := List.forall_mem_cons.1 hns
      refine .bind (coincide_eval hcall hcall' henv hn) fun t v hst hv => ?_
      refine ih (Nat.lt_of_lt_of_le henv hst.frames) hns ?_
      rintro _ ⟨⟩
      exact hv

end Steps

end SmallLisp
