import Mathlib.Data.List.Forall2
import SmallLisp.Proofs.Eval.Yields

namespace SmallLisp

variable {α β : Type} {s t : Store}

/-- From `s` on, whatever frames there are besides, the first run is the second and keeps all
frames. -/
def RunsAs (s : Store) (r r' : Run Store α) : Prop :=
  ∀ t, Keeps s t → r t = r' t ∧ Keeps t (r.after t)

namespace RunsAs

variable {r r' : Run Store α}

theorem of_keeps (h : ∀ t, Keeps t (r.after t)) : RunsAs s r r := fun t _ => ⟨rfl, h t⟩

theorem pure (a : α) : RunsAs s (pure a) (pure a) := of_keeps .refl

theorem ofExcept (x : Except Fault α) : RunsAs s (Run.ofExcept x) (Run.ofExcept x) := by
  cases x with
  | ok a => exact pure a
  | error e => exact of_keeps .refl

theorem applyWithin (limit room : Nat) (c : Closure) (args : List Value) :
    RunsAs s (applyWithin limit room c args) (applyWithin limit room c args) :=
  of_keeps fun t => Extends.keeps_of_forall fun env =>
    Run.extending_lockstep.applyWithin Run.extending_within limit room env c args t

theorem bind {f f' : α → Run Store β} (h : RunsAs s r r') (hf : ∀ a, RunsAs s (f a) (f' a)) :
    RunsAs s (r >>= f) (r' >>= f') := by
  intro t ht
  obtain ⟨hr, hkeeps⟩ := h t ht
  cases hx : r t with
  | ok a u =>
      rw [Run.after_of_ok hx] at hkeeps
      obtain ⟨hfa, hkeeps'⟩ := hf a u (ht.trans hkeeps)
      rw [Run.bind_of_ok hx, Run.bind_of_ok (hr.symm.trans hx), Run.after_bind_of_ok hx]
      exact ⟨hfa, hkeeps.trans hkeeps'⟩
  | error e u =>
      have hrf : (r >>= f) t = .error e u := Run.bind_of_error hx
      rw [Run.after_of_error hx] at hkeeps
      rw [hrf, Run.bind_of_error (hr.symm.trans hx), Run.after_of_error hrf]
      exact ⟨rfl, hkeeps⟩

theorem andThen {a : α} {f : α → Run Store β} {r' : Run Store β} (h : RunsAs s r (Pure.pure a))
    (hf : RunsAs s (f a) r') : RunsAs s (r >>= f) r' := by
  intro t ht
  obtain ⟨hr, -⟩ := h t ht
  have hrf : (r >>= f) t = f a t := Run.bind_of_ok hr
  rw [Run.after, hrf]
  exact hf t ht

end RunsAs

abbrev Reads (call : Applying Store) (s : Store) (env : FrameId) (n : Node) (v : Value) : Prop :=
  RunsAs s (n.eval call env) (pure v)

namespace RunsAs

variable {call : Applying Store} {env : FrameId} {head : Node}

theorem symbol {name : String} {v : Value} (h : s.find? env name = some v) :
    Reads call s env (.symbol name) v := by
  intro t ht
  have hlookup : t.lookup env name = .ok v := by
    rw [Store.lookup, Store.find?_keeps ht h]
  have hrun : (Node.symbol name).eval call env t = .ok v t := by
    rw [Node.eval]
    exact Run.ask_of_ok hlookup
  rw [Run.after_of_ok hrun]
  exact ⟨hrun, .refl t⟩

theorem quoted (n : Node) : Reads call s env n.quoted (.ofNode n) := by
  unfold Reads Node.quoted
  rw [Node.eval_quote _ _ rfl]
  exact pure _

theorem operands {n : Node} {ns : List Node} {r : Run Store Value} {rs : Run Store (List Value)}
    (h : RunsAs s (n.eval call env) r) (hs : RunsAs s (Node.evalAll call env ns) rs) :
    RunsAs s (Node.evalAll call env (n :: ns)) (do return (← r) :: (← rs)) := by
  rw [Node.evalAll]
  exact bind h fun v => bind hs fun vs => pure (v :: vs)

theorem reads {ns : List Node} {vs : List Value} (h : List.Forall₂ (Reads call s env) ns vs) :
    RunsAs s (Node.evalAll call env ns) (Pure.pure vs) := by
  induction h with
  | nil => exact pure []
  | cons hv _ ih =>
      rw [Node.evalAll]
      exact andThen hv (andThen ih (pure _))

theorem strict {k : Keyword} {ns : List Node} {r : Run Store (List Value)}
    (hk : head.keyword? = some k) (hl : ns.length = k.operands) (hs : k.isStrict)
    (h : RunsAs s (Node.evalAll call env ns) r) :
    RunsAs s ((Node.list (head :: ns)).eval call env) (do Run.ofExcept (k.compute (← r))) := by
  rw [Node.eval_strict _ _ hk hl hs]
  exact bind h fun vs => ofExcept _

theorem computes {k : Keyword} {ns : List Node} {vs : List Value} {v : Value}
    (hk : head.keyword? = some k) (hl : ns.length = k.operands) (hs : k.isStrict)
    (h : List.Forall₂ (Reads call s env) ns vs) (hv : k.compute vs = .ok v) :
    Reads call s env (.list (head :: ns)) v := by
  unfold Reads
  rw [Node.eval_strict _ _ hk hl hs]
  refine andThen (reads h) ?_
  rw [hv]
  exact pure v

theorem ifElse {test yes no : Node} {r ry rn : Run Store Value}
    (hk : head.keyword? = some (.form .ifElse)) (htest : RunsAs s (test.eval call env) r)
    (hyes : RunsAs s (yes.eval call env) ry) (hno : RunsAs s (no.eval call env) rn) :
    RunsAs s ((Node.list [head, test, yes, no]).eval call env)
      (do if (← r).isTruthy then ry else rn) := by
  rw [Node.eval_ifElse _ _ hk]
  refine bind htest fun v => ?_
  by_cases hv : v.isTruthy
  · rw [if_pos hv, if_pos hv]
    exact hyes
  · rw [if_neg hv, if_neg hv]
    exact hno

theorem ifTrue {test yes no : Node} {v : Value} {r : Run Store Value}
    (hk : head.keyword? = some (.form .ifElse)) (htest : Reads call s env test v)
    (hv : v.isTruthy) (hyes : RunsAs s (yes.eval call env) r) :
    RunsAs s ((Node.list [head, test, yes, no]).eval call env) r := by
  rw [Node.eval_ifElse _ _ hk]
  refine andThen htest ?_
  rwa [if_pos hv]

theorem ifFalse {test yes no : Node} {v : Value} {r : Run Store Value}
    (hk : head.keyword? = some (.form .ifElse)) (htest : Reads call s env test v)
    (hv : ¬ v.isTruthy) (hno : RunsAs s (no.eval call env) r) :
    RunsAs s ((Node.list [head, test, yes, no]).eval call env) r := by
  rw [Node.eval_ifElse _ _ hk]
  refine andThen htest ?_
  rwa [if_neg hv]

theorem ofCall {limit room : Nat} {c : Closure} {ns : List Node} {vs : List Value}
    (hk : head.keyword? = none)
    (hhead : Reads (SmallLisp.applyWithin limit room) s env head (.closure c))
    (h : List.Forall₂ (Reads (SmallLisp.applyWithin limit room) s env) ns vs) :
    RunsAs s ((Node.list (head :: ns)).eval (SmallLisp.applyWithin limit room) env)
      (SmallLisp.applyWithin limit room c vs) := by
  rw [Node.eval_call _ _ hk]
  refine andThen hhead (andThen (ofExcept _) ?_)
  rw [h.length_eq]
  cases hc : c.checkArity vs.length with
  | ok _ => exact andThen (pure ()) (andThen (reads h) (applyWithin limit room c vs))
  | error e =>
      rw [applyWithin_of_error limit hc]
      exact of_keeps .refl

theorem enter {limit room : Nat} {c : Closure} {args : List Value} {r : Run Store Value}
    (harity : args.length = c.arity)
    (h : ∀ t scope, Keeps s t →
      (∀ name v, (c.params.zip args).reverse.lookup name = some v →
        t.find? scope name = some v) →
      (∀ name v, (c.params.zip args).reverse.lookup name = none → s.find? c.env name = some v →
        t.find? scope name = some v) →
      RunsAs t (c.body.eval (SmallLisp.applyWithin limit room) scope) r) :
    SmallLisp.applyWithin limit (room + 1) c args s = r (s.extend c.env (c.params.zip args)).2 := by
  obtain ⟨hr, -⟩ := h (s.extend c.env (c.params.zip args)).2 (s.extend c.env (c.params.zip args)).1
    (keeps_push s _) (fun name v hv => Store.find?_extend _ _ (.inl hv))
    (fun name v hnone hv => Store.find?_extend _ _ (.inr ⟨hnone, hv⟩)) _ (.refl _)
  rw [applyWithin_succ limit (if_pos harity)]
  simp only [Run.within_store]
  exact hr

end RunsAs

end SmallLisp
