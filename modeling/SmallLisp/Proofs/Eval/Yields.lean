import SmallLisp.Proofs.Eval.Frames

namespace SmallLisp

namespace Store

variable {s t : Store} {name : String} {v : Value}

theorem outward_keeps (h : Keeps s t) {k k' id : Nat} (hk : k ≤ k')
    (hv : (s.outward k id).findSome? (·.find? name) = some v) :
    (t.outward k' id).findSome? (·.find? name) = some v := by
  induction k generalizing k' id with
  | zero => cases hv
  | succ k ih =>
      obtain ⟨k', rfl⟩ : ∃ j, k' = j + 1 := ⟨k' - 1, by omega⟩
      rw [outward] at hv ⊢
      cases hf : s.frames[id]? with
      | none =>
          rw [hf] at hv
          cases hv
      | some f =>
          rw [hf] at hv
          rw [h id f hf]
          change (f :: _).findSome? _ = some v at hv
          change (f :: _).findSome? _ = some v
          rw [List.findSome?_cons] at hv ⊢
          cases hfind : f.find? name with
          | some w => rwa [hfind] at hv
          | none =>
              rw [hfind] at hv
              cases hp : f.parent with
              | none =>
                  rw [hp] at hv
                  cases hv
              | some p =>
                  rw [hp] at hv
                  exact ih (Nat.le_of_succ_le_succ hk) hv

theorem find?_keeps (h : Keeps s t) {env : FrameId} (hv : s.find? env name = some v) :
    t.find? env name = some v :=
  outward_keeps h (Nat.le_refl _) hv

theorem lt_of_find? {env : FrameId} (hv : s.find? env name = some v) : env < s.frames.size := by
  by_contra hlt
  rw [find?, chain, outward, Array.getElem?_eq_none (Nat.le_of_not_lt hlt)] at hv
  cases hv

theorem find?_extend (env : FrameId) (pairs : List (String × Value)) (hv :
    pairs.reverse.lookup name = some v ∨
      pairs.reverse.lookup name = none ∧ s.find? env name = some v) :
    (s.extend env pairs).2.find? (s.extend env pairs).1 name = some v := by
  have hframe : (s.extend env pairs).2.frames[s.frames.size]? = some ⟨pairs.reverse, some env⟩ :=
    Array.getElem?_push_size
  change ((s.extend env pairs).2.chain s.frames.size).findSome? _ = some v
  rw [chain, outward, hframe]
  change (Frame.mk pairs.reverse (some env) :: _).findSome? _ = some v
  rw [List.findSome?_cons, Frame.find?]
  obtain hv | ⟨hnone, hv⟩ := hv
  · rw [hv]
  · rw [hnone]
    exact outward_keeps (keeps_push s _) (lt_of_find? hv) hv

end Store

variable {α β : Type} {s t : Store}

/-- From `s` on, whatever frames there are besides, the run keeps all frames and has an outcome that
satisfies `Q`. -/
def Yields (s : Store) (r : Run Store α) (Q : Except Fault α → Prop) : Prop :=
  ∀ t, Keeps s t → Keeps t (r.after t) ∧ Q (r.outcome t)

namespace Yields

variable {r : Run Store α} {P Q : Except Fault α → Prop}

theorem mono (h : Yields s r Q) (hst : Keeps s t) : Yields t r Q :=
  fun u hu => h u (hst.trans hu)

theorem imp (h : Yields s r P) (hPQ : ∀ x, P x → Q x) : Yields s r Q :=
  fun t ht => ⟨(h t ht).1, hPQ _ (h t ht).2⟩

theorem pure {a : α} (h : Q (.ok a)) : Yields s (pure a) Q := fun t _ => ⟨.refl t, h⟩

theorem throw {e : Fault} (h : Q (.error e)) : Yields s (throw e) Q := fun t _ => ⟨.refl t, h⟩

theorem ofExcept {x : Except Fault α} (h : Q x) : Yields s (Run.ofExcept x) Q := by
  cases x with
  | ok a => exact pure h
  | error e => exact throw h

theorem bind {Q : Except Fault β → Prop} {f : α → Run Store β} (h : Yields s r P)
    (hok : ∀ a, P (.ok a) → Yields s (f a) Q) (herror : ∀ e, P (.error e) → Q (.error e)) :
    Yields s (r >>= f) Q := by
  intro t ht
  obtain ⟨hkeeps, hP⟩ := h t ht
  cases hr : r t with
  | ok a u =>
      rw [Run.after_of_ok hr] at hkeeps
      rw [Run.outcome_of_ok hr] at hP
      obtain ⟨hkeeps', hQ⟩ := hok a hP u (ht.trans hkeeps)
      rw [Run.after, Run.outcome, Run.bind_of_ok hr]
      exact ⟨hkeeps.trans hkeeps', hQ⟩
  | error e u =>
      rw [Run.after_of_error hr] at hkeeps
      rw [Run.outcome_of_error hr] at hP
      rw [Run.after, Run.outcome, Run.bind_of_error hr]
      exact ⟨hkeeps, herror e hP⟩

theorem bindOk {P : α → Prop} {Q : Except Fault β → Prop} {f : α → Run Store β}
    (h : Yields s r (fun x => ∃ a, x = .ok a ∧ P a)) (hf : ∀ a, P a → Yields s (f a) Q) :
    Yields s (r >>= f) Q := by
  refine bind h ?_ ?_
  · rintro a ⟨_, ⟨⟩, ha⟩
    exact hf a ha
  · rintro e ⟨_, he, -⟩
    cases he

theorem andThen {Q : Except Fault β → Prop} {f : α → Run Store β} {a : α}
    (h : Yields s r (· = .ok a)) (hf : Yields s (f a) Q) : Yields s (r >>= f) Q := by
  refine bindOk (P := (· = a)) (h.imp fun x hx => ⟨a, hx, rfl⟩) ?_
  rintro _ rfl
  exact hf

theorem throughError {f : α → Run Store β} {e : Fault} (h : Yields s r (· = .error e)) :
    Yields s (r >>= f) (· = .error e) := by
  refine bind h ?_ ?_
  · intro a ha
    cases ha
  · rintro _ ⟨⟩
    rfl

theorem makeClosure {env : FrameId} {ps : List Node} {names : List String} {body : Node}
    (hps : parameters [] ps = .ok names) :
    Yields s (makeClosure env (.list ps) body)
      (fun x => ∃ v, x = .ok v ∧ ∃ id, v = .closure ⟨id, names, body, env⟩) := by
  intro t _
  rw [SmallLisp.makeClosure, hps]
  exact ⟨fun _ _ hf => hf, _, rfl, t.closures, rfl⟩

theorem enter {limit room : Nat} {c : Closure} {args : List Value} {Q : Except Fault Value → Prop}
    (harity : args.length = c.arity)
    (h : ∀ t scope, Keeps s t →
      (∀ name v, (c.params.zip args).reverse.lookup name = some v →
        t.find? scope name = some v) →
      (∀ name v, (c.params.zip args).reverse.lookup name = none → s.find? c.env name = some v →
        t.find? scope name = some v) →
      Yields t (c.body.eval (applyWithin limit room) scope) Q) :
    Yields s (applyWithin limit (room + 1) c args) Q := by
  intro t ht
  have hkeeps : Keeps t (t.extend c.env (c.params.zip args)).2 := keeps_push t _
  obtain ⟨hafter, hQ⟩ := h (t.extend c.env (c.params.zip args)).2
    (t.extend c.env (c.params.zip args)).1 (ht.trans hkeeps)
    (fun name v hv => Store.find?_extend _ _ (.inl hv))
    (fun name v hnone hv => Store.find?_extend _ _ (.inr ⟨hnone, Store.find?_keeps ht hv⟩))
    _ (.refl _)
  rw [applyWithin_succ limit (if_pos harity)]
  simp only [Run.within_store]
  exact ⟨hkeeps.trans hafter, hQ⟩

end Yields

abbrev Evals (call : Applying Store) (s : Store) (env : FrameId) (n : Node) (v : Value) : Prop :=
  Yields s (n.eval call env) (· = .ok v)

abbrev Fails (call : Applying Store) (s : Store) (env : FrameId) (n : Node) (e : Fault) : Prop :=
  Yields s (n.eval call env) (· = .error e)

namespace Yields

variable {call : Applying Store} {env : FrameId} {head : Node} {Q : Except Fault Value → Prop}

theorem boolean (b : Bool) : Evals call s env (.boolean b) (.boolean b) := .pure rfl

theorem integer (n : Int64) : Evals call s env (.integer n) (.integer n) := .pure rfl

theorem quoted (n : Node) : Evals call s env n.quoted (.ofNode n) := by
  unfold Evals Node.quoted
  rw [Node.eval_quote _ _ rfl]
  exact .pure rfl

theorem symbol {name : String} {v : Value} (h : s.find? env name = some v) :
    Evals call s env (.symbol name) v := by
  intro t ht
  have hlookup : t.lookup env name = .ok v := by
    rw [Store.lookup, Store.find?_keeps ht h]
  rw [Node.eval, Run.after, Run.outcome, Run.ask_of_ok hlookup]
  exact ⟨.refl t, rfl⟩

theorem operands {ns : List Node} {vs : List Value} (h : List.Forall₂ (Evals call s env) ns vs) :
    Yields s (Node.evalAll call env ns) (· = .ok vs) := by
  induction h with
  | nil => exact .pure rfl
  | cons hv _ ih =>
      rw [Node.evalAll]
      exact .andThen hv (.andThen ih (.pure rfl))

/-- What an operation makes of the values of its operands, a failure too. -/
theorem computes {k : Keyword} {ns : List Node} {vs : List Value}
    (hk : head.keyword? = some k) (hl : ns.length = k.operands) (hs : k.isStrict)
    (hns : List.Forall₂ (Evals call s env) ns vs) :
    Yields s ((Node.list (head :: ns)).eval call env) (· = k.compute vs) := by
  rw [Node.eval_strict _ _ hk hl hs]
  exact .andThen (operands hns) (.ofExcept rfl)

theorem strict {k : Keyword} {ns : List Node} {vs : List Value} {v : Value}
    (hk : head.keyword? = some k) (hl : ns.length = k.operands) (hs : k.isStrict)
    (hns : List.Forall₂ (Evals call s env) ns vs) (hv : k.compute vs = .ok v) :
    Evals call s env (.list (head :: ns)) v :=
  (computes hk hl hs hns).imp fun _ h => h.trans hv

theorem operandsFail {n : Node} {ns : List Node} {e : Fault} (hn : Fails call s env n e) :
    Yields s (Node.evalAll call env (n :: ns)) (· = .error e) := by
  rw [Node.evalAll]
  exact .throughError hn

theorem operandsFailLater {n : Node} {ns : List Node} {v : Value} {e : Fault}
    (hn : Evals call s env n v) (h : Yields s (Node.evalAll call env ns) (· = .error e)) :
    Yields s (Node.evalAll call env (n :: ns)) (· = .error e) := by
  rw [Node.evalAll]
  exact .andThen hn (.throughError h)

theorem strictFail {k : Keyword} {ns : List Node} {e : Fault} (hk : head.keyword? = some k)
    (hl : ns.length = k.operands) (hs : k.isStrict)
    (h : Yields s (Node.evalAll call env ns) (· = .error e)) :
    Fails call s env (.list (head :: ns)) e := by
  unfold Fails
  rw [Node.eval_strict _ _ hk hl hs]
  exact .throughError h

theorem computeFail {k : Keyword} {ns : List Node} {vs : List Value} {e : Fault}
    (hk : head.keyword? = some k) (hl : ns.length = k.operands) (hs : k.isStrict)
    (hns : List.Forall₂ (Evals call s env) ns vs) (he : k.compute vs = .error e) :
    Fails call s env (.list (head :: ns)) e :=
  (computes hk hl hs hns).imp fun _ h => h.trans he

theorem strictLast {k : Keyword} {n m : Node} {v : Value} {x : Except Fault Value}
    (hk : head.keyword? = some k) (hl : k.operands = 2) (hs : k.isStrict)
    (hn : Evals call s env n v) (hm : Yields s (m.eval call env) (· = x)) :
    Yields s ((Node.list [head, n, m]).eval call env) (· = x >>= fun w => k.compute [v, w]) := by
  cases x with
  | ok w => exact .computes hk hl.symm hs (.cons hn (.cons hm .nil))
  | error e => exact .strictFail hk hl.symm hs (.operandsFailLater hn (.operandsFail hm))

theorem ifElse {test yes no : Node} {P : Except Fault Value → Prop}
    (hk : head.keyword? = some (.form .ifElse)) (htest : Yields s (test.eval call env) P)
    (hyes : ∀ v, P (.ok v) → v.isTruthy → Yields s (yes.eval call env) Q)
    (hno : ∀ v, P (.ok v) → ¬ v.isTruthy → Yields s (no.eval call env) Q)
    (herror : ∀ e, P (.error e) → Q (.error e)) :
    Yields s ((Node.list [head, test, yes, no]).eval call env) Q := by
  rw [Node.eval_ifElse _ _ hk]
  refine bind htest (fun v hv => ?_) herror
  by_cases htrue : v.isTruthy
  · rw [if_pos htrue]
    exact hyes v hv htrue
  · rw [if_neg htrue]
    exact hno v hv htrue

theorem ifTrue {test yes no : Node} {v : Value} (hk : head.keyword? = some (.form .ifElse))
    (htest : Evals call s env test v) (hv : v.isTruthy) (hyes : Yields s (yes.eval call env) Q) :
    Yields s ((Node.list [head, test, yes, no]).eval call env) Q := by
  refine ifElse hk htest (fun _ _ _ => hyes) ?_ ?_
  · rintro _ ⟨⟩ hno
    exact absurd hv hno
  · intro e he
    cases he

theorem ifFalse {test yes no : Node} {v : Value} (hk : head.keyword? = some (.form .ifElse))
    (htest : Evals call s env test v) (hv : ¬ v.isTruthy) (hno : Yields s (no.eval call env) Q) :
    Yields s ((Node.list [head, test, yes, no]).eval call env) Q := by
  refine ifElse hk htest ?_ (fun _ _ _ => hno) ?_
  · rintro _ ⟨⟩ hyes
    exact absurd hyes hv
  · intro e he
    cases he

theorem ofCall {c : Closure} {ns : List Node} {vs : List Value} (hk : head.keyword? = none)
    (hhead : Evals call s env head (.closure c)) (harity : ns.length = c.arity)
    (hns : List.Forall₂ (Evals call s env) ns vs) (hcall : Yields s (call c vs) Q) :
    Yields s ((Node.list (head :: ns)).eval call env) Q := by
  rw [Node.eval_call _ _ hk]
  refine .andThen hhead (.andThen (.ofExcept rfl) (.andThen (.ofExcept (if_pos harity)) ?_))
  exact .andThen (operands hns) hcall

theorem callFail {c : Closure} {ns : List Node} {e : Fault} (hk : head.keyword? = none)
    (hhead : Evals call s env head (.closure c)) (harity : ns.length = c.arity)
    (h : Yields s (Node.evalAll call env ns) (· = .error e)) :
    Fails call s env (.list (head :: ns)) e := by
  unfold Fails
  rw [Node.eval_call _ _ hk]
  refine .andThen hhead (.andThen (.ofExcept rfl) (.andThen (.ofExcept (if_pos harity)) ?_))
  exact .throughError h

theorem ofCallWith {c : Closure} {lambda body : Node} {ps ns : List Node} {names : List String}
    {vs : List Value} (hk : head.keyword? = none) (hhead : Evals call s env head (.closure c))
    (harity : ns.length + 1 = c.arity) (hlambda : lambda.keyword? = some (.form .lambda))
    (hps : parameters [] ps = .ok names) (hns : List.Forall₂ (Evals call s env) ns vs)
    (hcall : ∀ id, Yields s (call c (.closure ⟨id, names, body, env⟩ :: vs)) Q) :
    Yields s ((Node.list (head :: .list [lambda, .list ps, body] :: ns)).eval call env) Q := by
  rw [Node.eval_call _ _ hk]
  refine .andThen hhead (.andThen (.ofExcept rfl) (.andThen (.ofExcept (if_pos harity)) ?_))
  rw [Node.evalAll, bind_assoc, Node.eval_lambda _ _ hlambda]
  refine .bindOk (.makeClosure hps) ?_
  rintro _ ⟨id, rfl⟩
  rw [bind_assoc]
  exact .andThen (operands hns) (hcall id)

end Yields

end SmallLisp
