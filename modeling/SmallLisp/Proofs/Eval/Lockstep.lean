import SmallLisp.Eval
import Mathlib.Data.List.Basic

namespace SmallLisp

variable {σ τ : Type} [RunState σ] [RunState τ]

theorem Keyword.not_other {k : Keyword} {operands : List Node}
    (hquote : ∀ n, k = .form .quote → operands = [n] → False)
    (hif : ∀ test yes no, k = .form .ifElse → operands = [test, yes, no] → False)
    (hdefine : ∀ target n, k = .form .define → operands = [target, n] → False)
    (hlambda : ∀ params body, k = .form .lambda → operands = [params, body] → False)
    (hlet : ∀ bindings body, k = .form .letIn → operands = [bindings, body] → False)
    (hdefn : ∀ target params body, k = .form .defn → operands = [target, params, body] → False)
    (hcond : ∀ clauses, k = .form .cond → operands = [clauses] → False)
    (hs : ¬ k.isStrict) : operands.length ≠ k.operands := by
  intro hl
  cases k with
  | operator o => exact hs rfl
  | form f =>
      cases f with
      | atom | eq | cons | head | tail | empty => exact hs rfl
      | quote =>
          obtain ⟨n, rfl⟩ := List.length_eq_one_iff.1 hl
          exact hquote n rfl rfl
      | cond =>
          obtain ⟨clauses, rfl⟩ := List.length_eq_one_iff.1 hl
          exact hcond clauses rfl rfl
      | define =>
          obtain ⟨target, n, rfl⟩ := List.length_eq_two.1 hl
          exact hdefine target n rfl rfl
      | lambda =>
          obtain ⟨params, body, rfl⟩ := List.length_eq_two.1 hl
          exact hlambda params body rfl rfl
      | letIn =>
          obtain ⟨bindings, body, rfl⟩ := List.length_eq_two.1 hl
          exact hlet bindings body rfl rfl
      | ifElse =>
          obtain ⟨test, yes, no, rfl⟩ := List.length_eq_three.1 hl
          exact hif test yes no rfl rfl
      | defn =>
          obtain ⟨target, params, body, rfl⟩ := List.length_eq_three.1 hl
          exact hdefn target params body rfl rfl

namespace Node

variable (call : Applying σ) (env : FrameId) {head : Node} {operands : List Node}

attribute [local simp] eval

theorem eval_call (h : head.keyword? = none) :
    eval call env (list (head :: operands)) = (do
      let c ← Run.ofExcept (← eval call env head).callee
      Run.ofExcept (c.checkArity operands.length)
      call c (← evalAll call env operands)) := by
  simp [h]

theorem eval_keywordArity {k : Keyword} (h : head.keyword? = some k)
    (hl : operands.length ≠ k.operands) :
    eval call env (list (head :: operands)) = throw (.keywordArity k operands.length) := by
  simp [h, hl]

theorem eval_strict {k : Keyword} (h : head.keyword? = some k)
    (hl : operands.length = k.operands) (hs : k.isStrict) :
    eval call env (list (head :: operands)) = (do
      Run.ofExcept (k.compute (← evalAll call env operands))) := by
  simp [h, hl, hs]

attribute [local simp] Keyword.operands Keyword.isStrict SpecialForm.operands

theorem eval_quote {n : Node} (h : head.keyword? = some (.form .quote)) :
    eval call env (list [head, n]) = pure (.ofNode n) := by
  simp [h]

theorem eval_ifElse {test yes no : Node} (h : head.keyword? = some (.form .ifElse)) :
    eval call env (list [head, test, yes, no]) = (do
      if (← eval call env test).isTruthy then eval call env yes else eval call env no) := by
  simp [h]

theorem eval_define {target n : Node} (h : head.keyword? = some (.form .define)) :
    eval call env (list [head, target, n]) = (do
      SmallLisp.define env target (← eval call env n)) := by
  simp [h]

theorem eval_lambda {params body : Node} (h : head.keyword? = some (.form .lambda)) :
    eval call env (list [head, params, body]) = makeClosure env params body := by
  simp [h]

theorem eval_letIn {bindings : List Node} {body : Node}
    (h : head.keyword? = some (.form .letIn)) :
    eval call env (list [head, list bindings, body]) = (do
      eval call (← bindAll call env bindings) body) := by
  simp [h]

theorem eval_letIn_of_items? {bindings body : Node} (h : head.keyword? = some (.form .letIn))
    (hb : bindings.items? = none) :
    eval call env (list [head, bindings, body]) = throw (.bindingsNotList bindings) := by
  cases bindings with
  | list => cases hb
  | boolean | integer | symbol => simp [h]

theorem eval_defn {target params body : Node} (h : head.keyword? = some (.form .defn)) :
    eval call env (list [head, target, params, body]) = (do
      SmallLisp.define env target (← makeClosure env params body)) := by
  simp [h]

theorem eval_cond {clauses : List Node} (h : head.keyword? = some (.form .cond)) :
    eval call env (list [head, list clauses]) = evalClauses call env clauses := by
  simp [h]

theorem eval_cond_of_items? {clauses : Node} (h : head.keyword? = some (.form .cond))
    (hc : clauses.items? = none) :
    eval call env (list [head, clauses]) = throw (.clausesNotList clauses) := by
  cases clauses with
  | list => cases hc
  | boolean | integer | symbol => simp [h]

theorem evalClauses_malformed {clause : Node} (hc : ∀ test n, clause = list [test, n] → False)
    (clauses : List Node) :
    evalClauses call env (clause :: clauses) = throw (.malformedClause clause) := by
  rw [evalClauses]
  exact hc

theorem bindAll_malformed {binding : Node}
    (hb : ∀ name n, binding = list [symbol name, n] → False) (bindings : List Node) :
    bindAll call env (binding :: bindings) = throw (.malformedBinding binding) := by
  rw [bindAll]
  exact hb

theorem eval_letIn_nil {body : Node} (h : head.keyword? = some (.form .letIn)) :
    eval call env (list [head, list [], body]) = eval call env body := by
  rw [eval_letIn call env h, bindAll, pure_bind]

theorem eval_letIn_cons {name : String} {n body : Node} {bindings : List Node}
    (h : head.keyword? = some (.form .letIn)) :
    eval call env (list [head, list (list [symbol name, n] :: bindings), body]) = (do
      let v ← eval call env n
      let inner ← Run.change (·.extend env [(name, v)])
      eval call inner (list [head, list bindings, body])) := by
  rw [eval_letIn call env h, bindAll]
  simp only [bind_assoc, eval_letIn call _ h]

theorem eval_letIn_malformed {binding body : Node} (h : head.keyword? = some (.form .letIn))
    (hb : ∀ name n, binding = list [symbol name, n] → False) (bindings : List Node) :
    eval call env (list [head, list (binding :: bindings), body]) =
      throw (.malformedBinding binding) := by
  rw [eval_letIn call env h, bindAll_malformed call env hb]
  rfl

theorem eval_cond_nil (h : head.keyword? = some (.form .cond)) :
    eval call env (list [head, list []]) = pure (.boolean false) := by
  rw [eval_cond call env h, evalClauses]

theorem eval_cond_cons {test n : Node} {clauses : List Node}
    (h : head.keyword? = some (.form .cond)) :
    eval call env (list [head, list (list [test, n] :: clauses)]) = (do
      if (← eval call env test).isTruthy then eval call env n
      else eval call env (list [head, list clauses])) := by
  rw [eval_cond call env h, evalClauses, eval_cond call env h]

theorem eval_cond_malformed {clause : Node} (h : head.keyword? = some (.form .cond))
    (hc : ∀ test n, clause = list [test, n] → False) (clauses : List Node) :
    eval call env (list [head, list (clause :: clauses)]) = throw (.malformedClause clause) := by
  rw [eval_cond call env h, evalClauses_malformed call env hc]

theorem eq_list_of_items? {n : Node} {items : List Node} (h : n.items? = some items) :
    n = list items := by
  cases n with
  | list => rw [Option.some.inj h]
  | boolean | integer | symbol => cases h

theorem items?_eq_none {n : Node} (h : ∀ items, n = list items → False) : n.items? = none := by
  cases n with
  | list items => exact (h items rfl).elim
  | boolean | integer | symbol => rfl

end Node

theorem define_symbol [RunState.Quiet σ] (env : FrameId) (name : String) (v : Value) :
    (define env (.symbol name) v : Run σ Value) = (do
      Run.attempt (·.define env name v)
      return .symbol name) := by
  rw [define, Run.note_eq_pure, pure_bind]

section Application

variable (limit : Nat) {c : Closure} {args : List Value}

theorem applyWithin_of_error {room : Nat} {e : Fault} (h : c.checkArity args.length = .error e) :
    (applyWithin limit room c args : Run σ Value) = throw e := by
  cases room <;> rw [applyWithin, h] <;> rfl

theorem applyWithin_zero (h : c.checkArity args.length = .ok ()) :
    (applyWithin limit 0 c args : Run σ Value) = throw (.stackOverflow limit) := by
  rw [applyWithin, h]
  rfl

theorem applyWithin_succ_noted {room : Nat} (h : c.checkArity args.length = .ok ()) :
    (applyWithin limit (room + 1) c args : Run σ Value) = (do
      Run.note [.applying c.arity (limit - (room + 1))]
      let scope ← Run.change (·.extend c.env (c.params.zip args))
      Run.within (Node.eval (applyWithin limit room) scope c.body)) := by
  rw [applyWithin, h]
  rfl

theorem applyWithin_succ [RunState.Quiet σ] {room : Nat} (h : c.checkArity args.length = .ok ()) :
    (applyWithin limit (room + 1) c args : Run σ Value) = (do
      let scope ← Run.change (·.extend c.env (c.params.zip args))
      Run.within (Node.eval (applyWithin limit room) scope c.body)) := by
  rw [applyWithin_succ_noted limit h, Run.note_eq_pure, pure_bind]

end Application

/-- A relation between runs in a frame that respects everything evaluation is put together from.
Runs in a new frame are related in that frame, whatever its number. -/
structure Lockstep (P : {α : Type} → FrameId → Run σ α → Run τ α → Prop) : Prop where
  pure {α : Type} (env : FrameId) (a : α) : P env (pure a) (pure a)
  throw {α : Type} (env : FrameId) (e : Fault) :
    P env (throw e : Run σ α) (throw e : Run τ α)
  bind {α β : Type} {env : FrameId} {r₁ : Run σ α} {r₂ : Run τ α}
    {f₁ : α → Run σ β} {f₂ : α → Run τ β} :
    P env r₁ r₂ → (∀ a, P env (f₁ a) (f₂ a)) → P env (r₁ >>= f₁) (r₂ >>= f₂)
  note (env : FrameId) (notices : List Notice) : P env (Run.note notices) (Run.note notices)
  lookup (env : FrameId) (name : String) :
    P env (Run.ask (·.lookup env name)) (Run.ask (·.lookup env name))
  close (env : FrameId) (params : List String) (body : Node) :
    P env (Run.change (·.close env params body)) (Run.change (·.close env params body))
  define (env : FrameId) (name : String) (v : Value) :
    P env (Run.attempt (·.define env name v)) (Run.attempt (·.define env name v))
  extend {α : Type} {env : FrameId} {r₁ : FrameId → Run σ α} {r₂ : FrameId → Run τ α}
    (parent : FrameId) (pairs : List (String × Value)) :
    (∀ inner, P inner (r₁ inner) (r₂ inner)) →
    P env (Run.change (·.extend parent pairs) >>= r₁) (Run.change (·.extend parent pairs) >>= r₂)

namespace Lockstep

variable {P : {α : Type} → FrameId → Run σ α → Run τ α → Prop}

theorem ofExcept (h : Lockstep P) {α : Type} (env : FrameId) (x : Except Fault α) :
    P env (Run.ofExcept x) (Run.ofExcept x) := by
  cases x with
  | ok a => exact h.pure env a
  | error e => exact h.throw env e

theorem makeClosure (h : Lockstep P) (env : FrameId) (params body : Node) :
    P env (makeClosure env params body) (makeClosure env params body) := by
  cases params with
  | list ps =>
      exact h.bind (h.ofExcept env _) fun names =>
        h.bind (h.close env names body) fun c => h.pure env _
  | boolean | integer | symbol => exact h.throw env _

theorem defineTarget (h : Lockstep P) (env : FrameId) (target : Node) (v : Value) :
    P env (SmallLisp.define env target v) (SmallLisp.define env target v) := by
  cases target with
  | symbol name =>
      exact h.bind (h.note env _) fun _ => h.bind (h.define env name v) fun _ => h.pure env _
  | boolean | integer | list => exact h.throw env _

variable (call₁ : Applying σ) (call₂ : Applying τ)

/-- The statement for nodes, clauses, bindings and operands at once. Bindings are followed by what
runs in the scope that they make, since only the frame of that scope is new. -/
theorem eval_all (h : Lockstep P) (hcall : ∀ env c args, P env (call₁ c args) (call₂ c args)) :
    (∀ env n, P env (Node.eval call₁ env n) (Node.eval call₂ env n)) ∧
    (∀ env clauses, P env (Node.evalClauses call₁ env clauses) (Node.evalClauses call₂ env clauses)) ∧
    (∀ env bindings, ∀ {α : Type} (k₁ : FrameId → Run σ α) (k₂ : FrameId → Run τ α),
      (∀ scope, P scope (k₁ scope) (k₂ scope)) →
      P env (Node.bindAll call₁ env bindings >>= k₁) (Node.bindAll call₂ env bindings >>= k₂)) ∧
    (∀ env ns, P env (Node.evalAll call₁ env ns) (Node.evalAll call₂ env ns)) := by
  refine Node.eval.mutual_induct
    (fun env n => P env (Node.eval call₁ env n) (Node.eval call₂ env n))
    (fun env clauses => P env (Node.evalClauses call₁ env clauses) (Node.evalClauses call₂ env clauses))
    (fun env bindings => ∀ {α : Type} (k₁ : FrameId → Run σ α) (k₂ : FrameId → Run τ α),
      (∀ scope, P scope (k₁ scope) (k₂ scope)) →
      P env (Node.bindAll call₁ env bindings >>= k₁) (Node.bindAll call₂ env bindings >>= k₂))
    (fun env ns => P env (Node.evalAll call₁ env ns) (Node.evalAll call₂ env ns))
    ?boolean ?integer ?symbol ?empty ?call ?arity ?strict ?quote ?ifElse ?define ?lambda
    ?letIn ?badLet ?defn ?cond ?badCond ?other
    ?noClause ?clause ?badClause ?noBinding ?binding ?badBinding ?noOperand ?operand
  case boolean => intro env b; exact h.pure env _
  case integer => intro env n; exact h.pure env _
  case symbol => intro env name; exact h.lookup env name
  case empty => intro env; exact h.throw env _
  case call =>
    intro env head operands hk hhead hall
    rw [Node.eval_call _ env hk, Node.eval_call _ env hk]
    exact h.bind hhead fun v => h.bind (h.ofExcept env _) fun c =>
      h.bind (h.ofExcept env _) fun _ => h.bind hall fun vs => hcall env c vs
  case arity =>
    intro env head operands k hk hl
    rw [Node.eval_keywordArity _ env hk hl, Node.eval_keywordArity _ env hk hl]
    exact h.throw env _
  case strict =>
    intro env head operands k hk hl hs hall
    have hl' : operands.length = k.operands := Decidable.not_not.1 hl
    rw [Node.eval_strict _ env hk hl' hs, Node.eval_strict _ env hk hl' hs]
    exact h.bind hall fun vs => h.ofExcept env _
  case quote =>
    intro env head n hk _ _
    rw [Node.eval_quote _ env hk, Node.eval_quote _ env hk]
    exact h.pure env _
  case ifElse =>
    intro env head test yes no hk _ _ htest hyes hno
    rw [Node.eval_ifElse _ env hk, Node.eval_ifElse _ env hk]
    refine h.bind htest fun v => ?_
    by_cases hv : v.isTruthy
    · rw [if_pos hv, if_pos hv]
      exact hyes
    · rw [if_neg hv, if_neg hv]
      exact hno
  case define =>
    intro env head target n hk _ _ hn
    rw [Node.eval_define _ env hk, Node.eval_define _ env hk]
    exact h.bind hn fun v => h.defineTarget env target v
  case lambda =>
    intro env head params body hk _ _
    rw [Node.eval_lambda _ env hk, Node.eval_lambda _ env hk]
    exact h.makeClosure env params body
  case letIn =>
    intro env head bindings body hk _ _ hbindings hbody
    rw [Node.eval_letIn _ env hk, Node.eval_letIn _ env hk]
    exact hbindings _ _ hbody
  case badLet =>
    intro env head bindings body hb hk _ _
    rw [Node.eval_letIn_of_items? _ env hk (Node.items?_eq_none hb),
      Node.eval_letIn_of_items? _ env hk (Node.items?_eq_none hb)]
    exact h.throw env _
  case defn =>
    intro env head target params body hk _ _
    rw [Node.eval_defn _ env hk, Node.eval_defn _ env hk]
    exact h.bind (h.makeClosure env params body) fun v => h.defineTarget env target v
  case cond =>
    intro env head clauses hk _ _ hclauses
    rw [Node.eval_cond _ env hk, Node.eval_cond _ env hk]
    exact hclauses
  case badCond =>
    intro env head clauses hc hk _ _
    rw [Node.eval_cond_of_items? _ env hk (Node.items?_eq_none hc),
      Node.eval_cond_of_items? _ env hk (Node.items?_eq_none hc)]
    exact h.throw env _
  case other =>
    intro env head k operands hquote hif hdefine hlambda _ hlet hdefn _ hcond _ hs hl
    exact absurd (Decidable.not_not.1 hl)
      (Keyword.not_other hquote hif hdefine hlambda hlet hdefn hcond hs)
  case noClause => intro env; exact h.pure env _
  case clause =>
    intro env test n clauses htest hn hclauses
    rw [Node.evalClauses, Node.evalClauses]
    refine h.bind htest fun v => ?_
    by_cases hv : v.isTruthy
    · rw [if_pos hv, if_pos hv]
      exact hn
    · rw [if_neg hv, if_neg hv]
      exact hclauses
  case badClause =>
    intro env clause clauses hc
    rw [Node.evalClauses_malformed _ env hc, Node.evalClauses_malformed _ env hc]
    exact h.throw env _
  case noBinding =>
    intro env α k₁ k₂ hk
    simpa only [Node.bindAll, pure_bind] using hk env
  case binding =>
    intro env name n bindings hn hbindings α k₁ k₂ hk
    simp only [Node.bindAll, bind_assoc]
    exact h.bind hn fun v => h.extend _ _ fun inner => hbindings inner k₁ k₂ hk
  case badBinding =>
    intro env binding bindings hb α k₁ k₂ hk
    rw [Node.bindAll_malformed _ env hb, Node.bindAll_malformed _ env hb]
    exact h.throw env _
  case noOperand => intro env; exact h.pure env _
  case operand =>
    intro env n ns hn hns
    rw [Node.evalAll, Node.evalAll]
    exact h.bind hn fun v => h.bind hns fun vs => h.pure env _

theorem applyWithin (h : Lockstep P)
    (hwithin : ∀ {α : Type} {scope : FrameId} {r₁ : Run σ α} {r₂ : Run τ α},
      P scope r₁ r₂ → P scope r₁.within r₂.within)
    (limit room : Nat) (env : FrameId) (c : Closure) (args : List Value) :
    P env (SmallLisp.applyWithin limit room c args) (SmallLisp.applyWithin limit room c args) := by
  induction room generalizing env c args with
  | zero =>
      cases hc : c.checkArity args.length with
      | error e =>
          rw [applyWithin_of_error limit hc, applyWithin_of_error limit hc]
          exact h.throw env e
      | ok _ =>
          rw [applyWithin_zero limit hc, applyWithin_zero limit hc]
          exact h.throw env _
  | succ room ih =>
      cases hc : c.checkArity args.length with
      | error e =>
          rw [applyWithin_of_error limit hc, applyWithin_of_error limit hc]
          exact h.throw env e
      | ok _ =>
          rw [applyWithin_succ_noted limit hc, applyWithin_succ_noted limit hc]
          exact h.bind (h.note env _) fun _ => h.extend _ _ fun scope =>
            hwithin ((h.eval_all _ _ ih).1 scope c.body)

theorem evaluate (h : Lockstep P)
    (hwithin : ∀ {α : Type} {scope : FrameId} {r₁ : Run σ α} {r₂ : Run τ α},
      P scope r₁ r₂ → P scope r₁.within r₂.within)
    (limit : Nat) (env : FrameId) (n : Node) :
    P env (SmallLisp.evaluate limit env n) (SmallLisp.evaluate limit env n) :=
  (h.eval_all _ _ (h.applyWithin hwithin limit limit)).1 env n

theorem applyToNodes (h : Lockstep P)
    (hwithin : ∀ {α : Type} {scope : FrameId} {r₁ : Run σ α} {r₂ : Run τ α},
      P scope r₁ r₂ → P scope r₁.within r₂.within)
    (limit : Nat) (env : FrameId) (c : Closure) (operands : List Node) :
    P env (SmallLisp.applyToNodes limit env c operands)
      (SmallLisp.applyToNodes limit env c operands) := by
  have happly := h.applyWithin hwithin limit limit
  exact h.bind (h.ofExcept env _) fun _ =>
    h.bind ((h.eval_all _ _ happly).2.2.2 env operands) fun vs => happly env c vs

theorem evaluateInOrder {call₁ : Applying σ} {call₂ : Applying τ} (h : Lockstep P)
    (hcall : ∀ env c args, P env (call₁ c args) (call₂ c args)) (env : FrameId)
    (last : Option Value) (ns : List Node) :
    P env (SmallLisp.evaluateInOrder call₁ env last ns)
      (SmallLisp.evaluateInOrder call₂ env last ns) := by
  induction ns generalizing last with
  | nil => exact h.pure env last
  | cons n ns ih => exact h.bind ((h.eval_all _ _ hcall).1 env n) fun v => ih (some v)

end Lockstep

end SmallLisp
