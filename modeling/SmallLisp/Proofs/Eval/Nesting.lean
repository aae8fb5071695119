import SmallLisp.Proofs.Eval.Lockstep
import SmallLisp.Proofs.Run
import Mathlib.Logic.Relation

namespace SmallLisp

/-- Outcomes of the operations on values, none of which is an overflow of the limit. -/
def Proper {α : Type} (x : Except Fault α) : Prop := ∀ limit, x ≠ .error (.stackOverflow limit)

theorem proper_bind {α β : Type} {x : Except Fault α} {f : α → Except Fault β} (h : Proper x)
    (hf : ∀ a, Proper (f a)) : Proper (x >>= f) := by
  intro limit he
  cases x with
  | ok a => exact hf a limit he
  | error e =>
      cases he
      exact h limit rfl

theorem Operator.proper_apply (o : Operator) (a b : Int64) : Proper (o.apply a b) := by
  intro limit he
  obtain ⟨t, h⟩ | ⟨n, h⟩ | h | h := o.apply_cases a b <;> rw [h] at he <;> cases he

theorem Operator.proper_applyValues (o : Operator) (v w : Value) : Proper (o.applyValues v w) := by
  rw [applyValues.eq_def]
  split
  · exact proper_apply o _ _
  · exact fun limit => nofun
  · exact fun limit => nofun

theorem Value.proper_operandOf (f : SpecialForm) (v : Value) : Proper (v.operandOf f) := by
  intro limit
  rw [operandOf.eq_def]
  split <;> exact nofun

theorem Value.proper_partsOf (f : SpecialForm) (v : Value) : Proper (v.partsOf f) := by
  refine proper_bind (proper_operandOf f v) fun items limit => ?_
  cases items <;> exact nofun

theorem Keyword.proper_compute (k : Keyword) (vs : List Value) : Proper (k.compute vs) := by
  rw [compute.eq_def]
  split
  · exact Operator.proper_applyValues _ _ _
  · exact fun limit => nofun
  · exact fun limit => nofun
  · exact proper_bind (Value.proper_operandOf _ _) fun _ limit => nofun
  · exact proper_bind (Value.proper_partsOf _ _) fun _ limit => nofun
  · exact proper_bind (Value.proper_partsOf _ _) fun _ limit => nofun
  · exact proper_bind (Value.proper_operandOf _ _) fun _ limit => nofun
  · exact fun limit => nofun

theorem Store.proper_define (s : Store) (env : FrameId) (name : String) (v : Value) :
    Proper (s.define env name v).1 := by
  intro limit
  rw [define]
  split <;> exact nofun

theorem proper_parameters (seen : List String) (ps : List Node) : Proper (parameters seen ps) := by
  intro limit
  fun_induction parameters seen ps with
  | case1 | case2 | case4 => exact nofun
  | case3 seen name ps h ih => exact ih

namespace Run

variable {α β : Type} {s : Store}

theorem not_overflows_pure (a : α) : ¬ (pure a : Run Store α).Overflows s :=
  not_overflows_of_ok rfl

theorem not_overflows_ofExcept {x : Except Fault α} (h : Proper x) :
    ¬ (ofExcept x : Run Store α).Overflows s := by
  rintro ⟨limit, t, ht⟩
  cases x with
  | ok a => cases ht
  | error e =>
      cases ht
      exact h limit rfl

theorem not_overflows_attempt {f : Store → Except Fault α × Store} (h : Proper (f s).1) :
    ¬ (attempt f).Overflows s := by
  rintro ⟨limit, t, ht⟩
  rcases hf : f s with ⟨e | a, u⟩
  · rw [attempt_of_error hf] at ht
    cases ht
    rw [hf] at h
    exact h limit rfl
  · rw [attempt_of_ok hf] at ht
    cases ht

theorem overflows_bind_left {r : Run Store α} {f : α → Run Store β}
    (h : ∀ a t, ¬ (f a).Overflows t) : (r >>= f).Overflows s ↔ r.Overflows s := by
  rw [overflows_bind]
  exact or_iff_left fun ⟨a, t, _, ht⟩ => h a t ht

end Run

theorem not_overflows_makeClosure (env : FrameId) (params body : Node) (s : Store) :
    ¬ (makeClosure env params body : Run Store Value).Overflows s := by
  cases params with
  | list ps =>
      change ¬ (Run.ofExcept (parameters [] ps) >>= _ : Run Store Value).Overflows s
      rw [Run.overflows_bind]
      rintro (h | ⟨names, t, -, h⟩)
      · exact Run.not_overflows_ofExcept (proper_parameters [] ps) h
      · exact Run.not_overflows_of_ok rfl h
  | boolean | integer | symbol =>
      rintro ⟨limit, t, ht⟩
      cases ht

theorem not_overflows_define (env : FrameId) (target : Node) (v : Value) (s : Store) :
    ¬ (define env target v : Run Store Value).Overflows s := by
  cases target with
  | symbol name =>
      change ¬ (Run.attempt (·.define env name v) >>= _ : Run Store Value).Overflows s
      rw [Run.overflows_bind_left fun _ t => Run.not_overflows_pure _]
      exact Run.not_overflows_attempt (Store.proper_define s env name v)
  | boolean | integer | list =>
      rintro ⟨limit, t, ht⟩
      cases ht

structure Site where
  env : FrameId
  node : Node
  store : Store

def Site.Overflows (limit : Nat) (x : Site) : Prop :=
  (evaluate limit x.env x.node).Overflows x.store

/-- `Part limit x y` if the evaluation of the special form or operation at `x` comes to evaluate its
operand at `y`. A `let` or `cond` form comes to the form without its first pair. -/
inductive Part (limit : Nat) : Site → Site → Prop
  | operand {env : FrameId} {s t : Store} {head n : Node} {before after : List Node} {k : Keyword}
      {vs : List Value} (hk : head.keyword? = some k) (hs : k.isStrict)
      (hl : (before ++ n :: after).length = k.operands)
      (hv : Node.evalAll (apply limit) env before s = .ok vs t) :
      Part limit ⟨env, .list (head :: (before ++ n :: after)), s⟩ ⟨env, n, t⟩
  | test {env : FrameId} {s : Store} {head test yes no : Node}
      (hk : head.keyword? = some (.form .ifElse)) :
      Part limit ⟨env, .list [head, test, yes, no], s⟩ ⟨env, test, s⟩
  | branch {env : FrameId} {s t : Store} {head test yes no : Node} {v : Value}
      (hk : head.keyword? = some (.form .ifElse)) (hv : evaluate limit env test s = .ok v t) :
      Part limit ⟨env, .list [head, test, yes, no], s⟩ ⟨env, if v.isTruthy then yes else no, t⟩
  | value {env : FrameId} {s : Store} {head target n : Node}
      (hk : head.keyword? = some (.form .define)) :
      Part limit ⟨env, .list [head, target, n], s⟩ ⟨env, n, s⟩
  | binding {env : FrameId} {s : Store} {head n body : Node} {name : String} {bindings : List Node}
      (hk : head.keyword? = some (.form .letIn)) :
      Part limit ⟨env, .list [head, .list (.list [.symbol name, n] :: bindings), body], s⟩ ⟨env, n, s⟩
  | bound {env : FrameId} {s t : Store} {head n body : Node} {name : String} {bindings : List Node}
      {v : Value} (hk : head.keyword? = some (.form .letIn)) (hv : evaluate limit env n s = .ok v t) :
      Part limit ⟨env, .list [head, .list (.list [.symbol name, n] :: bindings), body], s⟩
        ⟨(t.extend env [(name, v)]).1, .list [head, .list bindings, body],
          (t.extend env [(name, v)]).2⟩
  | body {env : FrameId} {s : Store} {head body : Node}
      (hk : head.keyword? = some (.form .letIn)) :
      Part limit ⟨env, .list [head, .list [], body], s⟩ ⟨env, body, s⟩
  | clauseTest {env : FrameId} {s : Store} {head test n : Node} {clauses : List Node}
      (hk : head.keyword? = some (.form .cond)) :
      Part limit ⟨env, .list [head, .list (.list [test, n] :: clauses)], s⟩ ⟨env, test, s⟩
  | clause {env : FrameId} {s t : Store} {head test n : Node} {clauses : List Node} {v : Value}
      (hk : head.keyword? = some (.form .cond)) (hv : evaluate limit env test s = .ok v t) :
      Part limit ⟨env, .list [head, .list (.list [test, n] :: clauses)], s⟩
        ⟨env, if v.isTruthy then n else .list [head, .list clauses], t⟩

theorem Part.sizeOf_lt {limit : Nat} {x y : Site} (h : Part limit x y) :
    sizeOf y.node < sizeOf x.node := by
  cases h with
  | @operand env s t head n before after =>
      have hn : sizeOf n < sizeOf (before ++ n :: after) := List.sizeOf_lt_of_mem (by simp)
      simp only [Node.list.sizeOf_spec, List.cons.sizeOf_spec]
      omega
  | test | value | binding | bound | body | clauseTest =>
      simp only [Node.list.sizeOf_spec, List.cons.sizeOf_spec]
      omega
  | @branch env s t head test yes no v =>
      cases hv : v.isTruthy <;>
        simp only [if_true, Bool.false_eq_true, if_false, Node.list.sizeOf_spec,
          List.cons.sizeOf_spec] <;> omega
  | @clause env s t head test n clauses v =>
      cases hv : v.isTruthy <;>
        simp only [if_true, Bool.false_eq_true, if_false, Node.list.sizeOf_spec,
          List.cons.sizeOf_spec] <;> omega

def Node.isCall : Node → Bool
  | .list (head :: _) => head.keyword?.isNone
  | _ => false

theorem overflows_evalAll {limit : Nat} {env : FrameId} {ns : List Node} {s : Store} :
    (Node.evalAll (apply limit) env ns).Overflows s ↔
      ∃ before n after vs t, ns = before ++ n :: after ∧
        Node.evalAll (apply limit) env before s = .ok vs t ∧
        (evaluate limit env n).Overflows t := by
  induction ns generalizing s with
  | nil =>
      constructor
      · exact fun h => absurd h (Run.not_overflows_pure _)
      · rintro ⟨before, n, after, vs, t, hns, -⟩
        cases before <;> cases hns
  | cons n ns ih =>
      rw [Node.evalAll, Run.overflows_bind]
      constructor
      · rintro (h | ⟨v, t, hv, h⟩)
        · exact ⟨[], n, ns, [], s, rfl, rfl, h⟩
        · rw [Run.overflows_bind_left fun _ _ => Run.not_overflows_pure _] at h
          obtain ⟨before, m, after, vs, u, rfl, hvs, hm⟩ := ih.1 h
          refine ⟨n :: before, m, after, v :: vs, u, rfl, ?_, hm⟩
          rw [Node.evalAll, Run.bind_of_ok hv, Run.bind_of_ok hvs]
          rfl
      · rintro ⟨before, m, after, vs, t, hns, hvs, hm⟩
        cases before with
        | nil =>
            cases hns
            cases hvs
            exact .inl hm
        | cons b before =>
            cases hns
            rw [Node.evalAll] at hvs
            obtain ⟨v, u, hv, hvs⟩ := Run.exists_of_bind_eq_ok hvs
            obtain ⟨vs', u', hvs', he⟩ := Run.exists_of_bind_eq_ok hvs
            cases he
            refine .inr ⟨v, u, hv, ?_⟩
            rw [Run.overflows_bind_left fun _ _ => Run.not_overflows_pure _]
            exact ih.2 ⟨before, m, after, vs', t, rfl, hvs', hm⟩

theorem Part.overflows {limit : Nat} {x y : Site} (h : Part limit x y) (hy : y.Overflows limit) :
    x.Overflows limit := by
  rw [Site.Overflows, evaluate] at hy ⊢
  cases h with
  | operand hk hs hl hv =>
      rw [Node.eval_strict _ _ hk hl hs, Run.overflows_bind]
      exact .inl (overflows_evalAll.2 ⟨_, _, _, _, _, rfl, hv, hy⟩)
  | test hk =>
      rw [Node.eval_ifElse _ _ hk, Run.overflows_bind]
      exact .inl hy
  | @branch env s t head test yes no v hk hv =>
      rw [Node.eval_ifElse _ _ hk, Run.overflows_bind]
      refine .inr ⟨v, t, hv, ?_⟩
      by_cases htrue : v.isTruthy
      · rwa [if_pos htrue] at hy ⊢
      · rwa [if_neg htrue] at hy ⊢
  | value hk =>
      rw [Node.eval_define _ _ hk, Run.overflows_bind]
      exact .inl hy
  | binding hk =>
      rw [Node.eval_letIn _ _ hk, Node.bindAll, bind_assoc, Run.overflows_bind]
      exact .inl hy
  | bound hk hv =>
      rw [Node.eval_letIn _ _ hk] at hy ⊢
      rw [Node.bindAll, bind_assoc, Run.overflows_bind]
      exact .inr ⟨_, _, hv, by rwa [bind_assoc]⟩
  | body hk =>
      rwa [Node.eval_letIn _ _ hk, Node.bindAll, pure_bind]
  | clauseTest hk =>
      rw [Node.eval_cond _ _ hk, Node.evalClauses, Run.overflows_bind]
      exact .inl hy
  | @clause env s t head test n clauses v hk hv =>
      rw [Node.eval_cond _ _ hk, Node.evalClauses, Run.overflows_bind]
      refine .inr ⟨v, t, hv, ?_⟩
      by_cases htrue : v.isTruthy
      · rwa [if_pos htrue] at hy ⊢
      · rw [if_neg htrue] at hy ⊢
        rwa [Node.eval_cond _ _ hk] at hy

section Overflow

variable {limit : Nat} {env : FrameId} {s : Store} {head : Node}

theorem not_overflows_throw {e : Fault} (h : ∀ l, e ≠ .stackOverflow l) :
    ¬ (throw e : Run Store Value).Overflows s := by
  rintro ⟨l, t, ht⟩
  cases ht
  exact h l rfl

theorem not_overflows_lookup (env : FrameId) (name : String) (s : Store) :
    ¬ (Run.ask (·.lookup env name)).Overflows s := by
  rintro ⟨l, t, ht⟩
  cases hv : s.find? env name with
  | some v =>
      rw [Run.ask_of_ok (a := v) (by simp only [RunState.store, Store.lookup, hv])] at ht
      cases ht
  | none =>
      rw [Run.ask_of_error (e := .unboundSymbol name)
        (by simp only [RunState.store, Store.lookup, hv])] at ht
      cases ht

theorem exists_part_letIn {bindings : List Node} {body : Node}
    (hk : head.keyword? = some (.form .letIn))
    (h : Site.Overflows limit ⟨env, .list [head, .list bindings, body], s⟩) :
    ∃ y, Part limit ⟨env, .list [head, .list bindings, body], s⟩ y ∧ y.Overflows limit := by
  rw [Site.Overflows, evaluate, Node.eval_letIn _ _ hk] at h
  cases bindings with
  | nil => exact ⟨_, .body hk, by rwa [Node.bindAll, pure_bind] at h⟩
  | cons b bindings =>
      by_cases hb : ∃ name n, b = .list [.symbol name, n]
      · obtain ⟨name, n, rfl⟩ := hb
        rw [Node.bindAll, bind_assoc, Run.overflows_bind] at h
        obtain h | ⟨v, t, hv, h⟩ := h
        · exact ⟨_, .binding hk, h⟩
        · refine ⟨_, .bound hk hv, ?_⟩
          rw [bind_assoc] at h
          rwa [Site.Overflows, evaluate, Node.eval_letIn _ _ hk]
      · rw [Node.bindAll_malformed _ env fun name n he => hb ⟨name, n, he⟩] at h
        obtain ⟨l, t, ht⟩ := h
        cases ht

theorem exists_part_cond {clauses : List Node} (hk : head.keyword? = some (.form .cond))
    (h : Site.Overflows limit ⟨env, .list [head, .list clauses], s⟩) :
    ∃ y, Part limit ⟨env, .list [head, .list clauses], s⟩ y ∧ y.Overflows limit := by
  rw [Site.Overflows, evaluate, Node.eval_cond _ _ hk] at h
  cases clauses with
  | nil => exact absurd h (Run.not_overflows_pure _)
  | cons c clauses =>
      by_cases hc : ∃ test n, c = .list [test, n]
      · obtain ⟨test, n, rfl⟩ := hc
        rw [Node.evalClauses, Run.overflows_bind] at h
        obtain h | ⟨v, t, hv, h⟩ := h
        · exact ⟨_, .clauseTest hk, h⟩
        · refine ⟨_, .clause hk hv, ?_⟩
          rw [Site.Overflows, evaluate]
          by_cases htrue : v.isTruthy
          · rwa [if_pos htrue] at h ⊢
          · rw [if_neg htrue] at h ⊢
            rwa [Node.eval_cond _ _ hk]
      · rw [Node.evalClauses_malformed _ env fun test n he => hc ⟨test, n, he⟩] at h
        exact absurd h (not_overflows_throw (by simp))

theorem exists_part_form {operands : List Node} {f : SpecialForm}
    (hk : head.keyword? = some (.form f)) (hs : ¬ (Keyword.form f).isStrict)
    (hl : operands.length = f.operands)
    (h : Site.Overflows limit ⟨env, .list (head :: operands), s⟩) :
    ∃ y, Part limit ⟨env, .list (head :: operands), s⟩ y ∧ y.Overflows limit := by
  cases f with
  | atom | eq | cons | head | tail | empty => exact absurd rfl hs
  | quote =>
      obtain ⟨n, rfl⟩ := List.length_eq_one_iff.1 hl
      rw [Site.Overflows, evaluate, Node.eval_quote _ _ hk] at h
      exact absurd h (Run.not_overflows_pure _)
  | lambda =>
      obtain ⟨params, body, rfl⟩ := List.length_eq_two.1 hl
      rw [Site.Overflows, evaluate, Node.eval_lambda _ _ hk] at h
      exact absurd h (not_overflows_makeClosure _ _ _ _)
  | defn =>
      obtain ⟨target, params, body, rfl⟩ := List.length_eq_three.1 hl
      rw [Site.Overflows, evaluate, Node.eval_defn _ _ hk,
        Run.overflows_bind_left fun v => not_overflows_define _ _ v] at h
      exact absurd h (not_overflows_makeClosure _ _ _ _)
  | define =>
      obtain ⟨target, n, rfl⟩ := List.length_eq_two.1 hl
      rw [Site.Overflows, evaluate, Node.eval_define _ _ hk,
        Run.overflows_bind_left fun v => not_overflows_define _ _ v] at h
      exact ⟨_, .value hk, h⟩
  | ifElse =>
      obtain ⟨test, yes, no, rfl⟩ := List.length_eq_three.1 hl
      rw [Site.Overflows, evaluate, Node.eval_ifElse _ _ hk, Run.overflows_bind] at h
      obtain h | ⟨v, t, hv, h⟩ := h
      · exact ⟨_, .test hk, h⟩
      · refine ⟨_, .branch hk hv, ?_⟩
        by_cases htrue : v.isTruthy
        · rwa [if_pos htrue] at h ⊢
        · rwa [if_neg htrue] at h ⊢
  | letIn =>
      obtain ⟨bindings, body, rfl⟩ := List.length_eq_two.1 hl
      cases hb : bindings.items? with
      | some items =>
          rw [Node.eq_list_of_items? hb] at h ⊢
          exact exists_part_letIn hk h
      | none =>
          rw [Site.Overflows, evaluate, Node.eval_letIn_of_items? _ _ hk hb] at h
          exact absurd h (not_overflows_throw (by simp))
  | cond =>
      obtain ⟨clauses, rfl⟩ := List.length_eq_one_iff.1 hl
      cases hc : clauses.items? with
      | some items =>
          rw [Node.eq_list_of_items? hc] at h ⊢
          exact exists_part_cond hk h
      | none =>
          rw [Site.Overflows, evaluate, Node.eval_cond_of_items? _ _ hk hc] at h
          exact absurd h (not_overflows_throw (by simp))

theorem overflows_iff_part {operands : List Node} {k : Keyword} (hk : head.keyword? = some k) :
    Site.Overflows limit ⟨env, .list (head :: operands), s⟩ ↔
      ∃ y, Part limit ⟨env, .list (head :: operands), s⟩ y ∧ y.Overflows limit := by
  constructor
  · intro h
    by_cases hl : operands.length = k.operands
    · by_cases hs : k.isStrict
      · rw [Site.Overflows, evaluate, Node.eval_strict _ _ hk hl hs,
          Run.overflows_bind_left fun vs _ => Run.not_overflows_ofExcept (k.proper_compute vs),
          overflows_evalAll] at h
        obtain ⟨before, n, after, vs, t, rfl, hvs, hn⟩ := h
        exact ⟨_, .operand hk hs hl hvs, hn⟩
      · cases k with
        | operator o => exact absurd rfl hs
        | form f => exact exists_part_form hk hs hl h
    · rw [Site.Overflows, evaluate, Node.eval_keywordArity _ _ hk hl] at h
      exact absurd h (not_overflows_throw (by simp))
  · rintro ⟨y, hp, hy⟩
    exact hp.overflows hy

/-- What overflows the limit under any number of reserved words is a call, and the limit for it is
the whole limit. -/
theorem overflows_iff_call (limit : Nat) (x : Site) :
    x.Overflows limit ↔
      ∃ y, Relation.ReflTransGen (Part limit) x y ∧ y.node.isCall ∧ y.Overflows limit := by
  constructor
  · intro h
    induction hm : sizeOf x.node using Nat.strongRecOn generalizing x with
    | ind m ih =>
        obtain ⟨env, n, s⟩ := x
        cases n with
        | boolean | integer => exact absurd h (Run.not_overflows_pure _)
        | symbol name => exact absurd h (not_overflows_lookup env name s)
        | list items =>
            cases items with
            | nil => exact absurd h (not_overflows_throw (by simp))
            | cons head operands =>
                cases hk : head.keyword? with
                | none => exact ⟨_, .refl, by rw [Node.isCall, hk]; rfl, h⟩
                | some k =>
                    obtain ⟨y, hp, hy⟩ := (overflows_iff_part hk).1 h
                    obtain ⟨z, hr, hz⟩ := ih _ (hm ▸ hp.sizeOf_lt) y hy rfl
                    exact ⟨z, .head hp hr, hz⟩
  · rintro ⟨y, hr, -, hy⟩
    induction hr using Relation.ReflTransGen.head_induction_on with
    | refl => exact hy
    | head hp _ ih => exact hp.overflows ih

end Overflow

end SmallLisp
