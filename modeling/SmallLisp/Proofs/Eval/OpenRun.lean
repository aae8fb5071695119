import SmallLisp.Proofs.Eval.Lockstep
import SmallLisp.Proofs.Run

namespace SmallLisp

/-- A run that may have no result. -/
abbrev OpenRun (α : Type) := ExceptT Fault (StateT Store Option) α

def Store.walk (s : Store) : Nat → FrameId → Option (List Frame)
  | 0, _ => none
  | k + 1, env => do
      let f ← s.frames[env]?
      match f.parent with
      | none => return [f]
      | some p => do
          let fs ← s.walk k p
          return f :: fs

namespace OpenRun

variable {α β : Type}

def of (r : Run Store α) : OpenRun α := fun s => some (r.outcome s, r.after s)

def stuck : OpenRun α := fun _ => none

def frame (env : FrameId) : OpenRun Frame := fun s => (s.frames[env]?).map fun f => (.ok f, s)

def operand (operands : List Node) (i : Nat) : OpenRun Node :=
  match operands[i]? with
  | some n => pure n
  | none => stuck

def lookup (name : String) : Nat → FrameId → OpenRun Value
  | 0, _ => stuck
  | k + 1, env => do
      let f ← frame env
      match f.find? name with
      | some v => return v
      | none =>
          match f.parent with
          | some p => lookup name k p
          | none => throw (.unboundSymbol name)

mutual

/-- Evaluates a node while the bodies of `depth` closures are being evaluated. The first number says
how many calls deep the recursion may go. -/
def eval (limit : Nat) : Nat → Nat → FrameId → Node → OpenRun Value
  | 0, _, _, _ => stuck
  | _ + 1, _, _, .boolean b => pure (.boolean b)
  | _ + 1, _, _, .integer n => pure (.integer n)
  | k + 1, _, env, .symbol name => lookup name k env
  | _ + 1, _, _, .list [] => throw (.notCallable (Node.list []).text)
  | k + 1, depth, env, .list (head :: operands) =>
      match head.keyword? with
      | none => do
          let v ← eval limit k depth env head
          let c ← of (Run.ofExcept v.callee)
          of (Run.ofExcept (c.checkArity operands.length))
          let args ← evalAll limit k depth env operands
          apply limit k depth c args
      | some w =>
          if operands.length ≠ w.operands then throw (.keywordArity w operands.length)
          else if w.isStrict then do
            let args ← evalAt limit k depth env operands (List.range w.operands)
            of (Run.ofExcept (w.compute args))
          else
            match w with
            | .form .quote => do
                let n ← operand operands 0
                return .ofNode n
            | .form .ifElse => do
                let test ← operand operands 0
                let yes ← operand operands 1
                let no ← operand operands 2
                let v ← eval limit k depth env test
                if v.isTruthy then eval limit k depth env yes else eval limit k depth env no
            | .form .define => do
                let target ← operand operands 0
                let n ← operand operands 1
                let v ← eval limit k depth env n
                of (define env target v)
            | .form .lambda => do
                let params ← operand operands 0
                let body ← operand operands 1
                of (makeClosure env params body)
            | .form .letIn => do
                let bindings ← operand operands 0
                let body ← operand operands 1
                match bindings with
                | .list bs => do
                    let scope ← bindAll limit k depth env bs
                    eval limit k depth scope body
                | _ => throw (.bindingsNotList bindings)
            | .form .defn => do
                let target ← operand operands 0
                let params ← operand operands 1
                let body ← operand operands 2
                let v ← of (makeClosure env params body)
                of (define env target v)
            | .form .cond => do
                let clauses ← operand operands 0
                match clauses with
                | .list cs => evalClauses limit k depth env cs
                | _ => throw (.clausesNotList clauses)
            | _ => stuck

def evalAll (limit : Nat) : Nat → Nat → FrameId → List Node → OpenRun (List Value)
  | 0, _, _, _ => stuck
  | _ + 1, _, _, [] => pure []
  | k + 1, depth, env, n :: ns => do
      let v ← eval limit k depth env n
      let vs ← evalAll limit k depth env ns
      return v :: vs

def evalAt (limit : Nat) : Nat → Nat → FrameId → List Node → List Nat → OpenRun (List Value)
  | 0, _, _, _, _ => stuck
  | _ + 1, _, _, _, [] => pure []
  | k + 1, depth, env, ns, i :: places => do
      let n ← operand ns i
      let v ← eval limit k depth env n
      let vs ← evalAt limit k depth env ns places
      return v :: vs

def bindAll (limit : Nat) : Nat → Nat → FrameId → List Node → OpenRun FrameId
  | 0, _, _, _ => stuck
  | _ + 1, _, scope, [] => pure scope
  | k + 1, depth, scope, .list [.symbol name, n] :: bindings => do
      let v ← eval limit k depth scope n
      let inner ← of (Run.change (·.extend scope [(name, v)]))
      bindAll limit k depth inner bindings
  | _ + 1, _, _, binding :: _ => throw (.malformedBinding binding)

def evalClauses (limit : Nat) : Nat → Nat → FrameId → List Node → OpenRun Value
  | 0, _, _, _ => stuck
  | _ + 1, _, _, [] => pure (.boolean false)
  | k + 1, depth, env, .list [test, n] :: clauses => do
      let v ← eval limit k depth env test
      if v.isTruthy then eval limit k depth env n else evalClauses limit k depth env clauses
  | _ + 1, _, _, clause :: _ => throw (.malformedClause clause)

def apply (limit : Nat) : Nat → Nat → Closure → List Value → OpenRun Value
  | 0, _, _, _ => stuck
  | k + 1, depth, c, args => do
      of (Run.ofExcept (c.checkArity args.length))
      if depth < limit then
        let scope ← of (Run.change (·.extend c.env (c.params.zip args)))
        eval limit k (depth + 1) scope c.body
      else throw (.stackOverflow limit)

end

theorem bind_of_ok {r : OpenRun α} {f : α → OpenRun β} {s t : Store} {a : α}
    (h : r s = some (.ok a, t)) : (r >>= f) s = f a t := by
  change ((r s).bind fun p => _) = _
  rw [h]
  rfl

theorem bind_of_error {r : OpenRun α} {f : α → OpenRun β} {s t : Store} {e : Fault}
    (h : r s = some (.error e, t)) : (r >>= f) s = some (.error e, t) := by
  change ((r s).bind fun p => _) = _
  rw [h]
  rfl

theorem of_of_ok {r : Run Store α} {s t : Store} {a : α} (h : r s = .ok a t) :
    of r s = some (.ok a, t) := by
  rw [of, Run.outcome_of_ok h, Run.after_of_ok h]

theorem of_of_error {r : Run Store α} {s t : Store} {e : Fault} (h : r s = .error e t) :
    of r s = some (.error e, t) := by
  rw [of, Run.outcome_of_error h, Run.after_of_error h]

theorem of_bind (r : Run Store α) (f : α → Run Store β) :
    of (r >>= f) = (of r >>= fun a => of (f a)) := by
  funext s
  cases h : r s with
  | ok a t =>
      rw [bind_of_ok (of_of_ok h), of, of, Run.outcome_bind_of_ok h, Run.after_bind_of_ok h]
  | error e t => rw [bind_of_error (of_of_error h), of_of_error (Run.bind_of_error h)]

/-- What the run comes to from `s` if it may go deep enough; how deep that is makes no difference. -/
def Settles (r : Nat → OpenRun α) (s : Store) (x : Except Fault α × Store) : Prop :=
  ∃ k, ∀ j, k ≤ j → r j s = some x

namespace Settles

variable {r r' : Nat → OpenRun α} {f : Nat → α → OpenRun β} {s t : Store}

theorem const {r : OpenRun α} {x : Except Fault α × Store} (h : r s = some x) :
    Settles (fun _ => r) s x :=
  ⟨0, fun _ _ => h⟩

theorem unique {x y : Except Fault α × Store} (h : Settles r s x) (h' : Settles r s y) : x = y := by
  obtain ⟨k, hk⟩ := h
  obtain ⟨k', hk'⟩ := h'
  have hx := hk (max k k') (Nat.le_max_left k k')
  rw [hk' (max k k') (Nat.le_max_right k k')] at hx
  exact (Option.some.inj hx).symm

theorem succ {x : Except Fault α × Store} (he : ∀ k, r (k + 1) = r' k) (h : Settles r' s x) :
    Settles r s x := by
  obtain ⟨k, hk⟩ := h
  refine ⟨k + 1, fun j hj => ?_⟩
  obtain ⟨i, rfl⟩ : ∃ i, j = i + 1 := ⟨j - 1, by omega⟩
  rw [he]
  exact hk i (Nat.le_of_succ_le_succ hj)

theorem bind_ok {a : α} {x : Except Fault β × Store} (h : Settles r s (.ok a, t))
    (hf : Settles (f · a) t x) : Settles (fun k => r k >>= f k) s x := by
  obtain ⟨k, hk⟩ := h
  obtain ⟨k', hk'⟩ := hf
  refine ⟨max k k', fun j hj => ?_⟩
  exact (bind_of_ok (hk j (Nat.le_trans (Nat.le_max_left k k') hj))).trans
    (hk' j (Nat.le_trans (Nat.le_max_right k k') hj))

theorem bind_error {e : Fault} (h : Settles r s (.error e, t)) :
    Settles (fun k => r k >>= f k) s (.error e, t) := by
  obtain ⟨k, hk⟩ := h
  exact ⟨k, fun j hj => bind_of_error (hk j hj)⟩

end Settles

variable (limit k depth : Nat) (env : FrameId) {head : Node} {operands : List Node}

theorem eval_call (h : head.keyword? = none) :
    eval limit (k + 1) depth env (.list (head :: operands)) = (do
      let v ← eval limit k depth env head
      let c ← of (Run.ofExcept v.callee)
      of (Run.ofExcept (c.checkArity operands.length))
      let args ← evalAll limit k depth env operands
      apply limit k depth c args) := by
  rw [eval, h]

theorem eval_keywordArity {w : Keyword} (h : head.keyword? = some w)
    (hl : operands.length ≠ w.operands) :
    eval limit (k + 1) depth env (.list (head :: operands)) =
      throw (.keywordArity w operands.length) := by
  rw [eval, h]
  exact if_pos hl

theorem operand_append (before after : List Node) (n : Node) :
    operand (before ++ n :: after) before.length = pure n := by
  simp [operand]

theorem evalAt_range' (before ns : List Node) :
    evalAt limit k depth env (before ++ ns) (List.range' before.length ns.length) =
      evalAll limit k depth env ns := by
  induction k generalizing before ns with
  | zero => rw [evalAt, evalAll]
  | succ k ih =>
      cases ns with
      | nil => rw [List.length_nil, List.range'_zero, evalAt, evalAll]
      | cons n ns =>
          have hrest := ih (before ++ [n]) ns
          rw [List.append_assoc, List.singleton_append, List.length_append,
            List.length_singleton] at hrest
          rw [List.length_cons, List.range'_succ, evalAt, evalAll, operand_append, pure_bind, hrest]

theorem eval_strict {w : Keyword} (h : head.keyword? = some w)
    (hl : operands.length = w.operands) (hs : w.isStrict) :
    eval limit (k + 1) depth env (.list (head :: operands)) = (do
      let args ← evalAll limit k depth env operands
      of (Run.ofExcept (w.compute args))) := by
  have hat := evalAt_range' limit k depth env [] operands
  rw [List.nil_append, List.length_nil, ← List.range_eq_range', hl] at hat
  rw [eval, h]
  simp only [hl, hs, hat, ne_eq, not_true_eq_false, if_false, if_true]

attribute [local simp] eval operand Keyword.operands Keyword.isStrict SpecialForm.operands

theorem eval_quote {n : Node} (h : head.keyword? = some (.form .quote)) :
    eval limit (k + 1) depth env (.list [head, n]) = pure (.ofNode n) := by
  simp [h]

theorem eval_ifElse {test yes no : Node} (h : head.keyword? = some (.form .ifElse)) :
    eval limit (k + 1) depth env (.list [head, test, yes, no]) = (do
      let v ← eval limit k depth env test
      if v.isTruthy then eval limit k depth env yes else eval limit k depth env no) := by
  simp [h]

theorem eval_define {target n : Node} (h : head.keyword? = some (.form .define)) :
    eval limit (k + 1) depth env (.list [head, target, n]) = (do
      let v ← eval limit k depth env n
      of (define env target v)) := by
  simp [h]

theorem eval_lambda {params body : Node} (h : head.keyword? = some (.form .lambda)) :
    eval limit (k + 1) depth env (.list [head, params, body]) = of (makeClosure env params body) := by
  simp [h]

theorem eval_letIn {bindings : List Node} {body : Node}
    (h : head.keyword? = some (.form .letIn)) :
    eval limit (k + 1) depth env (.list [head, .list bindings, body]) = (do
      let scope ← bindAll limit k depth env bindings
      eval limit k depth scope body) := by
  simp [h]

theorem eval_letIn_of_items? {bindings body : Node} (h : head.keyword? = some (.form .letIn))
    (hb : bindings.items? = none) :
    eval limit (k + 1) depth env (.list [head, bindings, body]) = throw (.bindingsNotList bindings) := by
  cases bindings with
  | list => cases hb
  | boolean | integer | symbol => simp [h]

theorem eval_defn {target params body : Node} (h : head.keyword? = some (.form .defn)) :
    eval limit (k + 1) depth env (.list [head, target, params, body]) = (do
      let v ← of (makeClosure env params body)
      of (define env target v)) := by
  simp [h]

theorem eval_cond {clauses : List Node} (h : head.keyword? = some (.form .cond)) :
    eval limit (k + 1) depth env (.list [head, .list clauses]) =
      evalClauses limit k depth env clauses := by
  simp [h]

theorem eval_cond_of_items? {clauses : Node} (h : head.keyword? = some (.form .cond))
    (hc : clauses.items? = none) :
    eval limit (k + 1) depth env (.list [head, clauses]) = throw (.clausesNotList clauses) := by
  cases clauses with
  | list => cases hc
  | boolean | integer | symbol => simp [h]

theorem evalAll_cons (n : Node) (ns : List Node) :
    evalAll limit (k + 1) depth env (n :: ns) = (do
      let v ← eval limit k depth env n
      let vs ← evalAll limit k depth env ns
      return v :: vs) := by
  rw [evalAll]

theorem bindAll_cons (name : String) (n : Node) (bindings : List Node) :
    bindAll limit (k + 1) depth env (.list [.symbol name, n] :: bindings) = (do
      let v ← eval limit k depth env n
      let inner ← of (Run.change (·.extend env [(name, v)]))
      bindAll limit k depth inner bindings) := by
  rw [bindAll]

theorem evalClauses_cons (test n : Node) (clauses : List Node) :
    evalClauses limit (k + 1) depth env (.list [test, n] :: clauses) = (do
      let v ← eval limit k depth env test
      if v.isTruthy then eval limit k depth env n else evalClauses limit k depth env clauses) := by
  rw [evalClauses]

theorem bindAll_malformed {binding : Node}
    (hb : ∀ name n, binding = .list [.symbol name, n] → False) (bindings : List Node) :
    bindAll limit (k + 1) depth env (binding :: bindings) = throw (.malformedBinding binding) := by
  rw [bindAll]
  exact hb

theorem evalClauses_malformed {clause : Node} (hc : ∀ test n, clause = .list [test, n] → False)
    (clauses : List Node) :
    evalClauses limit (k + 1) depth env (clause :: clauses) = throw (.malformedClause clause) := by
  rw [evalClauses]
  exact hc

section Application

variable {c : Closure} {args : List Value}

theorem apply_of_error {e : Fault} (h : c.checkArity args.length = .error e) :
    apply limit (k + 1) depth c args = throw e := by
  rw [apply, h]
  rfl

theorem apply_of_lt (h : c.checkArity args.length = .ok ()) (hd : depth < limit) :
    apply limit (k + 1) depth c args = (do
      let scope ← of (Run.change (·.extend c.env (c.params.zip args)))
      eval limit k (depth + 1) scope c.body) := by
  rw [apply, h, if_pos hd]
  rfl

theorem apply_of_not_lt (h : c.checkArity args.length = .ok ()) (hd : ¬ depth < limit) :
    apply limit (k + 1) depth c args = throw (.stackOverflow limit) := by
  rw [apply, h, if_neg hd]
  rfl

end Application

end OpenRun

end SmallLisp
