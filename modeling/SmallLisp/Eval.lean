import SmallLisp.Operation
import SmallLisp.Run

namespace SmallLisp

variable {σ : Type} [RunState σ]

abbrev Applying (σ : Type) := Closure → List Value → Run σ Value

def parameters (seen : List String) : List Node → Except Fault (List String)
  | [] => .ok seen.reverse
  | .symbol name :: ps =>
      if name ∈ seen then .error (.duplicateParameter name) else parameters (name :: seen) ps
  | p :: _ => .error (.parameterNotSymbol p)

def makeClosure (env : FrameId) (params body : Node) : Run σ Value := do
  match params with
  | .list ps =>
      let names ← Run.ofExcept (parameters [] ps)
      return .closure (← Run.change (·.close env names body))
  | _ => throw (.parametersNotList params)

def define (env : FrameId) (target : Node) (v : Value) : Run σ Value := do
  match target with
  | .symbol name =>
      Run.note (Notice.ofDefinition name v.kind)
      Run.attempt (·.define env name v)
      return .symbol name
  | _ => throw (.targetNotSymbol target)

def Closure.checkArity (c : Closure) (actual : Nat) : Except Fault Unit :=
  if actual = c.arity then .ok () else .error (.closureArity c.arity actual)

def Value.callee (v : Value) : Except Fault Closure :=
  match v with
  | .closure c => .ok c
  | _ => .error (.notCallable v.text)

/-- The keyword that a node stands for at the head of a list. -/
def Node.keyword? : Node → Option Keyword
  | .symbol name => Keyword.ofName? name
  | _ => none

mutual

/-- Evaluates a node in a frame. Only `call` leaves the node at hand, so this is recursion on the
node. -/
def Node.eval (call : Applying σ) (env : FrameId) : Node → Run σ Value
  | .boolean b => pure (.boolean b)
  | .integer n => pure (.integer n)
  | .symbol name => Run.ask (·.lookup env name)
  | .list [] => throw (.notCallable (Node.list []).text)
  | .list (head :: operands) =>
      match head.keyword? with
      | none => do
          let c ← Run.ofExcept (← Node.eval call env head).callee
          Run.ofExcept (c.checkArity operands.length)
          call c (← Node.evalAll call env operands)
      | some k =>
          if operands.length ≠ k.operands then throw (.keywordArity k operands.length)
          else if k.isStrict then do
            Run.ofExcept (k.compute (← Node.evalAll call env operands))
          else
            match k, operands with
            | .form .quote, [n] => pure (.ofNode n)
            | .form .ifElse, [test, yes, no] => do
                if (← Node.eval call env test).isTruthy then Node.eval call env yes
                else Node.eval call env no
            | .form .define, [target, n] => do
                define env target (← Node.eval call env n)
            | .form .lambda, [params, body] => makeClosure env params body
            | .form .letIn, [.list bindings, body] => do
                let scope ← Node.bindAll call env bindings
                Node.eval call scope body
            | .form .letIn, [bindings, _] => throw (.bindingsNotList bindings)
            | .form .defn, [target, params, body] => do
                define env target (← makeClosure env params body)
            | .form .cond, [.list clauses] => Node.evalClauses call env clauses
            | .form .cond, [clauses] => throw (.clausesNotList clauses)
            | k, operands => throw (.keywordArity k operands.length)

def Node.evalAll (call : Applying σ) (env : FrameId) : List Node → Run σ (List Value)
  | [] => pure []
  | n :: ns => do
      let v ← Node.eval call env n
      let vs ← Node.evalAll call env ns
      return v :: vs

/-- The innermost scope of the bindings of a `let`; each has a frame of its own and sees those
before it. -/
def Node.bindAll (call : Applying σ) (scope : FrameId) : List Node → Run σ FrameId
  | [] => pure scope
  | .list [.symbol name, n] :: bindings => do
      let v ← Node.eval call scope n
      let inner ← Run.change (·.extend scope [(name, v)])
      Node.bindAll call inner bindings
  | binding :: _ => throw (.malformedBinding binding)

def Node.evalClauses (call : Applying σ) (env : FrameId) : List Node → Run σ Value
  | [] => pure (.boolean false)
  | .list [test, n] :: clauses => do
      if (← Node.eval call env test).isTruthy then Node.eval call env n
      else Node.evalClauses call env clauses
  | clause :: _ => throw (.malformedClause clause)

end

/-- Applies a closure when `room` more applications may be begun before one of them ends. The body
runs in a new frame inside the scope of the closure. -/
def applyWithin (limit : Nat) : Nat → Applying σ
  | room, c, args => do
      Run.ofExcept (c.checkArity args.length)
      match room with
      | 0 => throw (.stackOverflow limit)
      | room + 1 =>
          Run.note [.applying c.arity (limit - (room + 1))]
          let scope ← Run.change (·.extend c.env (c.params.zip args))
          Run.within (Node.eval (applyWithin limit room) scope c.body)

def apply (limit : Nat) : Applying σ := applyWithin limit limit

def evaluate (limit : Nat) (env : FrameId) (n : Node) : Run σ Value := n.eval (apply limit) env

def evaluateInOrder (call : Applying σ) (env : FrameId) (last : Option Value) :
    List Node → Run σ (Option Value)
  | [] => pure last
  | n :: ns => do
      let v ← n.eval call env
      evaluateInOrder call env (some v) ns

def applyToNodes (limit : Nat) (env : FrameId) (c : Closure) (operands : List Node) :
    Run σ Value := do
  Run.ofExcept (c.checkArity operands.length)
  apply limit c (← Node.evalAll (apply limit) env operands)

end SmallLisp
