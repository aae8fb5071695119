import SmallLisp.Node

namespace SmallLisp

abbrev FrameId := Nat

/-- A function together with the frame it was made in. Closures are numbered in the order of their
creation, so two of them are equal only if they are one. -/
structure Closure where
  id : Nat
  params : List String
  body : Node
  env : FrameId
  deriving DecidableEq, Inhabited

def Closure.arity (c : Closure) : Nat := c.params.length

inductive Value where
  | boolean (b : Bool)
  | integer (n : Int64)
  | symbol (name : String)
  | list (items : List Value)
  | closure (c : Closure)
  deriving Inhabited

namespace Value

mutual

def decEq : (a b : Value) → Decidable (a = b)
  | boolean a, boolean b => decidable_of_iff (a = b) (by simp)
  | integer a, integer b => decidable_of_iff (a = b) (by simp)
  | symbol a, symbol b => decidable_of_iff (a = b) (by simp)
  | list as, list bs =>
      match decEqList as bs with
      | isTrue h => isTrue (congrArg list h)
      | isFalse h => isFalse (fun e => h (list.inj e))
  | closure a, closure b => decidable_of_iff (a = b) (by simp)
  | boolean _, integer _ | boolean _, symbol _ | boolean _, list _ | boolean _, closure _
  | integer _, boolean _ | integer _, symbol _ | integer _, list _ | integer _, closure _
  | symbol _, boolean _ | symbol _, integer _ | symbol _, list _ | symbol _, closure _
  | list _, boolean _ | list _, integer _ | list _, symbol _ | list _, closure _
  | closure _, boolean _ | closure _, integer _ | closure _, symbol _
  | closure _, list _ => isFalse nofun

def decEqList : (as bs : List Value) → Decidable (as = bs)
  | [], [] => isTrue rfl
  | [], _ :: _ | _ :: _, [] => isFalse nofun
  | a :: as, b :: bs =>
      match decEq a b with
      | isFalse h => isFalse (fun e => h (List.cons.inj e).1)
      | isTrue h =>
          match decEqList as bs with
          | isTrue t => isTrue (by rw [h, t])
          | isFalse t => isFalse (fun e => t (List.cons.inj e).2)

end

instance : DecidableEq Value := decEq

mutual

def ofNode : Node → Value
  | .boolean b => boolean b
  | .integer n => integer n
  | .symbol name => symbol name
  | .list items => list (ofNodes items)

def ofNodes : List Node → List Value
  | [] => []
  | n :: ns => ofNode n :: ofNodes ns

end

def isAtom : Value → Bool
  | list items => items.isEmpty
  | closure _ => false
  | _ => true

/-- False, zero and the empty list count as false. -/
def isTruthy : Value → Bool
  | boolean b => b
  | integer n => n ≠ 0
  | list items => !items.isEmpty
  | _ => true

def integer? : Value → Option Int64
  | integer n => some n
  | _ => none

def items? : Value → Option (List Value)
  | list items => some items
  | _ => none

def closure? : Value → Option Closure
  | closure c => some c
  | _ => none

def kind : Value → Kind
  | boolean _ => .boolean
  | integer _ => .integer
  | symbol _ => .symbol
  | list _ => .list
  | closure _ => .closure

end Value

end SmallLisp
