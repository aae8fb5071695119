import SmallLisp.Kind

namespace SmallLisp

inductive Node where
  | boolean (b : Bool)
  | integer (n : Int64)
  | symbol (name : String)
  | list (items : List Node)
  deriving Inhabited

namespace Node

mutual

def decEq : (a b : Node) → Decidable (a = b)
  | boolean a, boolean b => decidable_of_iff (a = b) (by simp)
  | integer a, integer b => decidable_of_iff (a = b) (by simp)
  | symbol a, symbol b => decidable_of_iff (a = b) (by simp)
  | list as, list bs =>
      match decEqList as bs with
      | isTrue h => isTrue (congrArg list h)
      | isFalse h => isFalse (fun e => h (list.inj e))
  | boolean _, integer _ | boolean _, symbol _ | boolean _, list _
  | integer _, boolean _ | integer _, symbol _ | integer _, list _
  | symbol _, boolean _ | symbol _, integer _ | symbol _, list _
  | list _, boolean _ | list _, integer _ | list _, symbol _ => isFalse nofun

def decEqList : (as bs : List Node) → Decidable (as = bs)
  | [], [] => isTrue rfl
  | [], _ :: _ | _ :: _, [] => isFalse nofun
  | a :: as, b :: bs =>
      match decEq a b with
      | isFalse h => isFalse (fun e => h (List.cons.inj e).1)
      | isTrue h =>
          match decEqList as bs with
          | isTrue t => isTrue (by rw [h, t])
          | isFalse t => isFalse (fun e => t (List.cons.inj e).2)

end

instance : DecidableEq Node := decEq

/-- The list that a quote character in front of `n` stands for. -/
def quoted (n : Node) : Node := list [symbol "quote", n]

def quotedOperand? : Node → Option Node
  | list [symbol "quote", n] => some n
  | _ => none

def isAtom : Node → Bool
  | list items => items.isEmpty
  | _ => true

def isList : Node → Bool
  | list _ => true
  | _ => false

def symbol? : Node → Option String
  | symbol name => some name
  | _ => none

def items? : Node → Option (List Node)
  | list items => some items
  | _ => none

def kind : Node → Kind
  | boolean _ => .boolean
  | integer _ => .integer
  | symbol _ => .symbol
  | list _ => .list

end Node

end SmallLisp
