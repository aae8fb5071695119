import SmallLisp.Fault
import SmallLisp.Integer

namespace SmallLisp

namespace Operator

def checked (o : Operator) : Option Int64 → Except Fault Value
  | some w => .ok (.integer w)
  | none => .error (.integerOverflow o)

def exactly (o : Operator) (n : Int) : Except Fault Value := o.checked (Integer.ofInt? n)

def apply (o : Operator) (a b : Int64) : Except Fault Value :=
  match o with
  | add => o.exactly (a.toInt + b.toInt)
  | sub => o.exactly (a.toInt - b.toInt)
  | mul => o.exactly (a.toInt * b.toInt)
  | div => if b = 0 then .error .divisionByZero else o.checked (Integer.floorDiv? a b)
  | mod => if b = 0 then .error .divisionByZero else .ok (.integer (Integer.floorMod a b))
  | greater => .ok (.boolean (b < a))
  | less => .ok (.boolean (a < b))
  | equal => .ok (.boolean (a = b))

theorem checked_cases (o : Operator) (w : Option Int64) :
    (∃ n, o.checked w = .ok (.integer n)) ∨ o.checked w = .error (.integerOverflow o) := by
  cases w with
  | some n => exact .inl ⟨n, rfl⟩
  | none => exact .inr rfl

theorem apply_cases (o : Operator) (a b : Int64) :
    (∃ t, o.apply a b = .ok (.boolean t)) ∨ (∃ n, o.apply a b = .ok (.integer n)) ∨
      o.apply a b = .error (.integerOverflow o) ∨ o.apply a b = .error .divisionByZero := by
  cases o with
  | add | sub | mul => exact .inr ((checked_cases _ _).imp_right .inl)
  | greater | less | equal => exact .inl ⟨_, rfl⟩
  | div =>
      rw [apply]
      split
      · exact .inr (.inr (.inr rfl))
      · exact .inr ((checked_cases _ _).imp_right .inl)
  | mod =>
      rw [apply]
      split
      · exact .inr (.inr (.inr rfl))
      · exact .inr (.inl ⟨_, rfl⟩)

/-- Applies an operator to operands of any kind; the first that is no integer is at fault. -/
def applyValues (o : Operator) : Value → Value → Except Fault Value
  | .integer a, .integer b => o.apply a b
  | .integer _, v | v, _ => .error (.operandNotInteger o v.kind)

end Operator

def Value.operandOf (f : SpecialForm) (v : Value) : Except Fault (List Value) :=
  match v with
  | .list items => .ok items
  | _ => .error (.operandNotList f v.kind)

def Value.partsOf (f : SpecialForm) (v : Value) : Except Fault (Value × List Value) := do
  match ← v.operandOf f with
  | [] => throw (.emptyList f)
  | first :: rest => return (first, rest)

namespace Keyword

/-- Strict keywords evaluate all their operands, and nothing else matters to them. -/
def isStrict : Keyword → Bool
  | operator _ => true
  | form .atom | form .eq | form .cons | form .head | form .tail | form .empty => true
  | form _ => false

def compute : Keyword → List Value → Except Fault Value
  | operator o, [a, b] => o.applyValues a b
  | form .atom, [v] => .ok (.boolean v.isAtom)
  | form .eq, [a, b] => .ok (.boolean (a.isAtom && b.isAtom && a = b))
  | form .cons, [first, v] => do return .list (first :: (← v.operandOf .cons))
  | form .head, [v] => do return (← v.partsOf .head).1
  | form .tail, [v] => do return .list (← v.partsOf .tail).2
  | form .empty, [v] => do return .boolean (← v.operandOf .empty).isEmpty
  | k, args => .error (.keywordArity k args.length)

end Keyword

end SmallLisp
