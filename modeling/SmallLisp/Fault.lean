import SmallLisp.Keyword
import SmallLisp.Node.Text
import SmallLisp.Value.Text

namespace SmallLisp

inductive Fault where
  | unboundSymbol (name : String)
  | duplicateDefinition (name : String)
  | keywordArity (k : Keyword) (actual : Nat)
  | closureArity (expected actual : Nat)
  | targetNotSymbol (target : Node)
  | parametersNotList (params : Node)
  | parameterNotSymbol (param : Node)
  | duplicateParameter (name : String)
  | operandNotInteger (o : Operator) (actual : Kind)
  | operandNotList (f : SpecialForm) (actual : Kind)
  | emptyList (f : SpecialForm)
  | notCallable (shown : String)
  | bindingsNotList (bindings : Node)
  | malformedBinding (binding : Node)
  | clausesNotList (clauses : Node)
  | malformedClause (clause : Node)
  | divisionByZero
  | integerOverflow (o : Operator)
  | stackOverflow (limit : Nat)
  deriving DecidableEq

def Fault.message : Fault → String
  | unboundSymbol name => s!"Unbound symbol: {name}"
  | duplicateDefinition name =>
      s!"Duplicate definition: {name} is already defined in this scope"
  | keywordArity k actual =>
      s!"Arity mismatch in {k.name}: expected {k.operands}, got {actual}"
  | closureArity expected actual =>
      s!"Arity mismatch in {closureText expected}: expected {expected}, got {actual}"
  | targetNotSymbol target => s!"Illegal definition target: {target.text} is not a symbol"
  | parametersNotList params =>
      s!"Illegal definition target: lambda parameters must be a list, got {params.text}"
  | parameterNotSymbol param =>
      s!"Illegal definition target: parameter {param.text} is not a symbol"
  | duplicateParameter name => s!"Illegal definition target: duplicate parameter {name}"
  | operandNotInteger o actual =>
      s!"Type error in {o.name} (operator requires integers): expected integers, got {actual.name}"
  | operandNotList f actual => s!"Type error in {f.name}: expected list, got {actual.name}"
  | emptyList f => s!"Empty list: {f.name} requires a non-empty list"
  | notCallable shown => s!"Not callable: {shown} is not a function"
  | bindingsNotList bindings =>
      s!"Malformed let: bindings must be a list, got {bindings.text}"
  | malformedBinding binding =>
      s!"Malformed let: binding {binding.text} must be a (name value) pair"
  | clausesNotList clauses => s!"Malformed cond: clauses must be a list, got {clauses.text}"
  | malformedClause clause =>
      s!"Malformed cond: clause {clause.text} must be a (test expression) pair"
  | divisionByZero => "Division by zero"
  | integerOverflow o => s!"Integer overflow in {o.name}"
  | stackOverflow limit => s!"Stack overflow: recursion depth exceeded {limit}"

end SmallLisp
