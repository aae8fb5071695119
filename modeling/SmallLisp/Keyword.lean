namespace SmallLisp

inductive SpecialForm where
  | quote
  | atom
  | eq
  | ifElse
  | define
  | lambda
  | cons
  | head
  | tail
  | empty
  | letIn
  | defn
  | cond
  deriving DecidableEq, Inhabited

namespace SpecialForm

def all : List SpecialForm :=
  [quote, atom, eq, ifElse, define, lambda, cons, head, tail, empty, letIn, defn, cond]

def name : SpecialForm → String
  | quote => "quote"
  | atom => "atom"
  | eq => "eq"
  | ifElse => "if"
  | define => "define"
  | lambda => "lambda"
  | cons => "cons"
  | head => "head"
  | tail => "tail"
  | empty => "empty"
  | letIn => "let"
  | defn => "defn"
  | cond => "cond"

def operands : SpecialForm → Nat
  | quote | atom | head | tail | empty | cond => 1
  | eq | define | lambda | cons | letIn => 2
  | ifElse | defn => 3

end SpecialForm

inductive Operator where
  | add
  | sub
  | mul
  | div
  | mod
  | greater
  | less
  | equal
  deriving DecidableEq, Inhabited

namespace Operator

def all : List Operator := [add, sub, mul, div, mod, greater, less, equal]

def name : Operator → String
  | add => "+"
  | sub => "-"
  | mul => "*"
  | div => "/"
  | mod => "mod"
  | greater => ">"
  | less => "<"
  | equal => "="

end Operator

inductive Keyword where
  | form (f : SpecialForm)
  | operator (o : Operator)
  deriving DecidableEq, Inhabited

namespace Keyword

def all : List Keyword := SpecialForm.all.map form ++ Operator.all.map operator

def name : Keyword → String
  | form f => f.name
  | operator o => o.name

def operands : Keyword → Nat
  | form f => f.operands
  | operator _ => 2

def ofName? (name : String) : Option Keyword := all.find? (·.name = name)

def isReserved (name : String) : Bool := (ofName? name).isSome

end Keyword

end SmallLisp
