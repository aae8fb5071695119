namespace SmallLisp

/-- A place in a text; lines end at a line feed and columns count characters, both from one. -/
structure Position where
  line : Nat := 1
  column : Nat := 1
  deriving DecidableEq, Inhabited

def Position.next (p : Position) (c : Char) : Position :=
  if c = '\n' then ⟨p.line + 1, 1⟩ else ⟨p.line, p.column + 1⟩

inductive Expectation where
  | program
  | formOrEnd
  | form
  deriving DecidableEq

def Expectation.message : Expectation → String
  | program => "expected program"
  | formOrEnd => "expected EOI, quoted, list, boolean, integer, or symbol"
  | form => "expected quoted, list, boolean, integer, or symbol"

inductive ReadError where
  | unexpected (position : Position) (expected : Expectation)
  | integerTooLarge (token : String)
  | integerTooSmall (token : String)
  | empty
  | trailing (extra : Nat)
  deriving DecidableEq

def ReadError.message : ReadError → String
  | unexpected p e => s!"Syntax error at line {p.line}, column {p.column}: {e.message}"
  | integerTooLarge t => s!"Invalid integer literal '{t}': number too large to fit in target type"
  | integerTooSmall t => s!"Invalid integer literal '{t}': number too small to fit in target type"
  | empty => "Empty input: expected an expression"
  | trailing n => s!"Expected a single expression, found {n} more after it"

end SmallLisp
