import SmallLisp.Reader.Scan

namespace SmallLisp

def readForms (source : String) : Except ReadError (List Form) := do
  (← Scan.run {} source.toList).finish

/-- The nodes of a text. Nesting is settled for the whole text before any atom has a meaning. -/
def readAll (source : String) : Except ReadError (List Node) := do
  Form.nodes (← readForms source)

def readOne (source : String) : Except ReadError Node := do
  match ← readAll source with
  | [] => throw .empty
  | [n] => return n
  | _ :: rest => throw (.trailing rest.length)

end SmallLisp
