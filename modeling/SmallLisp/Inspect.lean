import SmallLisp.Store
import SmallLisp.Text.Quoted

namespace SmallLisp

def commaSeparated (parts : List String) : String := ", ".intercalate parts

def inspectSymbol (name : String) : String := s!"Symbol({Text.quoted name})"

mutual

def Node.inspect : Node → String
  | .boolean b => if b then "Boolean(true)" else "Boolean(false)"
  | .integer n => s!"Integer({String.ofList (Integer.chars n)})"
  | .symbol name => s!"Symbol({inspectSymbol name})"
  | .list items => s!"List([{commaSeparated (Node.inspectAll items)}])"

def Node.inspectAll : List Node → List String
  | [] => []
  | n :: ns => Node.inspect n :: Node.inspectAll ns

end

/-- The scope is left out, since it usually holds the closure itself. -/
def Closure.inspect (c : Closure) : String :=
  let params := commaSeparated (c.params.map inspectSymbol)
  s!"Closure(Closure \x7b params: [{params}], body: {c.body.inspect}, .. \x7d)"

def Store.inspect (s : Store) (env : FrameId) : String :=
  let names := commaSeparated ((s.ownNames env).map Text.quoted)
  s!"Environment \x7b bindings: [{names}], depth: {s.depth env} \x7d"

end SmallLisp
