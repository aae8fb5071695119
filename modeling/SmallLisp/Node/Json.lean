import SmallLisp.Integer
import SmallLisp.Json
import SmallLisp.Node

namespace SmallLisp.Node

mutual

def toJson : Node → Json
  | boolean b => .object [("boolean", .boolean b)]
  | integer n => .object [("integer", .integer n.toInt)]
  | symbol name => .object [("symbol", .string name)]
  | list items => .object [("list", .array (toJsonList items))]

def toJsonList : List Node → List Json
  | [] => []
  | n :: ns => toJson n :: toJsonList ns

end

mutual

/-- The node that a JSON value stands for: nothing may be missing, left over or out of range. -/
def ofJson? : Json → Option Node
  | .object [("boolean", .boolean b)] => some (boolean b)
  | .object [("integer", .integer n)] => (Integer.ofInt? n).map integer
  | .object [("symbol", .string name)] => some (symbol name)
  | .object [("list", .array items)] => (ofJsonList? items).map list
  | _ => none

def ofJsonList? : List Json → Option (List Node)
  | [] => some []
  | v :: vs => do
      let n ← ofJson? v
      let ns ← ofJsonList? vs
      return n :: ns

end

end SmallLisp.Node
