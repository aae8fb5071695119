namespace SmallLisp

inductive Json where
  | null
  | boolean (b : Bool)
  | integer (n : Int)
  | decimal (numeral : List Char)
  | string (s : String)
  | array (items : List Json)
  | object (members : List (String × Json))
  deriving Inhabited

namespace Json

/-- The value of a key; of members with one key the last counts. -/
def get? (v : Json) (key : String) : Option Json :=
  match v with
  | object members => (members.reverse.find? (·.1 = key)).map (·.2)
  | _ => none

end Json

end SmallLisp
