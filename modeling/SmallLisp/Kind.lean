namespace SmallLisp

inductive Kind where
  | boolean
  | integer
  | symbol
  | list
  | closure
  deriving DecidableEq, Inhabited

def Kind.name : Kind → String
  | boolean => "boolean"
  | integer => "integer"
  | symbol => "symbol"
  | list => "list"
  | closure => "closure"

end SmallLisp
