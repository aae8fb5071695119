import SmallLisp.Node.Text
import SmallLisp.Value

namespace SmallLisp

def closureText (arity : Nat) : String := s!"<closure/{arity}>"

namespace Value

mutual

def chars : Value → List Char
  | boolean b => booleanChars b
  | integer n => Integer.chars n
  | symbol name => name.toList
  | list [symbol "quote", v] => '\'' :: chars v
  | list items => '(' :: (spaced items ++ [')'])
  | closure c => (closureText c.arity).toList

def spaced : List Value → List Char
  | [] => []
  | [v] => chars v
  | v :: vs => chars v ++ ' ' :: spaced vs

end

def text (v : Value) : String := String.ofList v.chars

end Value

end SmallLisp
