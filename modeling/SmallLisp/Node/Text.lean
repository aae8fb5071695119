import SmallLisp.Integer
import SmallLisp.Node

namespace SmallLisp

def booleanChars (b : Bool) : List Char := if b then ['#', 't'] else ['#', 'f']

namespace Node

mutual

def chars : Node → List Char
  | boolean b => booleanChars b
  | integer n => Integer.chars n
  | symbol name => name.toList
  | list [symbol "quote", n] => '\'' :: chars n
  | list items => '(' :: (spaced items ++ [')'])

def spaced : List Node → List Char
  | [] => []
  | [n] => chars n
  | n :: ns => chars n ++ ' ' :: spaced ns

end

def text (n : Node) : String := String.ofList n.chars

end Node

end SmallLisp
