import SmallLisp.Integer
import SmallLisp.Node
import SmallLisp.Reader.Error

namespace SmallLisp

inductive Form where
  | atom (chars : List Char)
  | list (items : List Form)
  | quoted (form : Form)
  deriving Inhabited

namespace Form

def atomNode (cs : List Char) : Except ReadError Node :=
  if cs = ['#', 't'] then .ok (.boolean true)
  else if cs = ['#', 'f'] then .ok (.boolean false)
  else
    match Decimal.toInt? cs with
    | none => .ok (.symbol (String.ofList cs))
    | some n =>
        match Integer.ofInt? n with
        | some w => .ok (.integer w)
        | none =>
            .error (if n < 0 then .integerTooSmall (String.ofList cs)
              else .integerTooLarge (String.ofList cs))

mutual

def node : Form → Except ReadError Node
  | atom cs => atomNode cs
  | list items => do return .list (← nodes items)
  | quoted f => do return (← node f).quoted

def nodes : List Form → Except ReadError (List Node)
  | [] => .ok []
  | f :: fs => do
      let n ← node f
      let ns ← nodes fs
      return n :: ns

end

end Form

end SmallLisp
