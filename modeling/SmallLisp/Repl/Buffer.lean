import SmallLisp.Text.Blank
import SmallLisp.Text.Lines

namespace SmallLisp

def withoutComment (line : List Char) : List Char := line.takeWhile (· ≠ ';')

def parenBalance (source : String) : Int :=
  let cs := (Text.lines source.toList).flatMap withoutComment
  (cs.count '(' : Int) - (cs.count ')' : Int)

def isBlankText (s : String) : Bool := s.toList.all Text.isBlank

structure InputBuffer where
  pending : String := ""
  deriving DecidableEq, Inhabited

namespace InputBuffer

def isEmpty (b : InputBuffer) : Bool := b.pending.isEmpty

def joined (b : InputBuffer) (line : String) : String :=
  if b.isEmpty then line else b.pending ++ "\n" ++ line

/-- Takes a line. The text that has been collected is handed out as soon as no parenthesis is open,
unless it is blank. -/
def push (b : InputBuffer) (line : String) : Option String × InputBuffer :=
  let text := b.joined line
  if 0 < parenBalance text then (none, ⟨text⟩)
  else (if isBlankText text then none else some text, {})

def discard (_ : InputBuffer) : InputBuffer := {}

end InputBuffer

end SmallLisp
