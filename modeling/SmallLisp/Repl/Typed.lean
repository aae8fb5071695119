import SmallLisp.Text.Grapheme

namespace SmallLisp

def utf8Size (cs : List Char) : Nat := cs.foldr (fun c size => c.utf8Size + size) 0

def dropBytes : Nat → List Char → List Char
  | _, [] => []
  | size, c :: cs => if c.utf8Size ≤ size then dropBytes (size - c.utf8Size) cs else c :: cs

/-- What has been typed of a line: its characters, latest first, and the sizes of its graphemes,
latest first. A size is kept in one byte, so of a grapheme of 256 bytes or more a backspace takes back
the end alone. -/
structure TypedLine where
  latest : List Char := []
  sizes : List Nat := []

namespace TypedLine

def backspace (l : TypedLine) : TypedLine :=
  match l.sizes with
  | [] => l
  | size :: sizes => ⟨dropBytes size l.latest, sizes⟩

def add (l : TypedLine) (grapheme : List Char) : TypedLine :=
  if grapheme = ['\x08'] then l.backspace
  else ⟨grapheme.reverse ++ l.latest, utf8Size grapheme % 256 :: l.sizes⟩

end TypedLine

def eraseBackspaces (line : String) : String :=
  if '\x08' ∈ line.toList then
    String.ofList ((Text.graphemes line.toList).foldl TypedLine.add {}).latest.reverse
  else line

end SmallLisp
