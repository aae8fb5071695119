import SmallLisp.Reader.Form

namespace SmallLisp

def isSeparator (c : Char) : Bool := c = ' ' || c = '\t' || c = '\r' || c = '\n'

def isAtomChar (c : Char) : Bool :=
  !(isSeparator c || c = '(' || c = ')' || c = '\'' || c = ';')

/-- Where a scan stands: between atoms, in a comment, or in an atom with its characters latest
first. -/
inductive Mode where
  | gap
  | comment
  | atom (latest : List Char)

/-- Something begun and not finished. An open list keeps the forms in front of it, latest first. -/
inductive Opening where
  | quote
  | list (before : List Form)

/-- A text read up to `position`. The forms are those of the innermost open list, or of the text
itself when none is open, latest first. -/
structure Scan where
  position : Position := {}
  mode : Mode := .gap
  openings : List Opening := []
  forms : List Form := []

namespace Scan

/-- Adds a finished form, as the operand of the quotes that wait for it. -/
def deliver : List Opening → List Form → Form → List Opening × List Form
  | .quote :: os, fs, f => deliver os fs (.quoted f)
  | os, fs, f => (os, f :: fs)

def add (s : Scan) (f : Form) : Scan :=
  let (os, fs) := deliver s.openings s.forms f
  { s with mode := .gap, openings := os, forms := fs }

def endAtom (s : Scan) : Scan :=
  match s.mode with
  | .atom latest => s.add (.atom latest.reverse)
  | _ => s

def openList (s : Scan) : Scan :=
  { s with openings := .list s.forms :: s.openings, forms := [] }

def openQuote (s : Scan) : Scan := { s with openings := .quote :: s.openings }

def closeList (s : Scan) : Except ReadError Scan :=
  match s.openings with
  | .list before :: os =>
      .ok ({ s with openings := os, forms := before }.add (.list s.forms.reverse))
  | .quote :: _ => .error (.unexpected s.position .form)
  | [] => .error (.unexpected s.position (if s.position = {} then .program else .formOrEnd))

def read (s : Scan) (c : Char) : Except ReadError Scan :=
  if isSeparator c then .ok s.endAtom
  else if c = ';' then .ok { s.endAtom with mode := .comment }
  else if c = '(' then .ok s.endAtom.openList
  else if c = ')' then s.endAtom.closeList
  else if c = '\'' then .ok s.endAtom.openQuote
  else
    match s.mode with
    | .atom latest => .ok { s with mode := .atom (c :: latest) }
    | _ => .ok { s with mode := .atom [c] }

def step (s : Scan) (c : Char) : Except ReadError Scan := do
  let t ← match s.mode with
    | .comment => .ok (if c = '\n' then { s with mode := .gap } else s)
    | _ => s.read c
  return { t with position := s.position.next c }

def finish (s : Scan) : Except ReadError (List Form) :=
  let s := s.endAtom
  if s.openings.isEmpty then .ok s.forms.reverse else .error (.unexpected s.position .form)

end Scan

def Scan.run (s : Scan) (cs : List Char) : Except ReadError Scan := cs.foldlM step s

end SmallLisp
