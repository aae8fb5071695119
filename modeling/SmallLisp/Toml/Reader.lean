import SmallLisp.Toml.Scalar

namespace SmallLisp.Toml

mutual

/-- The value that a text begins with. Arrays and inline tables may be nested `depth` deep. Every
step takes at least one character, so as many `steps` as there are characters are enough. -/
def value? (depth : Nat) : Nat → List Char → Option (Item × List Char)
  | 0, _ => none
  | steps + 1, cs =>
      match cs, depth with
      | '"' :: _, _ | '\'' :: _, _ => do
          let (s, cs) ← string? cs
          return (.string s, cs)
      | '[' :: cs, depth + 1 => do
          let (items, cs) ← items? depth steps (dropTrivia false cs)
          return (.array items, cs)
      | '\x7b' :: cs, depth + 1 =>
          match dropSpaces cs with
          | '\x7d' :: cs => some (.inlineTable [], cs)
          | cs => do
              let (es, cs) ← members? depth [] steps cs
              return (.inlineTable es, cs)
      | cs, _ => scalar? cs

def items? (depth : Nat) : Nat → List Char → Option (List Item × List Char)
  | 0, _ => none
  | steps + 1, cs =>
      match cs with
      | ']' :: cs => some ([], cs)
      | cs => do
          let (v, cs) ← value? depth steps cs
          match dropTrivia false cs with
          | ',' :: cs =>
              let (vs, cs) ← items? depth steps (dropTrivia false cs)
              return (v :: vs, cs)
          | ']' :: cs => return ([v], cs)
          | _ => none

def members? (depth : Nat) (es : Entries) : Nat → List Char → Option (Entries × List Char)
  | 0, _ => none
  | steps + 1, cs => do
      let ((path, key), cs) ← key? cs
      match cs with
      | '=' :: cs =>
          let (v, cs) ← value? depth steps (dropSpaces cs)
          let es ← Entries.assign path key v es
          match dropSpaces cs with
          | ',' :: cs => members? depth es steps cs
          | '\x7d' :: cs => return (es, cs)
          | _ => none
      | _ => none

end

def maxDepth : Nat := 79

def header? (close : List Char) (cs : List Char) : Option ((List String × String) × List Char) := do
  let (key, cs) ← key? cs
  if close.isPrefixOf cs then return (key, ← lineEnd? (cs.drop close.length)) else none

def assignment? (cs : List Char) : Option (Statement × List Char) := do
  let ((path, key), cs) ← key? cs
  match cs with
  | '=' :: cs =>
      let (v, cs) ← value? maxDepth (2 * cs.length + 2) (dropSpaces cs)
      return (.assign path key v, ← lineEnd? cs)
  | _ => none

/-- The statements of a document. Every one but the last takes at least a line end, so one step more
than there are characters is enough. -/
def statements? : Nat → List Char → Option (List Statement)
  | 0, _ => none
  | steps + 1, cs =>
      match dropSpaces cs with
      | [] => some []
      | '\n' :: cs => statements? steps cs
      | '\r' :: '\n' :: cs => statements? steps cs
      | '#' :: cs => do statements? steps (← lineEnd? ('#' :: cs))
      | '[' :: '[' :: cs => do
          let ((path, key), cs) ← header? [']', ']'] cs
          return .addTable path key :: (← statements? steps cs)
      | '[' :: cs => do
          let ((path, key), cs) ← header? [']'] cs
          return .openTable path key :: (← statements? steps cs)
      | cs => do
          let (s, cs) ← assignment? cs
          return s :: (← statements? steps cs)

def read? (source : String) : Option Entries := do
  let cs := match source.toList with
    | '\uFEFF' :: cs => cs
    | cs => cs
  Entries.ofStatements? (← statements? (cs.length + 1) cs)

end SmallLisp.Toml
