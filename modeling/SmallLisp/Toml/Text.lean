import SmallLisp.Text.Hex

namespace SmallLisp.Toml

def isSpace (c : Char) : Bool := c = ' ' || c = '\t'

def isPlain (c : Char) : Bool := c = '\t' || (32 ≤ c.toNat && c.toNat ≠ 127)

def dropSpaces (cs : List Char) : List Char := cs.dropWhile isSpace

def dropNewline : List Char → List Char
  | '\n' :: cs => cs
  | '\r' :: '\n' :: cs => cs
  | cs => cs

def dropTrivia (comment : Bool) : List Char → List Char
  | '\n' :: cs => dropTrivia false cs
  | '\r' :: '\n' :: cs => dropTrivia false cs
  | c :: cs =>
      if comment then (if isPlain c then dropTrivia true cs else c :: cs)
      else if isSpace c then dropTrivia false cs
      else if c = '#' then dropTrivia true cs
      else c :: cs
  | [] => []

def lineEnd? (cs : List Char) : Option (List Char) :=
  let cs := match dropSpaces cs with
    | '#' :: cs => cs.dropWhile isPlain
    | cs => cs
  match cs with
  | [] => some []
  | '\n' :: cs => some cs
  | '\r' :: '\n' :: cs => some cs
  | _ => none

def unescape? (c : Char) : Option Char :=
  if c = 'b' then some '\x08'
  else if c = 't' then some '\t'
  else if c = 'n' then some '\n'
  else if c = 'f' then some '\x0c'
  else if c = 'r' then some '\r'
  else if c = '"' || c = '\\' then some c
  else none

def codePoint? (digits : List Char) : Option Char := do Hex.scalar? (← Hex.toNat? digits)

def withFirst (first : List Char) (r : Option (List Char × List Char)) : Option (List Char × List Char) :=
  r.map (fun (cs, rest) => (first ++ cs, rest))

/-- The rest of a string between double quotes, on one line or on several. After a backslash at the
end of a line white space is skipped: `skip` says whether that goes on, and whether a line end has
been met. -/
def basicString (multi : Bool) (skip : Option Bool) : List Char → Option (List Char × List Char)
  | [] => none
  | '\r' :: '\n' :: cs =>
      if !multi then none
      else
        match skip with
        | some _ => basicString multi (some true) cs
        | none => withFirst ['\n'] (basicString multi none cs)
  | '\n' :: cs =>
      if !multi then none
      else
        match skip with
        | some _ => basicString multi (some true) cs
        | none => withFirst ['\n'] (basicString multi none cs)
  | c :: cs =>
      if skip.isSome && isSpace c then basicString multi skip cs
      else if skip = some false then none
      else if c = '"' then
        if !multi then some ([], cs)
        else
          match cs with
          | '"' :: '"' :: '"' :: '"' :: cs => some (['"', '"'], cs)
          | '"' :: '"' :: '"' :: cs => some (['"'], cs)
          | '"' :: '"' :: cs => some ([], cs)
          | cs => withFirst ['"'] (basicString multi none cs)
      else if c = '\\' then
        match cs with
        | 'u' :: a :: b :: c :: d :: cs =>
            match codePoint? [a, b, c, d] with
            | some e => withFirst [e] (basicString multi none cs)
            | none => none
        | 'U' :: a :: b :: c :: d :: e :: f :: g :: h :: cs =>
            match codePoint? [a, b, c, d, e, f, g, h] with
            | some e => withFirst [e] (basicString multi none cs)
            | none => none
        | '\r' :: '\n' :: cs => if multi then basicString multi (some true) cs else none
        | c :: cs =>
            match unescape? c with
            | some e => withFirst [e] (basicString multi none cs)
            | none =>
                if multi && c = '\n' then basicString multi (some true) cs
                else if multi && isSpace c then basicString multi (some false) cs
                else none
        | [] => none
      else if isPlain c then withFirst [c] (basicString multi none cs)
      else none

def literalString (multi : Bool) : List Char → Option (List Char × List Char)
  | [] => none
  | '\r' :: '\n' :: cs => if multi then withFirst ['\n'] (literalString multi cs) else none
  | '\n' :: cs => if multi then withFirst ['\n'] (literalString multi cs) else none
  | c :: cs =>
      if c = '\'' then
        if !multi then some ([], cs)
        else
          match cs with
          | '\'' :: '\'' :: '\'' :: '\'' :: cs => some (['\'', '\''], cs)
          | '\'' :: '\'' :: '\'' :: cs => some (['\''], cs)
          | '\'' :: '\'' :: cs => some ([], cs)
          | cs => withFirst ['\''] (literalString multi cs)
      else if isPlain c then withFirst [c] (literalString multi cs)
      else none

def string? (cs : List Char) : Option (String × List Char) :=
  let body := match cs with
    | '"' :: '"' :: '"' :: cs => basicString true none (dropNewline cs)
    | '"' :: cs => basicString false none cs
    | '\'' :: '\'' :: '\'' :: cs => literalString true (dropNewline cs)
    | '\'' :: cs => literalString false cs
    | _ => none
  body.map (fun (s, rest) => (String.ofList s, rest))

def isKeyChar (c : Char) : Bool := c.isAlphanum || c = '_' || c = '-'

def simpleKey? (cs : List Char) : Option (String × List Char) :=
  match cs with
  | '"' :: cs => (basicString false none cs).map (fun (s, rest) => (String.ofList s, rest))
  | '\'' :: cs => (literalString false cs).map (fun (s, rest) => (String.ofList s, rest))
  | cs =>
      let name := cs.takeWhile isKeyChar
      if name.isEmpty then none else some (String.ofList name, cs.dropWhile isKeyChar)

def keyNames? : Nat → List Char → Option (List String × List Char)
  | 0, _ => none
  | names + 1, cs => do
      let (name, cs) ← simpleKey? (dropSpaces cs)
      match dropSpaces cs with
      | '.' :: cs =>
          let (more, cs) ← keyNames? names cs
          return (name :: more, cs)
      | cs => return ([name], cs)

/-- A key: the path to a table and a name in it. Keys have fewer than 80 names. -/
def key? (cs : List Char) : Option ((List String × String) × List Char) := do
  let (names, cs) ← keyNames? 79 cs
  return ((names.dropLast, ← names.getLast?), cs)

end SmallLisp.Toml
