import SmallLisp.Json
import SmallLisp.Text.Decimal

namespace SmallLisp.Json

def escape (c : Char) : List Char :=
  if c = '"' then ['\\', '"']
  else if c = '\\' then ['\\', '\\']
  else if c = '\n' then ['\\', 'n']
  else if c = '\r' then ['\\', 'r']
  else if c = '\t' then ['\\', 't']
  else if c.toNat = 8 then ['\\', 'b']
  else if c.toNat = 12 then ['\\', 'f']
  else if c.toNat < 32 then
    ['\\', 'u', '0', '0', (c.toNat / 16).digitChar, (c.toNat % 16).digitChar]
  else [c]

def quoteOnto (s : String) (rest : List Char) : List Char :=
  '"' :: (s.toList.flatMap escape ++ '"' :: rest)

def scalarOnto (v : Json) (rest : List Char) : List Char :=
  match v with
  | boolean true => 't' :: 'r' :: 'u' :: 'e' :: rest
  | boolean false => 'f' :: 'a' :: 'l' :: 's' :: 'e' :: rest
  | integer n => Decimal.ofInt n ++ rest
  | decimal numeral => numeral ++ rest
  | string s => quoteOnto s rest
  | _ => 'n' :: 'u' :: 'l' :: 'l' :: rest

mutual

def compactOnto : Json → List Char → List Char
  | array items, rest => '[' :: compactItems items (']' :: rest)
  | object members, rest => '\x7b' :: compactMembers members ('\x7d' :: rest)
  | v, rest => scalarOnto v rest

def compactItems : List Json → List Char → List Char
  | [], rest => rest
  | [v], rest => compactOnto v rest
  | v :: vs, rest => compactOnto v (',' :: compactItems vs rest)

def compactMembers : List (String × Json) → List Char → List Char
  | [], rest => rest
  | [(k, v)], rest => quoteOnto k (':' :: compactOnto v rest)
  | (k, v) :: ms, rest => quoteOnto k (':' :: compactOnto v (',' :: compactMembers ms rest))

end

def newlineOnto (level : Nat) (rest : List Char) : List Char :=
  '\n' :: (List.replicate (2 * level) ' ' ++ rest)

mutual

def prettyOnto (level : Nat) : Json → List Char → List Char
  | array [], rest => '[' :: ']' :: rest
  | array items, rest => '[' :: prettyItems (level + 1) items (newlineOnto level (']' :: rest))
  | object [], rest => '\x7b' :: '\x7d' :: rest
  | object members, rest =>
      '\x7b' :: prettyMembers (level + 1) members (newlineOnto level ('\x7d' :: rest))
  | v, rest => scalarOnto v rest

def prettyItems (level : Nat) : List Json → List Char → List Char
  | [], rest => rest
  | [v], rest => newlineOnto level (prettyOnto level v rest)
  | v :: vs, rest => newlineOnto level (prettyOnto level v (',' :: prettyItems level vs rest))

def prettyMembers (level : Nat) : List (String × Json) → List Char → List Char
  | [], rest => rest
  | [(k, v)], rest => newlineOnto level (quoteOnto k (':' :: ' ' :: prettyOnto level v rest))
  | (k, v) :: ms, rest =>
      newlineOnto level
        (quoteOnto k (':' :: ' ' :: prettyOnto level v (',' :: prettyMembers level ms rest)))

end

def text (v : Json) : String := String.ofList (v.compactOnto [])

def prettyText (v : Json) : String := String.ofList (v.prettyOnto 0 [])

end SmallLisp.Json
