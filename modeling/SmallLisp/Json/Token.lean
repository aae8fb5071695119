import SmallLisp.Json
import SmallLisp.Text.Decimal
import SmallLisp.Text.Hex

namespace SmallLisp.Json

inductive Token where
  | openArray
  | closeArray
  | openObject
  | closeObject
  | comma
  | colon
  | scalar (v : Json)
  deriving Inhabited

def isSpace (c : Char) : Bool := c = ' ' || c = '\t' || c = '\n' || c = '\r'

def isDelimiter (c : Char) : Bool :=
  c = '[' || c = ']' || c = '\x7b' || c = '\x7d' || c = ',' || c = ':'

def delimiter (c : Char) : Token :=
  if c = '[' then .openArray
  else if c = ']' then .closeArray
  else if c = '\x7b' then .openObject
  else if c = '\x7d' then .closeObject
  else if c = ',' then .comma
  else .colon

def isDigits (cs : List Char) : Bool := !cs.isEmpty && cs.all Char.isDigit

def isPlainDigits : List Char → Bool
  | ['0'] => true
  | '0' :: _ => false
  | cs => isDigits cs

def isExponent : List Char → Bool
  | '+' :: cs | '-' :: cs => isDigits cs
  | cs => isDigits cs

def isFractional : List Char → Bool
  | '.' :: cs =>
      match cs.dropWhile Char.isDigit with
      | [] => isDigits cs
      | e :: rest => isDigits (cs.takeWhile Char.isDigit) && (e = 'e' || e = 'E') && isExponent rest
  | e :: rest => (e = 'e' || e = 'E') && isExponent rest
  | [] => false

/-- The value of a numeral without its sign. Negative zero is no integer. -/
def unsigned? (negative : Bool) (cs : List Char) : Option Json :=
  let whole := cs.takeWhile Char.isDigit
  let rest := cs.dropWhile Char.isDigit
  let numeral := if negative then '-' :: cs else cs
  if !isPlainDigits whole then none
  else if rest.isEmpty then
    let n : Int := Nat.ofDigitChars 10 whole 0
    some (if negative && n = 0 then decimal numeral else integer (if negative then -n else n))
  else if isFractional rest then some (decimal numeral)
  else none

/-- The value of a run of characters outside strings. -/
def bareValue? : List Char → Option Json
  | ['n', 'u', 'l', 'l'] => some null
  | ['t', 'r', 'u', 'e'] => some (boolean true)
  | ['f', 'a', 'l', 's', 'e'] => some (boolean false)
  | '-' :: cs => unsigned? true cs
  | cs => unsigned? false cs

def unescape? (c : Char) : Option Char :=
  if c = '"' || c = '\\' || c = '/' then some c
  else if c = 'b' then some (Char.ofNat 8)
  else if c = 'f' then some (Char.ofNat 12)
  else if c = 'n' then some '\n'
  else if c = 'r' then some '\r'
  else if c = 't' then some '\t'
  else none

/-- Where the cutting of a text stands. Characters of an unfinished token are kept latest first; a
code unit in a string is collected digit by digit, and a high surrogate waits for the low one. -/
inductive Cut where
  | gap
  | bare (latest : List Char)
  | string (latest : List Char) (high : Option Nat)
  | escape (latest : List Char) (high : Option Nat)
  | unit (latest : List Char) (high : Option Nat) (digits : List Char)

def addUnit (latest : List Char) (high : Option Nat) (n : Nat) : Option Cut :=
  match high with
  | some h =>
      if 0xDC00 ≤ n ∧ n < 0xE000 then
        some (.string (Char.ofNat (0x10000 + (h - 0xD800) * 0x400 + (n - 0xDC00)) :: latest) none)
      else none
  | none =>
      if 0xD800 ≤ n ∧ n < 0xDC00 then some (.string latest (some n))
      else (Hex.scalar? n).map (fun c => .string (c :: latest) none)

def Cut.step (s : Cut) (c : Char) : Option (Cut × List Token) :=
  let outside (before : List Token) : Option (Cut × List Token) :=
    if isSpace c then some (.gap, before)
    else if isDelimiter c then some (.gap, before ++ [delimiter c])
    else none
  match s with
  | gap =>
      (outside []).or
        (some (if c = '"' then (.string [] none, []) else (.bare [c], [])))
  | bare latest =>
      if isSpace c || isDelimiter c then do
        outside [.scalar (← bareValue? latest.reverse)]
      else if c = '"' then none
      else some (.bare (c :: latest), [])
  | string latest none =>
      if c = '"' then some (.gap, [.scalar (.string (String.ofList latest.reverse))])
      else if c = '\\' then some (.escape latest none, [])
      else if c.toNat < 32 then none
      else some (.string (c :: latest) none, [])
  | string latest (some h) => if c = '\\' then some (.escape latest (some h), []) else none
  | escape latest high =>
      if c = 'u' then some (.unit latest high [], [])
      else
        match high with
        | some _ => none
        | none => (unescape? c).map (fun c => (.string (c :: latest) none, []))
  | unit latest high digits =>
      let digits := digits ++ [c]
      if digits.length < 4 then
        if (Hex.digitValue? c).isSome then some (.unit latest high digits, []) else none
      else do
        let s ← addUnit latest high (← Hex.toNat? digits)
        return (s, [])

def Cut.finish : Cut → Option (List Token)
  | gap => some []
  | bare latest => (bareValue? latest.reverse).map (fun v => [.scalar v])
  | _ => none

def Cut.tokens? (s : Cut) : List Char → Option (List Token)
  | [] => s.finish
  | c :: cs =>
      match s.step c with
      | none => none
      | some (s, ts) => (s.tokens? cs).map (ts ++ ·)

end SmallLisp.Json
