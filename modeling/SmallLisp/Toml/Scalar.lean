import SmallLisp.Integer
import SmallLisp.Text.Lines
import SmallLisp.Toml
import SmallLisp.Toml.Text

namespace SmallLisp.Toml

def isRunChar (c : Char) : Bool :=
  c.isAlphanum || c = '+' || c = '-' || c = '_' || c = '.' || c = ':'

def digits? (isDigit : Char → Bool) (cs : List Char) : Option (List Char) :=
  let groups := Text.pieces '_' cs
  if groups.all (fun g => !g.isEmpty && g.all isDigit) then some groups.flatten else none

def plainDigits? (cs : List Char) : Option (List Char) := do
  let ds ← digits? Char.isDigit cs
  if ds.head? = some '0' && ds.length ≠ 1 then none else return ds

def based? (base : Nat) (cs : List Char) : Option Int := do
  let isDigit (c : Char) : Bool :=
    match Hex.digitValue? c with
    | some d => d < base
    | none => false
  let ds ← digits? isDigit cs
  return ds.foldl (fun n c => base * n + (Hex.digitValue? c).getD 0) 0

def splitSign : List Char → Bool × List Char
  | '-' :: cs => (true, cs)
  | '+' :: cs => (false, cs)
  | cs => (false, cs)

def integer? (cs : List Char) : Option Int := do
  let n ← match cs with
    | '0' :: 'x' :: cs => based? 16 cs
    | '0' :: 'o' :: cs => based? 8 cs
    | '0' :: 'b' :: cs => based? 2 cs
    | cs => do
        let (negative, cs) := splitSign cs
        let n : Int := Nat.ofDigitChars 10 (← plainDigits? cs) 0
        pure (if negative then -n else n)
  if Integer.Fits n then return n else none

/-- The least integer that is closer to `2 ^ 1024` than to any finite double. -/
def doubleBound : Nat := Nat.pow 2 1024 - Nat.pow 2 970

def overflows (m : Nat) (e : Int) : Bool :=
  let length : Int := (Nat.toDigits 10 m).length + e
  if m = 0 || length < 309 then false
  else if 309 < length then true
  else if 0 ≤ e then doubleBound ≤ m * Nat.pow 10 e.toNat
  else doubleBound * Nat.pow 10 (-e).toNat ≤ m

def exponent? (cs : List Char) : Option Int := do
  let (negative, cs) := splitSign cs
  let n : Int := Nat.ofDigitChars 10 (← digits? Char.isDigit cs) 0
  return if negative then -n else n

/-- Whether a run of characters writes a floating-point number. A positive one must be finite. -/
def isFloat (cs : List Char) : Bool :=
  let (negative, cs) := splitSign cs
  if cs = ['i', 'n', 'f'] || cs = ['n', 'a', 'n'] then true
  else
    let isMark (c : Char) : Bool := c = 'e' || c = 'E'
    let mantissa := cs.takeWhile (!isMark ·)
    let exponent := match cs.dropWhile (!isMark ·) with
      | [] => some 0
      | _ :: cs => exponent? cs
    let whole := plainDigits? (mantissa.takeWhile (· ≠ '.'))
    let fraction := match mantissa.dropWhile (· ≠ '.') with
      | [] => some []
      | _ :: cs => digits? Char.isDigit cs
    match whole, fraction, exponent with
    | some w, some f, some e =>
        (cs.any isMark || cs.contains '.') &&
          (negative || !overflows (Nat.ofDigitChars 10 (w ++ f) 0) (e - f.length))
    | _, _, _ => false

def twoDigits (low high : Nat) (a b : Char) : Bool :=
  a.isDigit && b.isDigit &&
    (let n := Nat.ofDigitChars 10 [a, b] 0
     low ≤ n && n ≤ high)

def isLeapYear (year : Nat) : Bool :=
  year % 4 = 0 && (year % 100 ≠ 0 || year % 400 = 0)

def daysInMonth (year month : Nat) : Nat :=
  if month = 2 then (if isLeapYear year then 29 else 28)
  else if month = 4 || month = 6 || month = 9 || month = 11 then 30
  else 31

def isDate (cs : List Char) : Bool :=
  match cs with
  | [y₁, y₂, y₃, y₄, '-', m₁, m₂, '-', d₁, d₂] =>
      let year := Nat.ofDigitChars 10 [y₁, y₂, y₃, y₄] 0
      [y₁, y₂, y₃, y₄].all Char.isDigit && twoDigits 1 12 m₁ m₂ &&
        twoDigits 1 (daysInMonth year (Nat.ofDigitChars 10 [m₁, m₂] 0)) d₁ d₂
  | _ => false

def isOffset : List Char → Bool
  | [] | ['Z'] | ['z'] => true
  | [s, h₁, h₂, ':', m₁, m₂] =>
      (s = '+' || s = '-') && twoDigits 0 23 h₁ h₂ && twoDigits 0 59 m₁ m₂
  | _ => false

def isTime (rest : List Char → Bool) : List Char → Bool
  | h₁ :: h₂ :: ':' :: m₁ :: m₂ :: ':' :: s₁ :: s₂ :: cs =>
      twoDigits 0 23 h₁ h₂ && twoDigits 0 59 m₁ m₂ && twoDigits 0 60 s₁ s₂ &&
        (match cs with
        | '.' :: cs =>
            !(cs.takeWhile Char.isDigit).isEmpty && rest (cs.dropWhile Char.isDigit)
        | cs => rest cs)
  | _ => false

def isMoment (cs : List Char) : Bool :=
  isDate cs || isTime List.isEmpty cs ||
    (match cs.drop 10 with
    | t :: time => (t = 'T' || t = 't' || t = ' ') && isDate (cs.take 10) && isTime isOffset time
    | [] => false)

def scalarOfRun? (run : List Char) : Option Item :=
  if run = ['t', 'r', 'u', 'e'] then some (.boolean true)
  else if run = ['f', 'a', 'l', 's', 'e'] then some (.boolean false)
  else if isMoment run then some .moment
  else if isFloat run then some .float
  else (integer? run).map .integer

def takeRun (cs : List Char) : List Char × List Char :=
  let run := cs.takeWhile isRunChar
  match isDate run, cs.dropWhile isRunChar with
  | true, ' ' :: c :: rest =>
      if c.isDigit then
        (run ++ ' ' :: (c :: rest).takeWhile isRunChar, (c :: rest).dropWhile isRunChar)
      else (run, ' ' :: c :: rest)
  | _, rest => (run, rest)

def scalar? (cs : List Char) : Option (Item × List Char) := do
  let (run, rest) := takeRun cs
  return (← scalarOfRun? run, rest)

end SmallLisp.Toml
