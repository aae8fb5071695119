import SmallLisp.Input
import SmallLisp.Text.Decimal

namespace SmallLisp

inductive Switch where
  | input
  | string
  | file
  | config
  | noPrelude
  | maxRecursionDepth
  | dumpAst
  | verbose
  | help
  deriving DecidableEq

namespace Switch

def all : List Switch :=
  [input, string, file, config, noPrelude, maxRecursionDepth, dumpAst, verbose, help]

def longName : Switch → String
  | input => "input"
  | string => "string"
  | file => "file"
  | config => "config"
  | noPrelude => "no-prelude"
  | maxRecursionDepth => "max-recursion-depth"
  | dumpAst => "dump-ast"
  | verbose => "verbose"
  | help => "help"

def letter? : Switch → Option Char
  | input => some 'i'
  | string => some 's'
  | file => some 'f'
  | config => some 'c'
  | verbose => some 'v'
  | help => some 'h'
  | _ => none

def takesValue : Switch → Bool
  | input | string | file | config | maxRecursionDepth => true
  | _ => false

def ofLongName? (name : String) : Option Switch := all.find? (·.longName = name)

def ofLetter? (c : Char) : Option Switch := all.find? (·.letter? = some c)

end Switch

inductive Usage where
  | flag (s : Switch)
  | valued (s : Switch) (v : String)
  | misuse

namespace Usage

/-- The uses in letters behind one dash, and the option that still needs a value. What follows the
letter of an option that takes a value is that value, perhaps behind an equals sign. -/
def ofLetters : List Char → List Usage × Option Switch
  | [] => ([], none)
  | c :: cs =>
      match Switch.ofLetter? c with
      | none => ([misuse], none)
      | some s =>
          if s.takesValue then
            match cs with
            | [] => ([], some s)
            | '=' :: v => ([valued s (String.ofList v)], none)
            | v => ([valued s (String.ofList v)], none)
          else
            let (us, needing) := ofLetters cs
            (flag s :: us, needing)

def ofLong (cs : List Char) : List Usage × Option Switch :=
  let v := cs.dropWhile (· ≠ '=')
  match Switch.ofLongName? (String.ofList (cs.takeWhile (· ≠ '='))) with
  | none => ([misuse], none)
  | some s =>
      match s.takesValue, v with
      | true, [] => ([], some s)
      | true, _ :: v => ([valued s (String.ofList v)], none)
      | false, [] => ([flag s], none)
      | false, _ :: _ => ([misuse], none)

def isValue (arg : String) : Bool := arg = "-" || arg.toList.head? ≠ some '-'

/-- The uses in a command line, from left to right. Two dashes end the options. -/
def ofArguments : List String → List Usage
  | [] => []
  | arg :: rest =>
      let (us, needing) := match arg.toList with
        | '-' :: '-' :: cs => if cs.isEmpty then ([], none) else ofLong cs
        | '-' :: c :: cs => ofLetters (c :: cs)
        | _ => ([misuse], none)
      match needing with
      | none =>
          if arg = "--" then (if rest.isEmpty then [] else [misuse]) else us ++ ofArguments rest
      | some s =>
          match rest with
          | [] => us ++ [misuse]
          | v :: rest =>
              us ++ (if isValue v then valued s v :: ofArguments rest else [misuse])

end Usage

structure Options where
  given : List Switch := []
  input : InputSource := .interactive
  string : Option String := none
  file : Option String := none
  config : Option String := none
  noPrelude : Bool := false
  maxRecursionDepth : Option Nat := none
  dumpAst : Bool := false
  verbose : Bool := false

inductive Refusal where
  | misuse
  | helpWanted
  deriving DecidableEq

namespace Options

def depth? (v : String) : Option Nat := do
  let n ← match v.toList with
    | '+' :: cs => Decimal.toNat? cs
    | cs => Decimal.toNat? cs
  if n < UInt64.size then return n else none

def path? (v : String) : Option String := if v.isEmpty then none else some v

def setFlag (o : Options) : Switch → Except Refusal Options
  | .noPrelude => .ok { o with noPrelude := true }
  | .dumpAst => .ok { o with dumpAst := true }
  | .verbose => .ok { o with verbose := true }
  | .help => .error .helpWanted
  | _ => .error .misuse

def setValue? (o : Options) (v : String) : Switch → Option Options
  | .input => (InputSource.ofName? v).map (fun s => { o with input := s })
  | .string => some { o with string := some v }
  | .file => (path? v).map (fun p => { o with file := some p })
  | .config => (path? v).map (fun p => { o with config := some p })
  | .maxRecursionDepth => (depth? v).map (fun n => { o with maxRecursionDepth := some n })
  | _ => none

def give (o : Options) (s : Switch) : Except Refusal Options :=
  if s ∈ o.given then .error .misuse else .ok { o with given := s :: o.given }

def add (o : Options) : Usage → Except Refusal Options
  | .flag s => do (← o.give s).setFlag s
  | .valued s v => do
      match (← o.give s).setValue? v s with
      | some o => return o
      | none => throw .misuse
  | .misuse => .error .misuse

def ofArguments (args : List String) : Except Refusal Options :=
  (Usage.ofArguments args).foldlM add {}

end Options

end SmallLisp
