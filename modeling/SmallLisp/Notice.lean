import SmallLisp.Keyword
import SmallLisp.Kind

namespace SmallLisp

inductive Level where
  | debug
  | info
  | warn
  deriving DecidableEq

/-- The names of the levels, padded to one length. -/
def Level.name : Level → String
  | debug => "DEBUG"
  | info => " INFO"
  | warn => " WARN"

/-- What the log is told on the way of a run. That a node is evaluated is not told. -/
inductive Notice where
  | settingsLoaded (path : String)
  | readingFile (path : String)
  | preludeDisabled
  | loadingPrelude (source : String)
  | preludeLoaded (definitions : Nat)
  | shadowsKeyword (name : String)
  | defining (name : String) (kind : Kind)
  | applying (arity depth : Nat)
  deriving DecidableEq

namespace Notice

def level : Notice → Level
  | preludeDisabled | shadowsKeyword _ => .warn
  | settingsLoaded _ => .info
  | _ => .debug

def target : Notice → String
  | settingsLoaded _ => "diylisp_repl"
  | readingFile _ => "diylisp::input_handling"
  | preludeDisabled | loadingPrelude _ | preludeLoaded _ => "diylisp::interpreter"
  | shadowsKeyword _ | defining _ _ | applying _ _ => "diylisp::runtime::evaluator"

def text : Notice → String
  | settingsLoaded path => s!"Loaded interpreter configuration from: {path}"
  | readingFile path => s!"reading program file path={path}"
  | preludeDisabled => "prelude disabled; only the core special forms are available"
  | loadingPrelude source => s!"loading prelude source={source}"
  | preludeLoaded definitions => s!"prelude loaded definitions={definitions}"
  | shadowsKeyword name =>
      s!"binding shadows a keyword; calls still dispatch to the keyword name={name}"
  | defining name kind => s!"define name={name} kind=\"{kind.name}\""
  | applying arity depth => s!"apply closure arity={arity} depth={depth}"

def line (n : Notice) : String := s!"{n.level.name} {n.target}: {n.text}\n"

/-- What a definition of a name tells: a warning if calls by the name go to a reserved word. -/
def ofDefinition (name : String) (kind : Kind) : List Notice :=
  (if Keyword.isReserved name then [shadowsKeyword name] else []) ++ [defining name kind]

end Notice

end SmallLisp
