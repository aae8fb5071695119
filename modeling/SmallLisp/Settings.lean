import SmallLisp.Input
import SmallLisp.Toml.Reader

namespace SmallLisp

structure Settings where
  maxRecursionDepth : Nat := 512
  loadPrelude : Bool := true
  preludePath : Option String := none
  prompt : String := "→  "
  historyFile : Option String := none
  deriving DecidableEq, Inhabited

inductive SettingsError where
  | unreadable (path : String) (cause : FileError)
  | malformed
  | noRecursion
  deriving DecidableEq

def SettingsError.message : SettingsError → String
  | unreadable path cause => s!"Failed to read config file '{path}': {cause.message}"
  | malformed => "Failed to parse config: not a TOML document of settings"
  | noRecursion => "Invalid config: max_recursion_depth must be at least 1"

def SettingsError.cause? : SettingsError → Option FileError
  | unreadable _ cause => some cause
  | _ => none

namespace Settings

def bare : Settings := { loadPrelude := false }

/-- Settings under which a program can call functions at all. -/
def validate (s : Settings) : Except SettingsError Settings :=
  if s.maxRecursionDepth = 0 then .error .noRecursion else .ok s

def field {α : Type} (es : Toml.Entries) (key : String) (other : α)
    (ofItem? : Toml.Item → Option α) : Option α :=
  match es.lookup key with
  | none => some other
  | some v => ofItem? v

def depthOf? : Toml.Item → Option Nat
  | .integer n => if 0 ≤ n then some n.toNat else none
  | _ => none

def booleanOf? : Toml.Item → Option Bool
  | .boolean b => some b
  | _ => none

def stringOf? : Toml.Item → Option String
  | .string s => some s
  | _ => none

def ofEntries? (es : Toml.Entries) : Option Settings := do
  let d : Settings := {}
  return {
    maxRecursionDepth := ← field es "max_recursion_depth" d.maxRecursionDepth depthOf?
    loadPrelude := ← field es "load_prelude" d.loadPrelude booleanOf?
    preludePath := ← field es "prelude_path" none (fun v => (stringOf? v).map some)
    prompt := ← field es "prompt" d.prompt stringOf?
    historyFile := ← field es "history_file" none (fun v => (stringOf? v).map some) }

def ofToml (source : String) : Except SettingsError Settings :=
  match (Toml.read? source).bind ofEntries? with
  | some s => s.validate
  | none => .error .malformed

def fromFile {m : Type → Type} [Monad m] (host : Host m) (path : String) :
    m (Except SettingsError Settings) := do
  match ← host.fileText path with
  | .ok source => return ofToml source
  | .error cause => return .error (.unreadable path cause)

end Settings

end SmallLisp
