import SmallLisp.Input
import SmallLisp.Logged
import SmallLisp.Prelude
import SmallLisp.Reader
import SmallLisp.Settings

namespace SmallLisp

inductive SessionError where
  | read (e : ReadError)
  | fault (e : Fault)
  | input (e : InputError)
  | prelude (source reason : String)
  deriving DecidableEq

def SessionError.message : SessionError → String
  | read e => s!"Parse error: {e.message}"
  | fault e => s!"Runtime error: {e.message}"
  | input e => s!"Input error: {e.message}"
  | prelude source reason => s!"Failed to load prelude from {source}: {reason}"

def SessionError.causes : SessionError → List String
  | read e => [e.message]
  | fault e => [e.message]
  | input e => e.message :: (e.cause?.map FileError.message).toList
  | prelude _ _ => []

structure Session where
  settings : Settings
  store : Store

namespace Session

def root : FrameId := 0

def blank (settings : Settings) : Session := ⟨settings, (Store.newRoot {}).2⟩

def bare : Session := blank .bare

def perform {α : Type} : Session → Run Store α → Except Fault α × Session
  | ⟨settings, store⟩, r =>
      match r store with
      | .ok a store => (.ok a, ⟨settings, store⟩)
      | .error e store => (.error e, ⟨settings, store⟩)

def evaluate (s : Session) (n : Node) : Except Fault Value × Session :=
  s.perform (SmallLisp.evaluate s.settings.maxRecursionDepth root n)

/-- Evaluates nodes in order up to the first that fails. The result is the value of the last, or
`last` if there is none. -/
def evaluateAll (s : Session) (last : Option Value) :
    List Node → Except Fault (Option Value) × Session
  | [] => (.ok last, s)
  | n :: ns =>
      match s.evaluate n with
      | (.ok v, s) => s.evaluateAll (some v) ns
      | (.error e, s) => (.error e, s)

def interpretNodes (s : Session) (ns : List Node) : Except SessionError Value × Session :=
  match s.evaluateAll none ns with
  | (.ok (some v), s) => (.ok v, s)
  | (.ok none, s) => (.error (.read .empty), s)
  | (.error e, s) => (.error (.fault e), s)

/-- Runs a program: nothing is evaluated unless the whole text can be read. -/
def interpret (s : Session) (source : String) : Except SessionError Value × Session :=
  match readAll source with
  | .ok ns => s.interpretNodes ns
  | .error e => (.error (.read e), s)

def load (s : Session) (text : SourceText) : Except SessionError Session :=
  match readAll text.content with
  | .error e => .error (.prelude text.name e.message)
  | .ok ns =>
      match s.evaluateAll none ns with
      | (.ok _, s) => .ok s
      | (.error e, _) => .error (.prelude text.name e.message)

def names (s : Session) : List String := s.store.names root

/-- What a run on the store of a session comes to, with the session after it and the log. -/
def observe {α : Type} : Session → Run Logged α → (Except Fault α × Session) × List Notice
  | ⟨settings, store⟩, r =>
      match r { store } with
      | .ok a l => ((.ok a, ⟨settings, l.store⟩), l.notices.toList)
      | .error e l => ((.error e, ⟨settings, l.store⟩), l.notices.toList)

def evaluateAllLogged (s : Session) (ns : List Node) :
    (Except Fault (Option Value) × Session) × List Notice :=
  s.observe (evaluateInOrder (apply s.settings.maxRecursionDepth) root none ns)

def interpretLogged (s : Session) (source : String) :
    (Except SessionError Value × Session) × List Notice :=
  match readAll source with
  | .error e => ((.error (.read e), s), [])
  | .ok ns =>
      match s.evaluateAllLogged ns with
      | ((.ok (some v), s), notices) => ((.ok v, s), notices)
      | ((.ok none, s), notices) => ((.error (.read .empty), s), notices)
      | ((.error e, s), notices) => ((.error (.fault e), s), notices)

def loadLogged (s : Session) (text : SourceText) : Except SessionError Session × List Notice :=
  match readAll text.content with
  | .error e => (.error (.prelude text.name e.message), [.loadingPrelude text.name])
  | .ok ns =>
      match s.evaluateAllLogged ns with
      | ((.ok _, s), notices) =>
          (.ok s, .loadingPrelude text.name :: notices ++ [.preludeLoaded ns.length])
      | ((.error e, _), notices) =>
          (.error (.prelude text.name e.message), .loadingPrelude text.name :: notices)

variable {m : Type → Type} [Monad m]

def interpretFile (host : Host m) (s : Session) (path : String) :
    m (Except SessionError Value × Session) := do
  match ← Input.fromFile host path with
  | .ok text => return s.interpret text.content
  | .error e => return (.error (.input e), s)

def start (host : Host m) (settings : Settings) : m (Except SessionError Session) := do
  let s := blank settings
  if settings.loadPrelude then
    match settings.preludePath with
    | none => return s.load ⟨Prelude.source, "<built-in prelude>"⟩
    | some path =>
        match ← Input.fromFile host path with
        | .ok text => return s.load text
        | .error e => return .error (.input e)
  else return .ok s

/-- A new session as `start` makes it, and the log. -/
def startLogged (host : Host m) (settings : Settings) :
    m (Except SessionError Session × List Notice) := do
  let s := blank settings
  if settings.loadPrelude then
    match settings.preludePath with
    | none => return s.loadLogged ⟨Prelude.source, "<built-in prelude>"⟩
    | some path =>
        match ← Input.fromFile host path with
        | .ok text =>
            let (r, notices) := s.loadLogged text
            return (r, .readingFile path :: notices)
        | .error e => return (.error (.input e), [.readingFile path])
  else return (.ok s, [.preludeDisabled])

end Session

end SmallLisp
