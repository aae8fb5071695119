import SmallLisp.CommandLine.Options
import SmallLisp.Json.Text
import SmallLisp.Node.Json
import SmallLisp.Repl

namespace SmallLisp

/-- How a command ends, and what it writes beside the log. -/
structure Report where
  status : Nat
  stdout : String
  stderr : String
  deriving DecidableEq, Inhabited

def hanging (indent : Nat) (text : String) : String :=
  String.ofList (text.toList.flatMap (fun c =>
    if c = '\n' then '\n' :: List.replicate indent ' ' else [c]))

def causeLines : List String → String
  | [] => ""
  | [cause] => s!"\nCaused by:\n    {hanging 4 cause}\n"
  | causes =>
      "\nCaused by:\n" ++
        String.join (causes.zipIdx.map (fun (cause, i) => s!"    {i}: {hanging 7 cause}\n"))

namespace Report

def success (stdout : String) : Report := ⟨0, stdout, ""⟩

def failure (message : String) (causes : List String) : Report :=
  ⟨1, "", s!"Error: {message}\n" ++ causeLines causes⟩

end Report

def InputError.report (e : InputError) : Report :=
  .failure e.message (e.cause?.map FileError.message).toList

def SettingsError.report (e : SettingsError) : Report :=
  .failure e.message (e.cause?.map FileError.message).toList

def SessionError.report (e : SessionError) : Report := .failure e.message e.causes

def Report.ofRun (name : String) : Except SessionError Value → Report
  | .ok v => .success (v.text ++ "\n")
  | .error e => .failure s!"failed to run {name}" (e.message :: e.causes)

/-- What a dialogue comes to, from the banner on, and how it ends. -/
def Report.ofReplies (replies : List Reply) (e : Option FileError) : Report :=
  let stdout := Repl.banner ++ String.join (replies.map Reply.text)
  match e with
  | none => .success stdout
  | some e => { Report.failure e.message [e.message] with stdout }

def Repl.report (r : Repl) (input : ByteArray) : Report :=
  let (replies, e) := r.replies (inputLines input)
  .ofReplies replies e

/-- Access to files, to standard input, to a user at it, and to the log on standard error. -/
structure Terminal (m : Type → Type) [Pure m] extends Host m where
  converse : Repl → m Report
  filter? : m (Option (Notice → Bool)) := pure none
  install : (Notice → Bool) → m Unit := fun _ => pure ()
  note : List Notice → m Unit := fun _ => pure ()

def Options.override (o : Options) (s : Settings) : Settings :=
  { s with
    loadPrelude := s.loadPrelude && !o.noPrelude
    maxRecursionDepth := o.maxRecursionDepth.getD s.maxRecursionDepth }

namespace CommandLine

variable {m : Type → Type} [Monad m]

def defaultFilter (verbose : Bool) (n : Notice) : Bool := verbose || n.level = .warn

def initLogging (terminal : Terminal m) (verbose : Bool) : m Unit := do
  terminal.install ((← terminal.filter?).getD (defaultFilter verbose))

def settings (terminal : Terminal m) (o : Options) : m (Except SettingsError Settings) := do
  match o.config with
  | none => return (o.override {}).validate
  | some path =>
      match ← Settings.fromFile terminal.toHost path with
      | .error e => return .error e
      | .ok s =>
          terminal.note [.settingsLoaded path]
          return (o.override s).validate

def begin (terminal : Terminal m) (s : Settings) : m (Except SessionError Session) := do
  let (r, notices) ← Session.startLogged terminal.toHost s
  terminal.note notices
  return r

def dump (text : SourceText) : Report :=
  match readAll text.content with
  | .ok ns => .success ((Json.array (ns.map Node.toJson)).prettyText ++ "\n")
  | .error e => .failure s!"failed to parse {text.name}" [e.message]

def execute (terminal : Terminal m) (s : Settings) (text : SourceText) : m Report := do
  match ← begin terminal s with
  | .error e => return e.report
  | .ok session =>
      let ((r, _), notices) := session.interpretLogged text.content
      terminal.note notices
      return .ofRun text.name r

def batch (terminal : Terminal m) (s : Settings) (o : Options) : m Report := do
  let input : Input := ⟨o.input, o.file, o.string⟩
  match input.validate with
  | .error e => return e.report
  | .ok _ =>
      terminal.note input.notices
      match ← input.read terminal.toHost with
      | .error e => return e.report
      | .ok text => if o.dumpAst then return dump text else execute terminal s text

def command (terminal : Terminal m) (o : Options) : m Report := do
  match ← settings terminal o with
  | .error e => return e.report
  | .ok s =>
      if o.input = .interactive then
        match ← begin terminal s with
        | .error e => return e.report
        | .ok session => terminal.converse { session }
      else batch terminal s o

def run (terminal : Terminal m) (o : Options) : m Report := do
  initLogging terminal o.verbose
  command terminal o

end CommandLine

end SmallLisp
