import SmallLisp.Notice

namespace SmallLisp

inductive FileError where
  | missing
  | notText
  | other (reason : String)
  deriving DecidableEq

def FileError.message : FileError → String
  | missing => "No such file or directory (os error 2)"
  | notText => "stream did not contain valid UTF-8"
  | other reason => reason

def decodeText (bytes : ByteArray) : Except FileError String :=
  match String.fromUTF8? bytes with
  | some s => .ok s
  | none => .error .notText

inductive InputSource where
  | interactive
  | string
  | file
  | pipe
  deriving DecidableEq, Inhabited

namespace InputSource

def all : List InputSource := [interactive, string, file, pipe]

def name : InputSource → String
  | interactive => "interactive"
  | string => "string"
  | file => "file"
  | pipe => "pipe"

def ofName? (name : String) : Option InputSource := all.find? (·.name = name)

end InputSource

inductive InputError where
  | missingFileArgument
  | missingStringArgument
  | unreadable (path : String) (cause : FileError)
  | unreadableStream (cause : FileError)
  | interactive
  deriving DecidableEq

def InputError.message : InputError → String
  | missingFileArgument => "--file argument required when using --input file"
  | missingStringArgument => "--string argument required when using --input string"
  | unreadable path cause => s!"Error reading file '{path}': {cause.message}"
  | unreadableStream cause => s!"Error reading from stdin: {cause.message}"
  | interactive => "Interactive mode has no content to read up front"

def InputError.cause? : InputError → Option FileError
  | unreadable _ cause | unreadableStream cause => some cause
  | _ => none

structure Input where
  source : InputSource
  file : Option String := none
  string : Option String := none

structure SourceText where
  content : String
  name : String
  deriving DecidableEq, Inhabited

/-- Access to files and to standard input. -/
structure Host (m : Type → Type) where
  fileText : String → m (Except FileError String)
  streamText : m (Except FileError String)

namespace Input

def validate (i : Input) : Except InputError Unit :=
  match i.source, i.file, i.string with
  | .file, none, _ => .error .missingFileArgument
  | .string, _, none => .error .missingStringArgument
  | _, _, _ => .ok ()

/-- What the log is told before the text is read. -/
def notices (i : Input) : List Notice :=
  match i.source, i.file with
  | .file, some path => [.readingFile path]
  | _, _ => []

variable {m : Type → Type} [Monad m]

def fromFile (host : Host m) (path : String) : m (Except InputError SourceText) := do
  match ← host.fileText path with
  | .ok content => return .ok ⟨content, path⟩
  | .error cause => return .error (.unreadable path cause)

def read (host : Host m) (i : Input) : m (Except InputError SourceText) := do
  match i.source with
  | .interactive => return .error .interactive
  | .string =>
      match i.string with
      | some content => return .ok ⟨content, "<string>"⟩
      | none => return .error .missingStringArgument
  | .file =>
      match i.file with
      | some path => fromFile host path
      | none => return .error .missingFileArgument
  | .pipe =>
      match ← host.streamText with
      | .ok content => return .ok ⟨content, "<stdin>"⟩
      | .error cause => return .error (.unreadableStream cause)

end Input

end SmallLisp
