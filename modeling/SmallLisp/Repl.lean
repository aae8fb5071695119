import SmallLisp.Repl.Buffer
import SmallLisp.Repl.Typed
import SmallLisp.Session

namespace SmallLisp

inductive Reply where
  | silence
  | value (text : String)
  | failure (message : String)
  | names (names : List String)
  | help
  | unknownCommand (command : String)
  | farewell
  deriving DecidableEq

def styled (rendition : Nat) (text : String) : String := s!"\x1b[{rendition}m{text}\x1b[0m"

namespace Reply

def helpText : String :=
  "Enter an expression to evaluate it. Unbalanced input continues on the next line.\n\n" ++
  "  :env    list every bound name\n" ++
  "  :help   show this help\n" ++
  "  :quit   exit the REPL\n"

/-- What is shown to the user: results in green, errors in red, unknown commands in yellow. -/
def text : Reply → String
  | silence => ""
  | value text => styled 32 text ++ "\n"
  | failure message => styled 31 message ++ "\n"
  | names ns => " ".intercalate ns ++ "\n"
  | help => helpText
  | unknownCommand command => styled 33 s!"Unknown command {command} (try :help)" ++ "\n"
  | farewell => "Bye!\n"

end Reply

structure Repl where
  session : Session
  buffer : InputBuffer := {}

namespace Repl

def banner : String :=
  styled 1 "DIY Lisp REPL" ++ "\nType :help for commands, :quit or Ctrl-D to exit.\n\n"

def prompt (r : Repl) : String :=
  if r.buffer.isEmpty then r.session.settings.prompt else "..  "

def command (r : Repl) (c : String) : Reply :=
  if c = ":quit" || c = ":q" || c = ":exit" then .farewell
  else if c = ":help" || c = ":h" then .help
  else if c = ":env" then .names r.session.names
  else .unknownCommand c

def feed (r : Repl) (line : String) : Reply × Repl :=
  let trimmed := Text.trim line.toList
  if r.buffer.isEmpty && trimmed.head? = some ':' then (r.command (String.ofList trimmed), r)
  else
    match r.buffer.push line with
    | (none, buffer) => (.silence, { r with buffer })
    | (some input, buffer) =>
        match r.session.interpret input with
        | (.ok v, session) => (.value v.text, ⟨session, buffer⟩)
        | (.error e, session) => (.failure e.message, ⟨session, buffer⟩)

def feedLogged (r : Repl) (line : String) : (Reply × Repl) × List Notice :=
  let trimmed := Text.trim line.toList
  if r.buffer.isEmpty && trimmed.head? = some ':' then ((r.command (String.ofList trimmed), r), [])
  else
    match r.buffer.push line with
    | (none, buffer) => ((.silence, { r with buffer }), [])
    | (some input, buffer) =>
        match r.session.interpretLogged input with
        | ((.ok v, session), notices) => ((.value v.text, ⟨session, buffer⟩), notices)
        | ((.error e, session), notices) => ((.failure e.message, ⟨session, buffer⟩), notices)

/-- The replies to lines, up to a farewell. Lines that cannot be decoded end the dialogue with
their error. -/
def replies (r : Repl) : List (Except FileError String) → List Reply × Option FileError
  | [] => ([.farewell], none)
  | .error e :: _ => ([], some e)
  | .ok line :: rest =>
      match r.feed line with
      | (.farewell, _) => ([.farewell], none)
      | (reply, r) =>
          let (more, e) := r.replies rest
          (reply :: more, e)

def repliesLogged (r : Repl) :
    List (Except FileError String) → (List Reply × Option FileError) × List Notice
  | [] => (([.farewell], none), [])
  | .error e :: _ => (([], some e), [])
  | .ok line :: rest =>
      match r.feedLogged line with
      | ((.farewell, _), notices) => (([.farewell], none), notices)
      | ((reply, r), notices) =>
          let ((more, e), later) := r.repliesLogged rest
          ((reply :: more, e), notices ++ later)

end Repl

/-- The lines of an input, without a line feed and a carriage return before it at their ends. What
follows the last line feed is a line only if it is not empty. -/
def endedLines {α : Type} [DecidableEq α] (lineFeed carriageReturn : α) (input : List α) :
    List (List α) :=
  let pieces := Text.pieces lineFeed input
  let ended := pieces.dropLast.map (fun line =>
    if line.getLast? = some carriageReturn then line.dropLast else line)
  ended ++ (pieces.getLast?.filter (!·.isEmpty)).toList

def inputLines (bytes : ByteArray) : List (Except FileError String) :=
  match decodeText bytes with
  | .ok text =>
      (endedLines '\n' '\r' text.toList).map (fun line => .ok (eraseBackspaces (String.ofList line)))
  | .error _ =>
      (endedLines 10 13 bytes.data.toList).map (fun line =>
        (decodeText ⟨line.toArray⟩).map eraseBackspaces)

end SmallLisp
