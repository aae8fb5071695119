import SmallLisp.CommandLine

namespace SmallLisp.Main

def toFileError (e : IO.Error) : FileError :=
  match e with
  | .noFileOrDirectory .. => .missing
  | e => .other (toString e)

def fileText (path : String) : IO (Except FileError String) := do
  match ← (IO.FS.readBinFile path).toBaseIO with
  | .ok bytes => return decodeText bytes
  | .error e => return .error (toFileError e)

def streamText : IO (Except FileError String) := do
  match ← ((← IO.getStdin).readBinToEnd).toBaseIO with
  | .ok bytes => return decodeText bytes
  | .error e => return .error (toFileError e)

partial def lineBytes (stdin : IO.FS.Stream) (before : ByteArray) : IO ByteArray := do
  let bytes ← stdin.read 1
  if bytes.isEmpty then return before
  else if bytes.toList = [10] then return before ++ bytes
  else lineBytes stdin (before ++ bytes)

def threshold? : String → Option Nat
  | "off" | "error" => some 3
  | "warn" => some 2
  | "info" => some 1
  | "debug" | "trace" => some 0
  | _ => none

def severity : Level → Nat
  | .debug => 0
  | .info => 1
  | .warn => 2

def directive? (word : String) : Option (String × Nat) :=
  match word.splitOn "=" with
  | [target] =>
      match threshold? target with
      | some n => some ("", n)
      | none => some (target, 0)
  | [target, level] => (threshold? level).map (fun n => (target, n))
  | _ => none

/-- The filter that a text asks for. The longest target that fits counts. -/
def filterOf? (text : String) : Option (Notice → Bool) := do
  let directives ← (text.splitOn ",").mapM directive?
  return fun n =>
    let fitting := directives.filter (fun d => d.1.isPrefixOf n.target)
    let longest := fitting.foldl (fun d d' => if d.1.length ≤ d'.1.length then d' else d) ("", 3)
    longest.2 ≤ severity n.level

def write (shown : Notice → Bool) (notices : List Notice) : IO Unit := do
  let stderr ← IO.getStderr
  for n in notices.filter shown do
    stderr.putStr n.line

partial def converse (shown : Notice → Bool) (stdin stdout : IO.FS.Stream) (isTerminal : Bool)
    (r : Repl) : IO Report := do
  if isTerminal then
    stdout.putStr r.prompt
    stdout.flush
  match inputLines (← lineBytes stdin .empty) with
  | [] =>
      stdout.putStr Reply.farewell.text
      return .success ""
  | .error e :: _ => return .failure e.message [e.message]
  | .ok line :: _ =>
      let ((reply, r), notices) := r.feedLogged line
      write shown notices
      stdout.putStr reply.text
      stdout.flush
      if reply = .farewell then return .success ""
      else converse shown stdin stdout isTerminal r

def terminal (filter : IO.Ref (Notice → Bool)) : Terminal IO where
  fileText := fileText
  streamText := streamText
  converse r := do
    let stdin ← IO.getStdin
    let stdout ← IO.getStdout
    stdout.putStr Repl.banner
    converse (← filter.get) stdin stdout (← stdin.isTty) r
  filter? := do return (← IO.getEnv "RUST_LOG").bind filterOf?
  install := filter.set
  note notices := do write (← filter.get) notices

def usage : String :=
  "Usage: [-i interactive|string|file|pipe] [-s STRING] [-f FILE] [-c CONFIG] [-v]\n" ++
  "       [--no-prelude] [--max-recursion-depth N] [--dump-ast]\n"

end SmallLisp.Main

open SmallLisp

def main (args : List String) : IO UInt32 := do
  match Options.ofArguments args with
  | .error .helpWanted =>
      (← IO.getStdout).putStr Main.usage
      return 0
  | .error .misuse =>
      (← IO.getStderr).putStr Main.usage
      return 2
  | .ok o =>
      let report ← CommandLine.run (Main.terminal (← IO.mkRef fun _ => false)) o
      (← IO.getStdout).putStr report.stdout
      (← IO.getStderr).putStr report.stderr
      return report.status.toUInt32
