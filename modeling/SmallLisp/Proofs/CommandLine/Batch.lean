import SmallLisp.Proofs.CommandLine
import SmallLisp.Proofs.CommandLine.Arguments
import SmallLisp.Proofs.Prelude.Definitions

namespace SmallLisp

/-- The settings that hold: those of the configuration file, or else the defaults, as the other
options change them. -/
def Wishes.Effective (wishes : Wishes) (files : String → Except FileError String)
    (s : Settings) : Prop :=
  ∃ base : Settings,
    (wishes.config = none ∧ base = {} ∨ ∃ path toml, wishes.config = some path ∧
      files path = .ok toml ∧ Settings.ofToml toml = .ok base) ∧
    s = { base with
      loadPrelude := base.loadPrelude && !wishes.noPrelude
      maxRecursionDepth := wishes.maxRecursionDepth.getD base.maxRecursionDepth } ∧
    s.maxRecursionDepth ≠ 0

/-- The words that ask for a program, in a world where that is `source`. -/
inductive World.Asks (w : World) (source : String) : List String → Prop
  | string : Asks w source ["--input", "string", "--string=" ++ source]
  | file {path : String} (hpath : path ≠ "") (h : w.files path = .ok source) :
      Asks w source ["--input", "file", "--file=" ++ path]
  | pipe (h : decodeText w.stdin = .ok source) : Asks w source ["--input", "pipe"]

namespace CommandLine

variable {w : World} {wishes : Wishes} {s : Settings} {args : List String} {source name : String}

theorem noted_settings (hs : wishes.Effective w.files s) (i : Input) (given : List Switch) :
    Noted (settings w.terminal { wishes.options i with given }) (.ok s)
      (wishes.config.map Notice.settingsLoaded).toList := by
  obtain ⟨base, hbase, rfl, hdepth⟩ := hs
  -- what a file holds is validated by itself, and once more as the options change it
  have hvalid (t : Settings) (ht : t.maxRecursionDepth ≠ 0) : t.validate = .ok t := if_neg ht
  have hoptions : { wishes.options i with given }.config = wishes.config := rfl
  rw [settings, hoptions]
  rcases hbase with ⟨hconfig, rfl⟩ | ⟨path, toml, hconfig, hfile, htoml⟩
  · rw [hconfig]
    exact hvalid _ hdepth ▸ .pure _
  · rw [hconfig]
    dsimp only
    rw [Settings.fromFile]
    change Noted ((pure (w.files path) >>= _ : StateM Log _) >>= _) _ _
    rw [pure_bind, hfile]
    dsimp only
    rw [pure_bind, htoml]
    exact .bind_pure (.note w _) (congrArg pure (hvalid _ hdepth))

def Dumps (source out : String) : Prop :=
  ∃ ns, readAll source = .ok ns ∧ out = (Json.array (ns.map Node.toJson)).prettyText ++ "\n"

theorem exists_dump (source : String) :
    ∃ status stdout error, (∀ name, dump ⟨source, name⟩ = ⟨status, stdout, error name⟩) ∧
      Naming error ∧ Concludes (Dumps source) status stdout error := by
  rcases hread : readAll source with e | ns
  · have hdump (name : String) :
        dump ⟨source, name⟩ = .failure ("failed to parse " ++ name) [e.message] := by
      rw [dump, hread]
      rfl
    have herror (name : String) := Report.stderr_failure ("failed to parse " ++ name) [e.message]
    refine ⟨1, "", _, hdump, Report.naming_failure _ _, .of_failure ?_ herror⟩
    rintro out ⟨ns, hns, -⟩
    cases hread.symm.trans hns
  · refine ⟨0, _, fun _ => "", fun name => by rw [dump, hread]; rfl, .same "",
      .of_success ⟨ns, hread, rfl⟩ ?_⟩
    rintro out ⟨ms, hms, rfl⟩
    cases hread.symm.trans hms
    rfl

theorem exists_noted_program (host : Host Id) (s : Settings) (source : String) (dumpAst : Bool) :
    ∃ status stdout error notices,
      (∀ w : World, w.files = host.fileText → ∀ name,
        Noted (if dumpAst then pure (dump ⟨source, name⟩) else execute w.terminal s ⟨source, name⟩)
          ⟨status, stdout, error name⟩ notices) ∧
      Naming error ∧
      (dumpAst = false →
        Tells host s source notices ∧ Concludes (Prints host s source) status stdout error) ∧
      (dumpAst = true → notices = [] ∧ Concludes (Dumps source) status stdout error) := by
  cases dumpAst with
  | false =>
      obtain ⟨status, stdout, error, notices, hexecute, htells, hnaming, hconcludes⟩ :=
        exists_noted_execute host s source
      exact ⟨status, stdout, error, notices, hexecute, hnaming, fun _ => ⟨htells, hconcludes⟩, nofun⟩
  | true =>
      obtain ⟨status, stdout, error, hdump, hnaming, hconcludes⟩ := exists_dump source
      exact ⟨status, stdout, error, [], fun _ _ name => hdump name ▸ .pure _, hnaming, nofun,
        fun _ => ⟨rfl, hconcludes⟩⟩

theorem ofArguments_eq {i : Input} {text : SourceText} {r : Report} {notices : List Notice}
    (hargs : ∃ given, Options.ofArguments args = .ok { wishes.options i with given })
    (hs : wishes.Effective w.files s) (htext : i.read w.host = pure (.ok text))
    (h : Noted (if wishes.dumpAst then pure (dump text) else execute w.terminal s text) r notices)
    (render : List Notice → String) :
    w.ofArguments render args = .ok { r with
      stderr := render (((wishes.config.map Notice.settingsLoaded).toList ++
        (i.notices ++ notices)).filter (w.filter?.getD (defaultFilter wishes.verbose))) ++
          r.stderr } := by
  obtain ⟨given, hargs⟩ := hargs
  rw [World.ofArguments, hargs]
  exact congrArg Except.ok (World.run_eq (noted_batch (noted_settings hs i given) htext h) render)

theorem exists_input {words : List String} (h : w.Asks source words) :
    ∃ i name, Wishes.InputWords words i ∧ i.read w.host = pure (.ok ⟨source, name⟩) := by
  cases h with
  | string => exact ⟨_, "<string>", .string source, rfl⟩
  | @file path hpath h => exact ⟨_, path, .file hpath, w.read_file h⟩
  | pipe h => exact ⟨_, "<stdin>", .pipe, w.read_pipe h⟩

theorem exists_stdout_dump {before words after : List String} {ns : List Node}
    (h : w.Asks source words) (hargs : wishes.Around before after) (hs : wishes.Effective w.files s) (hdump : wishes.dumpAst)
    (hns : readAll source = .ok ns) (render : List Notice → String) :
    ∃ r, w.ofArguments render (before ++ words ++ after) = .ok r ∧ r.status = 0 ∧
      r.stdout = (Json.array (ns.map Node.toJson)).prettyText ++ "\n" := by
  obtain ⟨i, name, hwords, hread⟩ := exists_input h
  have hnoted : Noted (if wishes.dumpAst then pure (dump ⟨source, name⟩)
      else execute w.terminal s ⟨source, name⟩) (dump ⟨source, name⟩) [] := by
    rw [if_pos hdump]
    exact .pure _
  refine ⟨_, ofArguments_eq (hargs.exists_options hwords) hs hread hnoted render, ?_⟩
  simp only [dump, hns]
  exact ⟨rfl, rfl⟩

/-- The three ways to give a text, together with the same other options. The runs end alike and print
the same, and what they say on standard error is the same but for the name of the program. Before it
stand the lines of the log that are shown, the same ones for each way but for the one that the file is
read. A program that is executed succeeds if the interpreter begins under the settings and runs it,
and its value is printed then; one that is written as JSON is read and nothing else. -/
theorem batch_agrees {files : String → Except FileError String} {path : String}
    {before after : List String} (hargs : wishes.Around before after) (hs : wishes.Effective files s)
    (hpath : path ≠ "") (hfile : files path = .ok source) (stdin : ByteArray)
    (filter? : Option (Notice → Bool)) :
    let shown := filter?.getD fun n => wishes.verbose || n.level = .warn
    let loaded := (wishes.config.map Notice.settingsLoaded).toList
    let host : Host Id := ⟨files, decodeText stdin⟩
    ∃ (status : Nat) (stdout : String) (error : String → String) (notices : List Notice),
      (∀ render,
        World.ofArguments ⟨files, stdin, filter?⟩ render
            (before ++ ["--input", "string", "--string=" ++ source] ++ after) =
          .ok ⟨status, stdout, render ((loaded ++ notices).filter shown) ++ error "<string>"⟩ ∧
        World.ofArguments ⟨files, stdin, filter?⟩ render
            (before ++ ["--input", "file", "--file=" ++ path] ++ after) =
          .ok ⟨status, stdout,
            render ((loaded ++ .readingFile path :: notices).filter shown) ++ error path⟩ ∧
        World.ofArguments ⟨files, source.toUTF8, filter?⟩ render
            (before ++ ["--input", "pipe"] ++ after) =
          .ok ⟨status, stdout, render ((loaded ++ notices).filter shown) ++ error "<stdin>"⟩) ∧
      Naming error ∧
      (wishes.dumpAst = false → Tells host s source notices ∧
        Concludes (fun out => ∃ session v t, Session.start host s = .ok session ∧
          session.interpret source = (.ok v, t) ∧ out = v.text ++ "\n") status stdout error) ∧
      (wishes.dumpAst = true → notices = [] ∧
        Concludes (fun out => ∃ ns, readAll source = .ok ns ∧
          out = (Json.array (ns.map Node.toJson)).prettyText ++ "\n") status stdout error) := by
  intro shown loaded host
  obtain ⟨status, stdout, error, notices, hprogram, hnaming, hexecute, hdump⟩ :=
    exists_noted_program host s source wishes.dumpAst
  refine ⟨status, stdout, error, notices, fun render => ⟨?_, ?_, ?_⟩, hnaming, hexecute, hdump⟩
  · have hgiven := hargs.exists_options (.string source)
    exact ofArguments_eq hgiven hs rfl (hprogram ⟨files, stdin, filter?⟩ rfl _) render
  · have hgiven := hargs.exists_options (.file hpath)
    have hread := World.read_file ⟨files, stdin, filter?⟩ hfile
    exact ofArguments_eq hgiven hs hread (hprogram ⟨files, stdin, filter?⟩ rfl _) render
  · have hgiven := hargs.exists_options .pipe
    have hread := World.read_pipe ⟨files, source.toUTF8, filter?⟩ (decodeText_toUTF8 source)
    exact ofArguments_eq hgiven hs hread (hprogram ⟨files, source.toUTF8, filter?⟩ rfl _) render

theorem batch_agrees_quoted :
    let files := fun path => if path = "b.lisp" then .ok "'b"
      else if path = "c.toml" then .ok "load_prelude = false" else .error .missing
    let time := "2026-01-01T00:00:00.000000Z "
    let render (notices : List Notice) := String.join (notices.map fun n => time ++ n.line)
    let run (stdin : ByteArray) (filter? : Option (Notice → Bool)) :=
      World.ofArguments ⟨files, stdin, filter?⟩ render
    let executed (words : List String) := ["-c", "c.toml"] ++ words ++ ["--max-recursion-depth=+1"]
    let dumped (words : List String) := ["-vcc.toml"] ++ words ++ ["--dump-ast"]
    let json := "[\n  \x7b\n    \"list\": [\n      \x7b\n        \"symbol\": \"quote\"\n      \x7d,\n" ++
      "      \x7b\n        \"symbol\": \"b\"\n      \x7d\n    ]\n  \x7d\n]\n"
    let loaded := time ++ " INFO diylisp_repl: Loaded interpreter configuration from: c.toml\n"
    let reading := time ++ "DEBUG diylisp::input_handling: reading program file path=b.lisp\n"
    (run .empty (some fun _ => false) (executed ["--input", "string", "--string='b"]) =
      .ok ⟨0, "b\n", ""⟩ ∧
    run .empty (some fun _ => false) (executed ["--input", "file", "--file=b.lisp"]) =
      .ok ⟨0, "b\n", ""⟩ ∧
    run "'b".toUTF8 (some fun _ => false) (executed ["--input", "pipe"]) = .ok ⟨0, "b\n", ""⟩) ∧
    run .empty none (dumped ["--input", "string", "--string='b"]) = .ok ⟨0, json, loaded⟩ ∧
    run .empty none (dumped ["--input", "file", "--file=b.lisp"]) =
      .ok ⟨0, json, loaded ++ reading⟩ ∧
    run "'b".toUTF8 none (dumped ["--input", "pipe"]) = .ok ⟨0, json, loaded⟩ := by
  intro files time render run executed dumped json loaded reading
  have hread : readAll "'b" = .ok [.quoted (.symbol "b")] := by decide +kernel
  have htoml : Settings.ofToml "load_prelude = false" = .ok { loadPrelude := false } := by
    decide +kernel
  have hexecuted : Wishes.Around ["-c", "c.toml"] ["--max-recursion-depth=+1"]
      { config := some "c.toml", maxRecursionDepth := some 1 } := by
    have hdigits : IsDigits ['1'] := ⟨nofun, List.forall_mem_singleton.2 rfl⟩
    have hdepth : Wishes.Adds ["--max-recursion-depth=" ++ "+1"] {}
        { maxRecursionDepth := some 1 } :=
      .maxRecursionDepthEquals rfl hdigits (.inr (by decide)) (by decide)
    rw [show "--max-recursion-depth=" ++ "+1" = "--max-recursion-depth=+1" by decide] at hdepth
    exact .cons (.behind (.cons .nil hdepth)) (.config rfl (by decide) (.letter (.inr (by decide))))
  have hdumped : Wishes.Around ["-vcc.toml"] ["--dump-ast"]
      { config := some "c.toml", dumpAst := true, verbose := true } := by
    have hconfig : Wishes.Adds ["-vc" ++ "c.toml"] { dumpAst := true }
        { config := some "c.toml", dumpAst := true, verbose := true } :=
      .letters (.config rfl (by decide) (.letterJoined (by decide))) rfl
    rw [show "-vc" ++ "c.toml" = "-vcc.toml" by decide] at hconfig
    exact .cons (.behind (.cons .nil (.dumpAst rfl))) hconfig
  have hstring : "--string=" ++ "'b" = "--string='b" := by decide
  have hfile : "--file=" ++ "b.lisp" = "--file=b.lisp" := by decide
  constructor
  · obtain ⟨status, stdout, error, notices, hruns, -, hconcludes, -⟩ :=
      @batch_agrees _ { loadPrelude := false, maxRecursionDepth := 1 } "'b" files "b.lisp" _ _
        hexecuted ⟨{ loadPrelude := false }, .inr ⟨"c.toml", _, rfl, rfl, htoml⟩, rfl, by decide⟩
        (by decide) rfl .empty (some fun _ => false)
    let session := Session.blank { loadPrelude := false, maxRecursionDepth := 1 }
    have hv : session.interpret "'b" = (.ok (.symbol "b"), session) := by
      rw [session.interpret_of_readAll hread]
      rfl
    have hprints : Prints ⟨files, decodeText .empty⟩ session.settings "'b" "b\n" :=
      ⟨session, .symbol "b", session, rfl, hv, by decide⟩
    obtain ⟨-, hconcludes⟩ := hconcludes rfl
    obtain rfl := hconcludes.success.2 ⟨_, hprints⟩
    obtain ⟨rfl, herror⟩ := hconcludes.prints _ hprints
    simp only [herror, hstring, hfile] at hruns
    simpa [render, run, executed] using hruns render
  · obtain ⟨status, stdout, error, notices, hruns, -, -, hconcludes⟩ :=
      @batch_agrees _ { loadPrelude := false } "'b" files "b.lisp" _ _ hdumped
        ⟨{ loadPrelude := false }, .inr ⟨"c.toml", _, rfl, rfl, htoml⟩, rfl, by decide⟩
        (by decide) rfl .empty none
    obtain ⟨hnotices, hconcludes⟩ := hconcludes rfl
    have hdumps : Dumps "'b" json := ⟨_, hread, by decide +kernel⟩
    obtain rfl := hconcludes.success.2 ⟨_, hdumps⟩
    obtain ⟨rfl, herror⟩ := hconcludes.prints _ hdumps
    subst hnotices
    have hloaded : time ++ (Notice.settingsLoaded "c.toml").line = loaded := by decide
    have hreading : time ++ (Notice.readingFile "b.lisp").line = reading := by decide
    simp only [herror, hstring, hfile] at hruns
    simpa [render, run, dumped, hloaded, hreading] using hruns render

/-- A warning stands before an error on standard error. A recursion limit of zero is refused although
a session would begin and run a program under it, and so is a configuration file that has it although
an option changes it. -/
theorem warning_before_error :
    let w : World :=
      { files := fun path => if path = "c.toml" then .ok "max_recursion_depth = 0" else .error .missing
        stdin := .empty }
    let time := "2026-01-01T00:00:00.000000Z "
    let render (notices : List Notice) := String.join (notices.map fun n => time ++ n.line)
    let refused : Report := ⟨1, "", "Error: Invalid config: max_recursion_depth must be at least 1\n"⟩
    w.ofArguments render ["--input", "string", "--string=x", "--no-prelude"] =
      .ok ⟨1, "", time ++ " WARN diylisp::interpreter: prelude disabled; " ++
        "only the core special forms are available\n" ++ "Error: failed to run <string>\n\n" ++
        "Caused by:\n    0: Runtime error: Unbound symbol: x\n    1: Unbound symbol: x\n"⟩ ∧
    (∀ depth, ∃ session, Session.start w.host { maxRecursionDepth := depth } = .ok session ∧
      session.interpret "1" = (.ok (.integer 1), session)) ∧
    w.ofArguments render ["--input", "string", "--string=1", "--max-recursion-depth", "0"] =
      .ok refused ∧
    w.ofArguments render ["--input", "string", "--string=1", "--config", "c.toml",
      "--max-recursion-depth", "5"] = .ok refused := by
  intro w time render refused
  have hread : readAll "1" = .ok [.integer 1] := by decide +kernel
  refine ⟨congrArg Except.ok ?_, fun depth => ?_, congrArg Except.ok ?_, congrArg Except.ok ?_⟩
  · decide +kernel
  · have hstart : Session.start w.host { maxRecursionDepth := depth } = .ok (Prelude.session _) :=
      Prelude.start_session w.host rfl rfl
    refine ⟨_, hstart, ?_⟩
    rw [Session.interpret_of_readAll _ hread]
    rfl
  · decide +kernel
  · decide +kernel

end CommandLine

end SmallLisp
