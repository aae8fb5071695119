import SmallLisp.CommandLine
import SmallLisp.Proofs.Logged

namespace SmallLisp

theorem decodeText_toUTF8 (s : String) : decodeText s.toUTF8 = .ok s := by
  rw [decodeText, String.fromUTF8?, dif_pos (show s.toUTF8.IsValidUTF8 from s.isValidUTF8)]
  rfl

/-- The notices that the filter has let through. -/
structure Log where
  shown : Notice → Bool := fun _ => false
  notices : List Notice := []

def Log.note (notices : List Notice) (l : Log) : Log :=
  { l with notices := l.notices ++ notices.filter l.shown }

/-- Files, an input that is given beforehand, and the filter that the environment asks for. -/
structure World where
  files : String → Except FileError String
  stdin : ByteArray
  filter? : Option (Notice → Bool) := none

namespace World

def host (w : World) : Host Id := ⟨w.files, decodeText w.stdin⟩

def terminal (w : World) : Terminal (StateM Log) where
  fileText path := pure (w.files path)
  streamText := pure (decodeText w.stdin)
  converse r := do
    let ((replies, e), notices) := r.repliesLogged (inputLines w.stdin)
    modify (·.note notices)
    return .ofReplies replies e
  filter? := pure w.filter?
  install shown := modify ({ · with shown })
  note notices := modify (·.note notices)

/-- What a command comes to. On standard error, what it writes stands behind the lines of the log,
which `render` writes. -/
def run (w : World) (render : List Notice → String) (o : Options) : Report :=
  let (r, log) := (CommandLine.run w.terminal o).run {}
  { r with stderr := render log.notices ++ r.stderr }

def ofArguments (w : World) (render : List Notice → String) (args : List String) :
    Except Refusal Report := do
  return w.run render (← Options.ofArguments args)

variable (w : World)

theorem fromFile_terminal (path : String) :
    Input.fromFile w.terminal.toHost path = pure (Input.fromFile w.host path) := by
  change (pure (w.files path) >>= _ : StateM Log _) = pure (pure (w.files path) >>= _ : Id _)
  rw [pure_bind, pure_bind]
  cases w.files path <;> rfl

theorem read_terminal (i : Input) : i.read w.terminal.toHost = pure (i.read w.host) := by
  obtain ⟨source, file, string⟩ := i
  cases source with
  | interactive => rfl
  | string => cases string <;> rfl
  | file =>
      cases file with
      | none => rfl
      | some path => exact w.fromFile_terminal path
  | pipe =>
      change (pure (decodeText w.stdin) >>= _ : StateM Log _) =
        pure (pure (decodeText w.stdin) >>= _ : Id _)
      rw [pure_bind, pure_bind]
      cases decodeText w.stdin <;> rfl

theorem read_file {path source : String} (h : w.files path = .ok source) :
    Input.read w.host ⟨.file, some path, none⟩ = pure (.ok ⟨source, path⟩) := by
  change Input.fromFile w.host path = _
  rw [Input.fromFile, show w.host.fileText path = pure (.ok source) from h, pure_bind]

theorem read_pipe {source : String} (h : decodeText w.stdin = .ok source) :
    Input.read w.host ⟨.pipe, none, none⟩ = pure (.ok ⟨source, "<stdin>"⟩) := by
  rw [Input.read, show w.host.streamText = pure (.ok source) from h, pure_bind]

theorem startLogged_terminal (s : Settings) :
    Session.startLogged w.terminal.toHost s = pure (Session.startLogged w.host s) := by
  rw [Session.startLogged, Session.startLogged]
  split
  · split
    · rfl
    · rw [fromFile_terminal, pure_bind]
      generalize Input.fromFile w.host _ = x
      cases x <;> rfl
  · rfl

end World

/-- A part of a command that comes to `a` and tells the log `notices`. -/
def Noted {α : Type} (x : StateM Log α) (a : α) (notices : List Notice) : Prop :=
  ∀ l, x.run l = (a, l.note notices)

namespace Noted

variable {α β : Type} {x : StateM Log α} {f : α → StateM Log β} {a : α} {b : β}
  {notices notices' : List Notice}

theorem pure (a : α) : Noted (Pure.pure a) a [] := by
  intro l
  simp only [Log.note, List.filter_nil, List.append_nil]
  rfl

theorem bind (h : Noted x a notices) (hf : Noted (f a) b notices') :
    Noted (x >>= f) b (notices ++ notices') := by
  intro l
  rw [StateT.run_bind, h l]
  change (f a).run (l.note notices) = _
  rw [hf]
  simp [Log.note]

theorem bind_pure (h : Noted x a notices) (hf : f a = Pure.pure b) : Noted (x >>= f) b notices := by
  have hfa : Noted (f a) b [] := hf ▸ .pure b
  exact List.append_nil notices ▸ h.bind hfa

theorem note (w : World) (notices : List Notice) : Noted (w.terminal.note notices) () notices :=
  fun _ => rfl

end Noted

theorem Input.validate_of_read {host : Host Id} {i : Input} {text : SourceText}
    (h : i.read host = pure (.ok text)) : i.source ≠ .interactive ∧ i.validate = .ok () := by
  obtain ⟨source, file, string⟩ := i
  cases source with
  | interactive => cases h
  | pipe => exact ⟨nofun, rfl⟩
  | string =>
      cases string with
      | none => cases h
      | some content => exact ⟨nofun, by cases file <;> rfl⟩
  | file =>
      cases file with
      | none => cases h
      | some path => exact ⟨nofun, rfl⟩

/-- What is said on standard error of a program, by the name of the program: the name makes no
difference, or it is said in one place. -/
inductive Naming : (String → String) → Prop
  | same (text : String) : Naming fun _ => text
  | named (before after : String) : Naming fun name => before ++ name ++ after

/-- How a command ends with a program: it prints what `Prints` tells, and fails if that tells
nothing. -/
structure Concludes (Prints : String → Prop) (status : Nat) (stdout : String)
    (error : String → String) : Prop where
  success : status = 0 ↔ ∃ out, Prints out
  prints : ∀ out, Prints out → stdout = out ∧ ∀ name, error name = ""
  fails : status ≠ 0 → status = 1 ∧ stdout = "" ∧ ∀ name, ∃ text, error name = "Error: " ++ text

namespace Concludes

variable {Prints : String → Prop} {out : String} {error : String → String}

theorem of_success (h : Prints out) (hout : ∀ out', Prints out' → out' = out) :
    Concludes Prints 0 out fun _ => "" where
  success := ⟨fun _ => ⟨out, h⟩, fun _ => rfl⟩
  prints out' h' := ⟨(hout out' h').symm, fun _ => rfl⟩
  fails h := absurd rfl h

theorem of_failure (h : ∀ out, ¬ Prints out)
    (herror : ∀ name, ∃ text, error name = "Error: " ++ text) : Concludes Prints 1 "" error where
  success := ⟨nofun, fun ⟨out, hout⟩ => absurd hout (h out)⟩
  prints out hout := absurd hout (h out)
  fails _ := ⟨rfl, rfl, herror⟩

end Concludes

namespace Report

theorem stderr_failure (message : String) (causes : List String) :
    ∃ text, (failure message causes).stderr = "Error: " ++ text := by
  refine ⟨message ++ "\n" ++ causeLines causes, ?_⟩
  rw [← String.append_assoc, ← String.append_assoc]
  rfl

theorem naming_failure (message : String) (causes : List String) :
    Naming fun name => (failure (message ++ name) causes).stderr := by
  have h (name : String) : (failure (message ++ name) causes).stderr =
      "Error: " ++ message ++ name ++ ("\n" ++ causeLines causes) := by
    change "Error: " ++ (message ++ name) ++ "\n" ++ causeLines causes = _
    simp only [String.append_assoc]
  rw [funext h]
  exact .named _ _

end Report

namespace CommandLine

variable {w : World} {o : Options} {s : Settings} {session : Session} {text : SourceText}
  {notices : List Notice}

theorem exists_noted_settings (w : World) (o : Options) :
    ∃ x notices, Noted (settings w.terminal o) x notices := by
  rw [settings]
  cases o.config with
  | none => exact ⟨_, _, .pure _⟩
  | some path =>
      dsimp only
      rw [Settings.fromFile]
      change ∃ x notices, Noted ((pure (w.files path) >>= _ : StateM Log _) >>= _) x notices
      rw [pure_bind]
      rcases w.files path with e | toml
      · exact ⟨_, _, .pure _⟩
      · dsimp only
        rw [pure_bind]
        cases Settings.ofToml toml with
        | error e => exact ⟨_, _, .pure _⟩
        | ok s => exact ⟨_, _, .bind_pure (.note w _) rfl⟩

theorem noted_begin (w : World) (s : Settings) :
    Noted (begin w.terminal s) (Session.start w.host s) (Session.startLogged w.host s).2 := by
  have hfst : (Session.startLogged w.host s).1 = Session.start w.host s :=
    Session.fst_startLogged w.host s
  rw [begin, w.startLogged_terminal, pure_bind, ← hfst]
  exact .bind_pure (.note w _) rfl

theorem noted_execute_of_error {e : SessionError} (h : Session.start w.host s = .error e) :
    Noted (execute w.terminal s text) e.report (Session.startLogged w.host s).2 := by
  rw [execute]
  exact (noted_begin w s).bind_pure (by rw [h])

theorem noted_execute (text : SourceText) (h : Session.start w.host s = .ok session) :
    Noted (execute w.terminal s text) (.ofRun text.name (session.interpret text.content).1)
      ((Session.startLogged w.host s).2 ++ (session.interpretLogged text.content).2) := by
  rw [execute]
  refine (noted_begin w s).bind ?_
  rw [h, ← session.fst_interpretLogged]
  dsimp only
  exact .bind_pure (.note w _) rfl

/-- What a session that begins under the settings prints for a program. -/
def Prints (host : Host Id) (s : Settings) (source out : String) : Prop :=
  ∃ session v t, Session.start host s = .ok session ∧ session.interpret source = (.ok v, t) ∧
    out = v.text ++ "\n"

/-- What the log is told of a program that is executed: how a session begins under the settings, and
how the program runs in it if it does. -/
inductive Tells (host : Host Id) (s : Settings) (source : String) : List Notice → Prop
  | fails {e : SessionError} {notices : List Notice}
      (h : Session.startLogged host s = (.error e, notices)) : Tells host s source notices
  | runs {session : Session} {x : Except SessionError Value × Session}
      {notices notices' : List Notice} (h : Session.startLogged host s = (.ok session, notices))
      (hx : session.interpretLogged source = (x, notices')) :
      Tells host s source (notices ++ notices')

theorem prints_of_ok {host : Host Id} {source out : String}
    (h : Session.start host s = .ok session) : Prints host s source out ↔
      ∃ v t, session.interpret source = (.ok v, t) ∧ out = v.text ++ "\n" := by
  constructor
  · rintro ⟨_, v, t, h', hv, hout⟩
    cases h.symm.trans h'
    exact ⟨v, t, hv, hout⟩
  · rintro ⟨v, t, hv, hout⟩
    exact ⟨session, v, t, h, hv, hout⟩

/-- A program is executed if a session begins and runs it, and its value is printed then. The input
that is given beforehand makes no difference. -/
theorem exists_noted_execute (host : Host Id) (s : Settings) (source : String) :
    ∃ status stdout error notices,
      (∀ w : World, w.files = host.fileText → ∀ name,
        Noted (execute w.terminal s ⟨source, name⟩) ⟨status, stdout, error name⟩ notices) ∧
      Tells host s source notices ∧ Naming error ∧
      Concludes (Prints host s source) status stdout error := by
  -- no prelude is read from the stream, so worlds with the same files begin the same session
  obtain ⟨files, stream⟩ := host
  have hfst : (Session.startLogged (m := Id) ⟨files, stream⟩ s).1 =
      Session.start ⟨files, stream⟩ s :=
    Session.fst_startLogged (m := Id) ⟨files, stream⟩ s
  rcases hsession : Session.start ⟨files, stream⟩ s with e | session
  · refine ⟨1, "", fun _ => e.report.stderr, _, ?_, .fails (Prod.ext (hfst.trans hsession) rfl),
      .same _, .of_failure ?_ fun _ => Report.stderr_failure _ _⟩
    · rintro ⟨_, stdin, filter?⟩ rfl name
      exact noted_execute_of_error hsession
    · rintro _ ⟨_, _, _, hsession', -⟩
      cases hsession.symm.trans hsession'
  · let notices := (Session.startLogged (m := Id) ⟨files, stream⟩ s).2 ++
      (session.interpretLogged source).2
    have htells : Tells ⟨files, stream⟩ s source notices :=
      .runs (Prod.ext (hfst.trans hsession) rfl) rfl
    have hexecute (w : World) (hw : w.files = files) (name : String) :
        Noted (execute w.terminal s ⟨source, name⟩) (.ofRun name (session.interpret source).1)
          notices := by
      obtain ⟨_, stdin, filter?⟩ := w
      cases hw
      exact noted_execute ⟨source, name⟩ hsession
    rcases hv : session.interpret source with ⟨e | v, t⟩
    · simp only [hv] at hexecute
      refine ⟨1, "", _, _, hexecute, htells, Report.naming_failure "failed to run " _,
        .of_failure ?_ fun _ => Report.stderr_failure _ _⟩
      intro out hout
      obtain ⟨_, _, hv', -⟩ := (prints_of_ok hsession).1 hout
      cases hv.symm.trans hv'
    · simp only [hv] at hexecute
      refine ⟨0, v.text ++ "\n", _, _, hexecute, htells, .same "",
        .of_success ⟨session, v, t, hsession, hv, rfl⟩ ?_⟩
      intro out hout
      obtain ⟨_, _, hv', rfl⟩ := (prints_of_ok hsession).1 hout
      cases hv.symm.trans hv'
      rfl

theorem noted_command_of_error {e : SettingsError}
    (h : Noted (settings w.terminal o) (.error e) notices) :
    Noted (command w.terminal o) e.report notices :=
  h.bind_pure rfl

theorem noted_interactive (hs : Noted (settings w.terminal o) (.ok s) notices)
    (hsession : Session.start w.host s = .ok session) (ho : o.input = .interactive) :
    Noted (command w.terminal o) (Repl.report { session } w.stdin)
      (notices ++ ((Session.startLogged w.host s).2 ++
        (Repl.repliesLogged { session } (inputLines w.stdin)).2)) := by
  refine hs.bind ?_
  dsimp only
  rw [if_pos ho]
  refine (noted_begin w s).bind ?_
  rw [hsession, Repl.report, ← Repl.fst_repliesLogged]
  exact .bind_pure (.note w _) rfl

theorem noted_batch {r : Report} {notices' : List Notice}
    (hs : Noted (settings w.terminal o) (.ok s) notices)
    (htext : Input.read w.host ⟨o.input, o.file, o.string⟩ = pure (.ok text))
    (h : Noted (if o.dumpAst then pure (dump text) else execute w.terminal s text) r notices') :
    Noted (command w.terminal o) r
      (notices ++ (Input.notices ⟨o.input, o.file, o.string⟩ ++ notices')) := by
  obtain ⟨hsource, hvalidate⟩ := Input.validate_of_read htext
  refine hs.bind ?_
  dsimp only
  rw [if_neg hsource, batch, hvalidate]
  refine (Noted.note w _).bind ?_
  rw [w.read_terminal, htext]
  exact h

end CommandLine

theorem World.run_eq {w : World} {o : Options} {r : Report} {notices : List Notice}
    (h : Noted (CommandLine.command w.terminal o) r notices) (render : List Notice → String) :
    w.run render o = { r with
      stderr := render (notices.filter (w.filter?.getD (CommandLine.defaultFilter o.verbose))) ++
        r.stderr } := by
  have hrun : (CommandLine.run w.terminal o).run {} =
      (r, Log.note notices ⟨w.filter?.getD (CommandLine.defaultFilter o.verbose), []⟩) := h _
  rw [World.run, hrun]
  rfl

theorem CommandLine.exists_of_run_pipe {w : World} {o : Options} {source : String}
    {render : List Notice → String} (htext : decodeText w.stdin = .ok source) (ho : o.input = .pipe)
    (hdump : o.dumpAst = false) (h : (w.run render o).status = 0) :
    ∃ s session v t notices, Noted (settings w.terminal o) (.ok s) notices ∧
      Session.start w.host s = .ok session ∧ session.interpret source = (.ok v, t) ∧
      (w.run render o).stdout = v.text ++ "\n" := by
  obtain ⟨e | s, notices, hs⟩ := exists_noted_settings w o
  · rw [World.run_eq (noted_command_of_error hs) render] at h
    cases h
  · obtain ⟨status, stdout, error, notices', hexecute, -, -, hconcludes⟩ :=
      exists_noted_execute w.host s source
    have hread : Input.read w.host ⟨o.input, o.file, o.string⟩ = pure (.ok ⟨source, "<stdin>"⟩) :=
      ho ▸ w.read_pipe htext
    have hprogram : Noted (if o.dumpAst then pure (dump ⟨source, "<stdin>"⟩)
        else execute w.terminal s ⟨source, "<stdin>"⟩)
        ⟨status, stdout, error "<stdin>"⟩ notices' := by
      rw [hdump]
      exact hexecute w rfl "<stdin>"
    have hrun := World.run_eq (noted_batch hs hread hprogram) render
    rw [hrun] at h ⊢
    obtain ⟨_, session, v, t, hsession, hv, rfl⟩ := hconcludes.success.1 h
    exact ⟨s, session, v, t, notices, hs, hsession, hv,
      (hconcludes.prints _ ⟨session, v, t, hsession, hv, rfl⟩).1⟩

end SmallLisp
