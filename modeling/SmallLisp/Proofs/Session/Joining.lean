import SmallLisp.Proofs.Reader.Balance
import SmallLisp.Proofs.Session
import Mathlib.Data.List.Basic

namespace SmallLisp

namespace Session

theorem interpretNodes_append (s : Session) {ns ms : List Node} (hns : ns ≠ []) (hms : ms ≠ []) :
    s.interpretNodes (ns ++ ms) =
      match s.interpretNodes ns with
      | (.ok _, t) => t.interpretNodes ms
      | (.error e, t) => (.error e, t) := by
  have hsome := s.evaluateAll_ne_none hns
  rw [interpretNodes, interpretNodes, evaluateAll_append]
  rcases hx : s.evaluateAll none ns with ⟨e | _ | v, t⟩
  · rfl
  · rw [hx] at hsome
    exact absurd rfl hsome
  · simp only [evaluateAll_last t (some v) hms]
    rfl

variable {u u' : Settings}

/-- A prelude is loaded where the same program would be run without a fault, and comes to the same
store. -/
theorem load_iff_interpret (h : u.maxRecursionDepth = u'.maxRecursionDepth) (store : Store)
    {text : SourceText} {ns : List Node} (hread : readAll text.content = .ok ns) :
    ((∃ t, (mk u store).load text = .ok t) ↔
      ∀ e, ((mk u' store).interpret text.content).1 ≠ .error (.fault e)) ∧
    ∀ t, (mk u store).load text = .ok t →
      t.settings = u ∧ t.store = ((mk u' store).interpret text.content).2.store := by
  have hsettings := settings_evaluateAll (mk u store) none ns
  obtain ⟨hresult, hstore⟩ := evaluateAll_settings h store none ns
  rw [interpret_of_readAll _ hread, interpretNodes]
  simp only [load, hread]
  generalize (mk u store).evaluateAll none ns = x, (mk u' store).evaluateAll none ns = y at *
  obtain ⟨x, t⟩ := x
  obtain ⟨y, t'⟩ := y
  change x = y at hresult
  subst hresult
  cases x with
  | error e => exact ⟨⟨nofun, fun h => absurd rfl (h e)⟩, nofun⟩
  | ok last =>
      cases last with
      | none | some v =>
          refine ⟨⟨fun _ => nofun, fun _ => ⟨t, rfl⟩⟩, ?_⟩
          rintro _ ⟨⟩
          exact ⟨hsettings, hstore⟩

variable {m : Type → Type} [Monad m] {host : Host m}

theorem start_of_fileText [LawfulMonad m] {path text : String} (hload : u.loadPrelude)
    (hpath : u.preludePath = some path) (hfile : host.fileText path = pure (.ok text)) :
    start host u = pure ((blank u).load ⟨text, path⟩) := by
  rw [start, if_pos hload]
  simp [hpath, Input.fromFile, hfile]

theorem start_blank (hload : u.loadPrelude = false) : start host u = pure (.ok (blank u)) := by
  rw [start, hload]
  rfl

end Session

/-- Texts that are joined by a line feed run as they do one by one, up to the first failure, and of a
text that cannot be read nothing is run. A prelude from a file is loaded just where, in a session
without one, it would run without a fault, and leaves the store that it would leave there. -/
theorem interpret_newline :
    (∀ (s : Session) {a b : String} {ns ms : List Node}, readAll a = .ok ns → ns ≠ [] →
      readAll b = .ok ms → ms ≠ [] →
      s.interpret (a ++ "\n" ++ b) =
        match s.interpret a with
        | (.ok _, t) => t.interpret b
        | (.error e, t) => (.error e, t)) ∧
    (∀ (s : Session) {source : String} {e : ReadError}, readAll source = .error e →
      s.interpret source = (.error (.read e), s)) ∧
    (∀ (m : Type → Type) [Monad m] [LawfulMonad m] (host : Host m) (settings bare : Settings)
      {path text : String} {ns : List Node},
      settings.loadPrelude → settings.preludePath = some path →
      host.fileText path = pure (.ok text) → readAll text = .ok ns →
      bare.loadPrelude = false → bare.maxRecursionDepth = settings.maxRecursionDepth →
      ∃ s x, Session.start host bare = pure (.ok s) ∧ s = .blank bare ∧
        Session.start host settings = pure x ∧
        ((∃ t, x = .ok t) ↔ ∀ e, (s.interpret text).1 ≠ .error (.fault e)) ∧
        ∀ t, x = .ok t → t.settings = settings ∧ t.store = (s.interpret text).2.store) := by
  refine ⟨?_, ?_, ?_⟩
  · intro s a b ns ms ha hns hb hms
    rw [s.interpret_of_readAll (readAll_newline ha hb), s.interpret_of_readAll ha,
      s.interpretNodes_append hns hms]
    rcases s.interpretNodes ns with ⟨e | v, t⟩
    · rfl
    · exact (t.interpret_of_readAll hb).symm
  · intro s source e h
    rw [Session.interpret, h]
  · intro m _ _ host settings bare path text ns hload hpath hfile hread hbare hlimit
    exact ⟨_, _, Session.start_blank hbare, rfl, Session.start_of_fileText hload hpath hfile,
      Session.load_iff_interpret hlimit.symm _ hread⟩

theorem interpret_newline_define :
    let a := "(define x 1) ; one"
    let b := "(define y (+ x 2)) y"
    let host : Host Id := ⟨fun _ => .ok a, .error .missing⟩
    (Session.bare.interpret (a ++ "\n" ++ b)).1 = .ok (.integer 3) ∧
    Session.bare.interpret "(+ 1 2" = (.error (.read (.unexpected ⟨1, 7⟩ .form)), .bare) ∧
    ∃ t, Session.start host { preludePath := some "one.lisp" } = pure (.ok t) ∧
      t.store = (Session.bare.interpret a).2.store := by
  intro a b host
  obtain ⟨hjoin, hunread, hstart⟩ := interpret_newline
  have ha : readAll a = .ok [.list [.symbol "define", .symbol "x", .integer 1]] := by
    decide +kernel
  have hb : readAll b = .ok [.list [.symbol "define", .symbol "y",
      .list [.symbol "+", .symbol "x", .integer 2]], .symbol "y"] := by
    decide +kernel
  refine ⟨?_, hunread .bare (by decide +kernel), ?_⟩
  · rw [hjoin .bare ha (List.cons_ne_nil _ _) hb (List.cons_ne_nil _ _)]
    decide +kernel
  · obtain ⟨_, x, -, rfl, hx, hiff, hstore⟩ :=
      hstart Id host { preludePath := some "one.lisp" } .bare rfl rfl rfl ha rfl rfl
    have hrun : (Session.bare.interpret a).1 = .ok (.symbol "x") := by decide +kernel
    have hfault : ∀ e, (Session.bare.interpret a).1 ≠ .error (.fault e) := by
      rw [hrun]
      exact nofun
    obtain ⟨t, rfl⟩ := hiff.2 hfault
    exact ⟨t, hx, (hstore t rfl).2⟩

end SmallLisp
