import SmallLisp.Proofs.Eval.Erasure
import SmallLisp.Proofs.Session
import SmallLisp.Repl

namespace SmallLisp

namespace Session

theorem fst_observe {α : Type} (s : Session) {r : Run Logged α} {r' : Run Store α}
    (h : Run.Erases r r') : (s.observe r).1 = s.perform r' := by
  obtain ⟨settings, store⟩ := s
  have hstore : r' store = Run.erase (r { store }) := h { store }
  rw [observe, perform, hstore]
  cases r { store } <;> rfl

theorem fst_evaluateAllLogged (s : Session) (ns : List Node) :
    (s.evaluateAllLogged ns).1 = s.evaluateAll none ns := by
  have h := (Run.erases_lockstep (σ := Logged)).evaluateInOrder
    (fun _ => Run.erases_apply s.settings.maxRecursionDepth) root none ns
  rw [evaluateAllLogged, s.fst_observe h, perform_eq]
  exact (evaluateAll_inOrder s.settings s.store none ns).symm

/-- A program does the same whether it is logged or not. -/
theorem fst_interpretLogged (s : Session) (source : String) :
    (s.interpretLogged source).1 = s.interpret source := by
  rw [interpretLogged, interpret]
  cases readAll source with
  | error e => rfl
  | ok ns =>
      have h := s.fst_evaluateAllLogged ns
      dsimp only
      rw [interpretNodes, ← h]
      rcases s.evaluateAllLogged ns with ⟨⟨_ | _ | _, _⟩, _⟩ <;> rfl

theorem fst_loadLogged (s : Session) (text : SourceText) : (s.loadLogged text).1 = s.load text := by
  rw [loadLogged, load]
  cases readAll text.content with
  | error e => rfl
  | ok ns =>
      have h := s.fst_evaluateAllLogged ns
      dsimp only
      rw [← h]
      rcases s.evaluateAllLogged ns with ⟨⟨_ | _, _⟩, _⟩ <;> rfl

variable {m : Type → Type} [Monad m] [LawfulMonad m]

theorem fst_startLogged (host : Host m) (settings : Settings) :
    Prod.fst <$> startLogged host settings = start host settings := by
  rw [startLogged, start]
  split
  · split
    · rw [map_pure, fst_loadLogged]
    · rw [map_bind]
      refine bind_congr fun x => ?_
      cases x with
      | error e => rw [map_pure]
      | ok text =>
          dsimp only
          rw [← fst_loadLogged, map_pure]
  · rw [map_pure]

end Session

namespace Repl

theorem fst_feedLogged (r : Repl) (line : String) : (r.feedLogged line).1 = r.feed line := by
  rw [feedLogged, feed]
  split
  · rfl
  · rcases r.buffer.push line with ⟨_ | input, buffer⟩
    · rfl
    · have h := r.session.fst_interpretLogged input
      dsimp only
      rw [← h]
      rcases r.session.interpretLogged input with ⟨⟨_ | _, _⟩, _⟩ <;> rfl

theorem fst_repliesLogged (r : Repl) (lines : List (Except FileError String)) :
    (r.repliesLogged lines).1 = r.replies lines := by
  induction lines generalizing r with
  | nil => rfl
  | cons line lines ih =>
      cases line with
      | error e => rfl
      | ok line =>
          rw [repliesLogged, replies, ← fst_feedLogged]
          rcases r.feedLogged line with ⟨⟨reply, r'⟩, notices⟩
          cases reply with
          | farewell => rfl
          | silence | value | failure | help | names | unknownCommand =>
              exact congrArg (fun x => (_ :: x.1, x.2)) (ih r')

end Repl

end SmallLisp
