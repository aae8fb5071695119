import SmallLisp.Proofs.Run
import SmallLisp.Session

namespace SmallLisp.Session

theorem perform_eq {α : Type} (s : Session) (r : Run Store α) :
    s.perform r = (r.outcome s.store, ⟨s.settings, r.after s.store⟩) := by
  obtain ⟨settings, store⟩ := s
  rw [perform]
  cases h : r store with
  | ok a t => rw [Run.outcome_of_ok h, Run.after_of_ok h]
  | error e t => rw [Run.outcome_of_error h, Run.after_of_error h]

theorem evaluate_eq (s : Session) (n : Node) :
    s.evaluate n =
      ((SmallLisp.evaluate s.settings.maxRecursionDepth root n).outcome s.store,
        ⟨s.settings, (SmallLisp.evaluate s.settings.maxRecursionDepth root n).after s.store⟩) :=
  s.perform_eq _

theorem interpret_of_readAll (s : Session) {source : String} {ns : List Node}
    (h : readAll source = .ok ns) : s.interpret source = s.interpretNodes ns := by
  rw [interpret, h]

theorem evaluateAll_append (s : Session) (last : Option Value) (ns ms : List Node) :
    s.evaluateAll last (ns ++ ms) =
      match s.evaluateAll last ns with
      | (.ok v, t) => t.evaluateAll v ms
      | (.error e, t) => (.error e, t) := by
  induction ns generalizing s last with
  | nil => rfl
  | cons n ns ih =>
      rw [List.cons_append, evaluateAll, evaluateAll]
      rcases s.evaluate n with ⟨e | v, t⟩
      · rfl
      · exact ih t (some v)

theorem evaluateAll_last (s : Session) (last : Option Value) {ns : List Node} (h : ns ≠ []) :
    s.evaluateAll last ns = s.evaluateAll none ns := by
  cases ns with
  | nil => exact absurd rfl h
  | cons n ns => rfl

theorem evaluateAll_some (s : Session) (v : Value) (ns : List Node) :
    (s.evaluateAll (some v) ns).1 ≠ .ok none := by
  induction ns generalizing s v with
  | nil => exact nofun
  | cons n ns ih =>
      rw [evaluateAll]
      rcases s.evaluate n with ⟨e | w, t⟩
      · exact nofun
      · exact ih t w

theorem evaluateAll_ne_none (s : Session) {ns : List Node} (h : ns ≠ []) :
    (s.evaluateAll none ns).1 ≠ .ok none := by
  obtain ⟨n, ns, rfl⟩ := List.exists_cons_of_ne_nil h
  rw [evaluateAll]
  rcases s.evaluate n with ⟨e | v, t⟩
  · exact nofun
  · exact t.evaluateAll_some v ns

theorem evaluateAll_settings {u u' : Settings} (h : u.maxRecursionDepth = u'.maxRecursionDepth)
    (store : Store) (last : Option Value) (ns : List Node) :
    ((mk u store).evaluateAll last ns).1 = ((mk u' store).evaluateAll last ns).1 ∧
      ((mk u store).evaluateAll last ns).2.store = ((mk u' store).evaluateAll last ns).2.store := by
  induction ns generalizing store last with
  | nil => exact ⟨rfl, rfl⟩
  | cons n ns ih =>
      simp only [evaluateAll, evaluate_eq, h]
      cases (SmallLisp.evaluate u'.maxRecursionDepth root n).outcome store with
      | error e => exact ⟨rfl, rfl⟩
      | ok v => exact ih _ (some v)

theorem settings_evaluateAll (s : Session) (last : Option Value) (ns : List Node) :
    (s.evaluateAll last ns).2.settings = s.settings := by
  induction ns generalizing s last with
  | nil => rfl
  | cons n ns ih =>
      rw [evaluateAll, evaluate_eq]
      cases (SmallLisp.evaluate s.settings.maxRecursionDepth root n).outcome s.store with
      | error e => rfl
      | ok v => exact ih _ (some v)

theorem evaluateAll_inOrder (u : Settings) (s : Store) (last : Option Value)
    (ns : List Node) :
    let r := SmallLisp.evaluateInOrder (apply u.maxRecursionDepth) root last ns
    (mk u s).evaluateAll last ns = (r.outcome s, ⟨u, r.after s⟩) := by
  intro r
  induction ns generalizing s last with
  | nil => rfl
  | cons n ns ih =>
      simp only [evaluateAll, evaluate_eq]
      cases hn : SmallLisp.evaluate u.maxRecursionDepth root n s with
      | error e t =>
          have hr : r s = .error e t := Run.bind_of_error hn
          rw [Run.outcome_of_error hn, Run.outcome_of_error hr, Run.after_of_error hn,
            Run.after_of_error hr]
      | ok v t =>
          have hr : r s = evaluateInOrder (apply u.maxRecursionDepth) root (some v) ns t :=
            Run.bind_of_ok hn
          rw [Run.outcome_of_ok hn, Run.outcome_of_eq hr, Run.after_of_ok hn, Run.after_of_eq hr]
          exact ih t (some v)

end SmallLisp.Session
