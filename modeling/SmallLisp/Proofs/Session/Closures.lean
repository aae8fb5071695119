import Mathlib.Data.List.Induction
import SmallLisp.Proofs.Eval.Guarded
import SmallLisp.Proofs.Eval.History
import SmallLisp.Proofs.Prelude.Sessions

namespace SmallLisp

namespace Session

variable {u : Settings} {c : Call}

def Call.nodes : Call → List Node
  | interpret source => (readAll source).toOption.getD []
  | evaluate n => [n]

def answer (s : Session) : Call → Option Value
  | .interpret source => (s.interpret source).1.toOption
  | .evaluate n => (s.evaluate n).1.toOption

theorem call_eq (s : Session) (c : Call) :
    s.call c = (s.evaluateAll none c.nodes).2 ∧
      ∀ v, s.answer c = some v → (s.evaluateAll none c.nodes).1 = .ok (some v) := by
  cases c with
  | evaluate n =>
      rw [call, answer, Call.nodes, evaluateAll]
      rcases s.evaluate n with ⟨e | v, t⟩
      · exact ⟨rfl, by rintro _ ⟨⟩⟩
      · exact ⟨rfl, fun w hw => congrArg (Except.ok ∘ some) (Option.some.inj hw)⟩
  | interpret source =>
      rw [call, answer, Call.nodes]
      cases hread : readAll source with
      | error e =>
          rw [Session.interpret, hread]
          exact ⟨rfl, by rintro _ ⟨⟩⟩
      | ok ns =>
          rw [s.interpret_of_readAll hread, interpretNodes]
          change _ = (s.evaluateAll none ns).2 ∧ ∀ v, _ → (s.evaluateAll none ns).1 = _
          rcases s.evaluateAll none ns with ⟨e | _ | v, t⟩
          · exact ⟨rfl, by rintro _ ⟨⟩⟩
          · exact ⟨rfl, by rintro _ ⟨⟩⟩
          · exact ⟨rfl, fun w hw => congrArg (Except.ok ∘ some) (Option.some.inj hw)⟩

theorem eq_call_of_load {s t : Session} {text : SourceText} (h : s.load text = .ok t) :
    t = s.call (.interpret text.content) := by
  rw [(s.call_eq _).1, Call.nodes]
  rw [load] at h
  cases hread : readAll text.content with
  | error e => simp [hread] at h
  | ok ns =>
      change t = (s.evaluateAll none ns).2
      rcases hns : s.evaluateAll none ns with ⟨e | v, u⟩
      · simp [hread, hns] at h
      · simpa [hread, hns] using h.symm

/-- What is called in a session, one call after the other, as a history. -/
def history (u : Settings) (calls : List Call) : History :=
  calls.foldl (fun h c => h.next u.maxRecursionDepth (.program root c.nodes))
    { store := (blank u).store }

theorem history_append (calls : List Call) :
    history u (calls ++ [c]) =
      (history u calls).next u.maxRecursionDepth (.program root c.nodes) := by
  rw [history, List.foldl_append]
  rfl

theorem plain_blank (u : Settings) : (blank u).store.Plain := by
  have hframe {id : FrameId} {f : Frame} (hf : (blank u).store.frames[id]? = some f) :
      f = ⟨[], none⟩ := by
    cases id with
    | zero => exact (Option.some.inj hf).symm
    | succ id => cases hf
  refine ⟨fun id f p hf hp => ?_, fun id f hf b hb => ?_⟩
  · rw [hframe hf] at hp
    cases hp
  · rw [hframe hf] at hb
    cases hb

theorem history_spec (u : Settings) (calls : List Call) :
    (history u calls).Reachable ∧ root < (history u calls).store.frames.size ∧
      (blank u).callAll calls = ⟨u, (history u calls).store⟩ := by
  induction calls using List.reverseRecOn with
  | nil => exact ⟨.start (plain_blank u), Nat.zero_lt_one, rfl⟩
  | append_singleton calls c ih =>
      obtain ⟨hreachable, hroot, hcalls⟩ := ih
      have hstep := History.Allows.program hroot c.nodes
      have hmade : (history u calls).MadeOf .any :=
        hreachable.madeOf (fun _ => trivial) fun _ _ => trivial
      obtain ⟨-, hbefore⟩ :=
        hmade.next (fun _ => trivial) u.maxRecursionDepth hstep fun _ _ => trivial
      rw [history_append, callAll, List.foldl_append]
      refine ⟨hreachable.next _ hstep, Nat.lt_of_lt_of_le hroot hbefore.frames, ?_⟩
      change ((blank u).callAll calls).call c = _
      rw [hcalls, (call_eq _ c).1, evaluateAll_inOrder]
      rfl

end Session

/-- Whatever is called in a session is a history, in which the values that were answered are found;
a prelude is loaded as a program is interpreted. In every history the closures that are found are
well formed: no parameter comes twice, the body is part of a node that was given, and the scope leads to
a root. So in whatever is done next, every application that has its arguments and finds room binds
each parameter to its own argument and nothing else: an evaluator that checks this before it enters
a body, and does anything else where it is not so, comes to the same. -/
theorem closures_wellFormed :
    (∀ (u : Settings) (calls : List Session.Call),
      let s := (Session.blank u).callAll calls
      let h := Session.history u calls
      h.Reachable ∧ s = ⟨u, h.store⟩ ∧
        (∀ c v, s.answer c = some v → v ∈ (Session.history u (calls ++ [c])).results) ∧
        ∀ text t, s.load text = .ok t → t = s.call (.interpret text.content)) ∧
    ∀ h : History, h.Reachable →
      (∀ c, h.Has c → c.WellFormed h.given h.store ∧
        ∀ args : List Value, args.length = c.arity → c.AppliesExactly h.given h.store args) ∧
      ∀ limit step, h.Allows step → ∀ check other,
        (∀ s c args, c.AppliesExactly (step.nodes ++ h.given) s args → check s c args) →
        step.run (applyGuarded check other limit limit) h.store =
          step.run (apply limit : Applying Store) h.store := by
  refine ⟨fun u calls => ?_, fun h hh => ⟨fun c hc => ?_, ?_⟩⟩
  · obtain ⟨hreachable, -, hcalls⟩ := Session.history_spec u calls
    refine ⟨hreachable, hcalls, fun c v hv => ?_, fun text t => Session.eq_call_of_load⟩
    have hv := (Session.call_eq _ c).2 v hv
    rw [hcalls, Session.evaluateAll_inOrder] at hv
    rw [Session.history_append]
    exact History.mem_results_next hv
  · have hmade : h.MadeOf (.ofParts h.given) :=
      hh.madeOf (fun _ => trivial) fun n hn => ⟨n, hn, .self⟩
    have hgood := (hmade.has hc).wellFormed hmade.store
    exact ⟨hgood, fun args => hgood.appliesExactly⟩
  · intro limit step hstep check other hcheck
    let V := Vocabulary.ofParts (step.nodes ++ h.given)
    have hnode : ∀ n ∈ step.nodes ++ h.given, V.node n := fun n hn => ⟨n, hn, .self⟩
    obtain ⟨hnodes, hgiven⟩ := List.forall_mem_append.1 hnode
    have hmade : h.MadeOf V := hh.madeOf (fun _ => trivial) hgiven
    have hguarded : Sound.Applies V limit 0 (applyGuarded check other limit limit) :=
      Sound.applies_guarded other hcheck (Nat.zero_add limit)
    have hsound : Sound.Applies V limit 0 (apply limit) :=
      Sound.applies V limit (Nat.zero_add limit)
    have hrun := hmade.coincide (fun _ => trivial) hstep hnodes hguarded hsound
    exact (hrun h.store hmade.store (.refl _)).eq

def sumLater : Node :=
  .list [.symbol "defn", .symbol "f", .list [.symbol "x", .symbol "y"],
    .list [.symbol "lambda", .list [.symbol "z"],
      .list [.symbol "+", .symbol "x", .list [.symbol "+", .symbol "y", .symbol "z"]]]]

def sumKept : Node :=
  .list [.symbol "cons", .list [.symbol "f", .integer 1, .integer 2],
    .list [.symbol "quote", .list []]]

theorem closures_wellFormed_sumKept :
    let u : Settings := { maxRecursionDepth := 4 }
    let calls : List Session.Call := [.evaluate sumLater, .evaluate sumKept]
    let h := Session.history u calls
    let c : Closure := ⟨1, ["z"],
      .list [.symbol "+", .symbol "x", .list [.symbol "+", .symbol "y", .symbol "z"]], 1⟩
    let step := Step.apply c [.integer 3]
    let guarded := applyGuarded (fun _ c _ => decide c.params.Nodup)
      (fun _ _ => throw .divisionByZero)
    h.results.head? = some (.list [.closure c]) ∧ c.WellFormed h.given h.store ∧
      c.AppliesExactly h.given h.store [.integer 3] ∧
      step.run (guarded 4 4) h.store = step.run (apply 4 : Applying Store) h.store ∧
      ((step.run (apply 4 : Applying Store)).outcome h.store).toOption =
        some (some (.integer 6)) := by
  intro u calls h c step guarded
  obtain ⟨hreachable, -⟩ := closures_wellFormed.1 u calls
  obtain ⟨hfound, hrun⟩ := closures_wellFormed.2 h hreachable
  have hresult : h.results.head? = some (.list [.closure c]) := by decide +kernel
  have hc : h.Has c := .inl ⟨_, List.mem_of_head? hresult, List.mem_singleton_self _⟩
  have hstep : h.Allows step := .apply hc (List.forall_mem_singleton.2 fun c hc => nomatch hc)
  obtain ⟨hgood, happlies⟩ := hfound c hc
  refine ⟨hresult, hgood, happlies _ rfl, hrun 4 step hstep _ _ ?_, by decide +kernel⟩
  exact fun s c args hc => decide_eq_true hc.wellFormed.distinct

end SmallLisp
