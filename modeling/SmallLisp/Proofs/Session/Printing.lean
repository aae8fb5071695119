import SmallLisp.Proofs.Eval.Soundness
import SmallLisp.Proofs.Prelude.Sessions
import SmallLisp.Proofs.Session
import SmallLisp.Proofs.Value.Data

namespace SmallLisp

def Vocabulary.readable : Vocabulary where
  name a := IsReadable a.toList
  node n := ∀ name ∈ n.symbols, IsReadable name.toList
  symbol h := h _ List.mem_cons_self
  item h hn name hname := h name (Node.mem_symbolsAll.2 ⟨_, hn, hname⟩)

theorem readable_of_readAll {source : String} {ns : List Node} (h : readAll source = .ok ns) :
    ∀ n ∈ ns, Vocabulary.readable.node n := by
  obtain ⟨-, hsym⟩ := exists_forms_iff.1 (readAll_iff_forms.1 h)
  exact fun n hn name hname => hsym name (Node.mem_symbolsAll.2 ⟨n, hn, hname⟩)

namespace Session

/-- All symbols in the store are readable, those in the bodies of closures included. -/
structure Readable (s : Session) : Prop where
  store : s.store.MadeOf .readable
  root : root < s.store.frames.size

namespace Readable

variable {s t : Session} {ns : List Node}

theorem blank (settings : Settings) : (Session.blank settings).Readable :=
  ⟨(Store.MadeOf.empty .readable).newRoot, Nat.zero_lt_one⟩

theorem evaluate (h : s.Readable) {n : Node} (hn : Vocabulary.readable.node n) :
    (s.evaluate n).2.Readable ∧
      ∀ v, (s.evaluate n).1 = .ok v → v.MadeOf .readable (s.evaluate n).2.store := by
  obtain ⟨-, hmade, hbefore, hvalue⟩ :=
    h.store.evaluate s.settings.maxRecursionDepth h.root hn
  rw [evaluate_eq]
  exact ⟨⟨hmade, Nat.lt_of_lt_of_le h.root hbefore.frames⟩, hvalue⟩

theorem evaluateAll (h : s.Readable) (hns : ∀ n ∈ ns, Vocabulary.readable.node n)
    (last : Option Value) (hlast : ∀ v, last = some v → v.MadeOf .readable s.store) :
    (s.evaluateAll last ns).2.Readable ∧ ∀ v, (s.evaluateAll last ns).1 = .ok (some v) →
      v.MadeOf .readable (s.evaluateAll last ns).2.store := by
  induction ns generalizing s last with
  | nil => exact ⟨h, fun v hv => hlast v (Except.ok.inj hv)⟩
  | cons n ns ih =>
      obtain ⟨hn, hns⟩ := List.forall_mem_cons.1 hns
      obtain ⟨ht, hvalue⟩ := h.evaluate hn
      rw [Session.evaluateAll]
      rcases hx : s.evaluate n with ⟨e | v, t⟩
      · rw [hx] at ht
        exact ⟨ht, fun v hv => by cases hv⟩
      · rw [hx] at ht hvalue
        refine ih ht hns (some v) ?_
        rintro _ ⟨⟩
        exact hvalue v rfl

theorem interpret (h : s.Readable) (source : String) :
    (s.interpret source).2.Readable ∧ ∀ v, (s.interpret source).1 = .ok v →
      v.MadeOf .readable (s.interpret source).2.store := by
  cases hread : readAll source with
  | error e =>
      rw [Session.interpret, hread]
      exact ⟨h, fun v hv => by cases hv⟩
  | ok ns =>
      have hall := h.evaluateAll (readable_of_readAll hread) none (fun v hv => by cases hv)
      rw [s.interpret_of_readAll hread, interpretNodes]
      rcases hx : s.evaluateAll none ns with ⟨e | _ | w, t⟩
      · rw [hx] at hall
        exact ⟨hall.1, fun v hv => by cases hv⟩
      · rw [hx] at hall
        exact ⟨hall.1, fun v hv => by cases hv⟩
      · rw [hx] at hall
        refine ⟨hall.1, ?_⟩
        rintro _ ⟨⟩
        exact hall.2 w rfl

theorem interpretAll (h : s.Readable) (sources : List String) :
    (s.callAll (sources.map .interpret)).Readable := by
  induction sources generalizing s with
  | nil => exact h
  | cons source sources ih => exact ih (h.interpret source).1

theorem load (h : s.Readable) {text : SourceText} (ht : s.load text = .ok t) : t.Readable := by
  rw [Session.load] at ht
  cases hread : readAll text.content with
  | error e =>
      rw [hread] at ht
      cases ht
  | ok ns =>
      have hall := h.evaluateAll (readable_of_readAll hread) none (fun v hv => by cases hv)
      simp only [hread] at ht
      rcases hx : s.evaluateAll none ns with ⟨e | last, u⟩
      · rw [hx] at ht
        cases ht
      · rw [hx] at ht hall
        cases ht
        exact hall.1

theorem start {host : Host Id} {settings : Settings}
    (h : Session.start host settings = pure (.ok s)) : s.Readable := by
  have hblank := Readable.blank settings
  rw [Session.start] at h
  cases hload : settings.loadPrelude with
  | false =>
      rw [hload] at h
      cases h
      exact hblank
  | true =>
      rw [hload, if_pos rfl] at h
      cases hpath : settings.preludePath with
      | none =>
          rw [hpath] at h
          exact hblank.load h
      | some path =>
          rw [hpath] at h
          change (Input.fromFile host path >>= _) = _ at h
          generalize Input.fromFile host path = x at h
          cases x with
          | ok text => exact hblank.load h
          | error e => cases h

end Readable

end Session

/-- In every session, whatever it has run, a result without closures is read back from what it prints
as. -/
theorem readOne_interpret {host : Host Id} {settings : Settings} {s : Session}
    (hstart : Session.start host settings = pure (.ok s)) (sources : List String)
    {source : String} {v : Value}
    (hv : ((s.callAll (sources.map .interpret)).interpret source).1 = .ok v)
    (hdata : ∀ c, .closure c ∉ v.leaves) :
    ∃ n, readOne v.text = .ok n ∧ Value.ofNode n = v := by
  have hs : (s.callAll (sources.map .interpret)).Readable :=
    (Session.Readable.start hstart).interpretAll sources
  have hmade := (hs.interpret source).2 v hv
  exact Value.exists_readOne hdata fun name hname => hmade _ hname

theorem readOne_interpret_quote :
    let host : Host Id := ⟨fun _ => .ok "(define q 'quote)", .error .missing⟩
    let settings : Settings := { preludePath := some "quote.lisp" }
    let t : Session := ⟨settings, Store.flat [("q", .symbol "quote")] 0⟩
    let v := Value.list [.symbol "quote", .symbol "a"]
    Session.start host settings = pure (.ok t) ∧
    ((t.callAll [.interpret "(head q)"]).interpret "(cons q '(a))").1 = .ok v ∧
    v.text = "'a" ∧ ∃ n, readOne v.text = .ok n ∧ Value.ofNode n = v := by
  intro host settings t v
  have hread : readAll "(define q 'quote)" =
      .ok [.form "define" [.symbol "q", .quoted (.symbol "quote")]] := by decide +kernel
  have hload : (Session.blank settings).load ⟨"(define q 'quote)", "quote.lisp"⟩ = .ok t :=
    Session.load_of_evaluateAll (v := some (.symbol "q")) hread rfl
  have hstart : Session.start host settings = pure (.ok t) := by
    rw [Session.start, if_pos rfl]
    exact hload
  have hv : ((t.callAll [.interpret "(head q)"]).interpret "(cons q '(a))").1 = .ok v := by
    decide +kernel
  have hdata : ∀ c, .closure c ∉ v.leaves := by simp [v, Value.leaves, Value.leavesAll]
  exact ⟨hstart, hv, by decide +kernel, readOne_interpret hstart ["(head q)"] hv hdata⟩

end SmallLisp
