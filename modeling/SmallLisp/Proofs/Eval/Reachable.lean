import SmallLisp.Proofs.Eval.Soundness

namespace SmallLisp

variable {s : Store}

/-- The closure refers to a frame of the store and has a number that the store has given. -/
structure Closure.Within (s : Store) (c : Closure) : Prop where
  env : c.env < s.frames.size
  number : c.id < s.closures

/-- A value that can be at hand when the store is `s`. -/
def Value.Within (s : Store) (v : Value) : Prop := ∀ c, .closure c ∈ v.leaves → c.Within s

/-- A store to which frames are added, and in which frames and values at hand are used, one after the
other and in any order. An evaluation or application counts whether it fails or not. -/
inductive Store.Reachable : Store → Prop
  | empty : Reachable {}
  | newRoot {s : Store} (h : Reachable s) : Reachable s.newRoot.2
  | extend {s : Store} (h : Reachable s) {env : FrameId} (henv : env < s.frames.size)
      {pairs : List (String × Value)} (hpairs : ∀ b ∈ pairs, b.2.Within s) :
      Reachable (s.extend env pairs).2
  | define {s : Store} (h : Reachable s) (env : FrameId) (name : String) {v : Value}
      (hv : v.Within s) : Reachable (s.define env name v).2
  | close {s : Store} (h : Reachable s) (env : FrameId) (params : List String) (body : Node) :
      Reachable (s.close env params body).2
  | evaluate {s : Store} (h : Reachable s) (limit : Nat) {env : FrameId}
      (henv : env < s.frames.size) (n : Node) : Reachable ((evaluate limit env n).after s)
  | apply {s : Store} (h : Reachable s) (limit : Nat) {c : Closure} (hc : c.Within s)
      {args : List Value} (hargs : ∀ v ∈ args, v.Within s) :
      Reachable ((apply limit c args).after s)
  | applyToNodes {s : Store} (h : Reachable s) (limit : Nat) {env : FrameId}
      (henv : env < s.frames.size) {c : Closure} (hc : c.Within s) (operands : List Node) :
      Reachable ((applyToNodes limit env c operands).after s)

theorem Closure.Within.madeOf {c : Closure} (h : c.Within s) : c.MadeOf .any s :=
  ⟨h.env, h.number, trivial, False.elim⟩

theorem Value.Within.madeOf {v : Value} (h : v.Within s) : v.MadeOf .any s := by
  intro x hx
  cases x with
  | closure c => exact (h c hx).madeOf
  | boolean | integer | symbol | list => trivial

theorem Value.MadeOf.within {V : Vocabulary} {v : Value} (h : v.MadeOf V s) : v.Within s :=
  fun _ hc => ⟨(h _ hc).env, (h _ hc).number⟩

theorem Store.Reachable.madeOf (h : s.Reachable) : s.MadeOf .any := by
  induction h with
  | empty => exact .empty .any
  | newRoot _ ih => exact ih.newRoot
  | extend _ henv hpairs ih => exact (ih.extend henv fun b hb => (hpairs b hb).madeOf).1
  | define _ env name hv ih => exact (ih.define env name hv.madeOf).1
  | close _ env params body ih => exact ih.close
  | evaluate _ limit henv n ih => exact (ih.evaluate limit henv trivial).made
  | apply _ limit hc hargs ih =>
      exact (ih.apply limit hc.madeOf fun v hv => (hargs v hv).madeOf).made
  | applyToNodes _ limit henv hc operands ih =>
      exact (ih.applyToNodes limit henv hc.madeOf fun _ _ => trivial).made

/-- In a reachable store every frame is newer than the one it is in, so the way outward comes to an
end, for the depth of a frame and the names in its scope as for a search. Evaluation by plain
recursion comes to an end there too, with a value or a failure, and finds every operand that a form
reads. -/
theorem evaluation_ends (hs : s.Reachable) :
    (∀ (id : FrameId) (f : Frame) (p : FrameId),
      s.frames[id]? = some f → f.parent = some p → p < id) ∧
    ∀ env < s.frames.size,
      (∃ fs, (∀ k > env, s.walk k env = some fs) ∧ s.depth env = fs.length ∧
        s.names env = sortNames (fs.flatMap Frame.names)) ∧
      (∀ name, ∀ k > env, OpenRun.lookup name k env s = some (s.lookup env name, s)) ∧
      ∀ limit n, ∃ k, ∀ j ≥ k, OpenRun.eval limit j 0 env n s =
        some ((evaluate limit env n).outcome s, (evaluate limit env n).after s) := by
  have hmade := hs.madeOf
  refine ⟨fun id f p hf hp => (hmade id f hf).older p hp, fun env henv => ⟨?_, ?_, ?_⟩⟩
  · exact ⟨s.chain env, fun k hk => hmade.walk_eq hk henv, rfl, rfl⟩
  · exact fun name k hk => hmade.openLookup_eq hk henv name
  · exact fun limit n => (hmade.evaluate limit henv trivial).result

theorem evaluation_ends_runaway :
    let f := Node.list [.symbol "defn", .symbol "f", .list [.symbol "n"],
      .list [.symbol "f", .list [.symbol "+", .symbol "n", .integer 1]]]
    let n := Node.list [.symbol "f", .integer 0]
    let s := (evaluate 3 0 f).after (Store.newRoot {}).2
    s.Reachable ∧ ∃ k, ∀ j ≥ k, OpenRun.eval 3 j 0 0 n s =
      some (.error (.stackOverflow 3), (evaluate 3 0 n).after s) := by
  intro f n s
  have hs : s.Reachable := .evaluate (.newRoot .empty) 3 (by decide) f
  have hroot : 0 < s.frames.size := by decide
  have hoverflow : (evaluate 3 0 n).outcome s = .error (.stackOverflow 3) := by decide +kernel
  exact ⟨hs, hoverflow ▸ ((evaluation_ends hs).2 0 hroot).2.2 3 n⟩

end SmallLisp
