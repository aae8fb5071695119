import SmallLisp.Proofs.Eval.Coincidence

namespace SmallLisp

variable {V : Vocabulary} {s : Store} {call call' : Applying Store} {limit : Nat}

/-- Everything that has been done so far: the store that it left, the values that it came to, and
the nodes that were given to be evaluated. -/
structure History where
  store : Store
  results : List Value := []
  given : List Node := []

def Step.nodes : Step → List Node
  | evaluate _ n => [n]
  | applyToNodes _ _ operands => operands
  | program _ ns => ns
  | apply _ _ | use _ => []

structure Store.Plain (s : Store) : Prop where
  older : ∀ (id : FrameId) (f : Frame) (p : FrameId),
    s.frames[id]? = some f → f.parent = some p → p < id
  data : ∀ (id : FrameId) (f : Frame), s.frames[id]? = some f →
    ∀ b ∈ f.bindings, ∀ c, .closure c ∉ b.2.leaves

theorem Store.Plain.madeOf (hs : s.Plain) (hname : ∀ a, V.name a) : s.MadeOf V := by
  intro id f hf
  refine ⟨fun p => hs.older id f p hf, fun b hb x hx => ?_⟩
  cases x with
  | closure c => exact absurd hx (hs.data id f hf b hb c)
  | symbol name => exact hname name
  | boolean | integer | list => trivial

namespace History

/-- A closure is found in a result or in a binding of a frame, in lists at any depth. -/
def Has (h : History) (c : Closure) : Prop :=
  (∃ v ∈ h.results, .closure c ∈ v.leaves) ∨
    ∃ (id : FrameId) (f : Frame), h.store.frames[id]? = some f ∧
      ∃ b ∈ f.bindings, .closure c ∈ b.2.leaves

def Holds (h : History) (v : Value) : Prop := ∀ c, .closure c ∈ v.leaves → h.Has c

/-- Frames that there are, closures that have been found and values made of them can be used. -/
inductive Allows (h : History) : Step → Prop
  | evaluate {env : FrameId} (henv : env < h.store.frames.size) (n : Node) :
      Allows h (.evaluate env n)
  | apply {c : Closure} (hc : h.Has c) {args : List Value} (hargs : ∀ v ∈ args, h.Holds v) :
      Allows h (.apply c args)
  | applyToNodes {env : FrameId} (henv : env < h.store.frames.size) {c : Closure} (hc : h.Has c)
      (operands : List Node) : Allows h (.applyToNodes env c operands)
  | program {env : FrameId} (henv : env < h.store.frames.size) (ns : List Node) :
      Allows h (.program env ns)
  | newRoot : Allows h (.use fun s => s.newRoot.2)
  | extend {env : FrameId} (henv : env < h.store.frames.size) {pairs : List (String × Value)}
      (hpairs : ∀ b ∈ pairs, h.Holds b.2) : Allows h (.use fun s => (s.extend env pairs).2)
  | define (env : FrameId) (name : String) {v : Value} (hv : h.Holds v) :
      Allows h (.use fun s => (s.define env name v).2)

def next (h : History) (limit : Nat) (step : Step) : History :=
  let r : Run Store (Option Value) := step.run (SmallLisp.apply limit)
  { store := r.after h.store
    results := ((r.outcome h.store).toOption.bind id).toList ++ h.results
    given := step.nodes ++ h.given }

/-- Steps that were allowed, one after the other, from a store without closures on. -/
inductive Reachable : History → Prop
  | start {s : Store} (hs : s.Plain) : Reachable { store := s }
  | next {h : History} (hh : Reachable h) (limit : Nat) {step : Step} (hstep : h.Allows step) :
      Reachable (h.next limit step)

/-- All that there is when the history is over is made of `V`. -/
structure MadeOf (V : Vocabulary) (h : History) : Prop where
  store : h.store.MadeOf V
  results : ∀ v ∈ h.results, v.MadeOf V h.store

variable {h : History} {step : Step}

theorem MadeOf.has (hh : h.MadeOf V) {c : Closure} (hc : h.Has c) : c.MadeOf V h.store := by
  obtain ⟨v, hv, hc⟩ | ⟨id, f, hf, b, hb, hc⟩ := hc
  · exact hh.results v hv _ hc
  · exact (hh.store id f hf).values b hb _ hc

theorem MadeOf.holds (hh : h.MadeOf V) (hname : ∀ a, V.name a) {v : Value} (hv : h.Holds v) :
    v.MadeOf V h.store := by
  intro x hx
  cases x with
  | closure c => exact hh.has (hv c hx)
  | symbol name => exact hname name
  | boolean | integer | list => trivial

theorem coincide_use {f : Store → Store}
    (hf : ∀ t, t.MadeOf V → s.Before t → (f t).MadeOf V ∧ t.Before (f t)) :
    Coincide V (Value.AnyMadeOf V) s ((Step.use f).run call) ((Step.use f).run call') := by
  intro t ht hst
  obtain ⟨hmade, hbefore⟩ := hf t ht hst
  refine ⟨rfl, hmade, hbefore, ?_⟩
  rintro _ ⟨⟩ v hv
  cases hv

theorem MadeOf.coincide (hh : h.MadeOf V) (hname : ∀ a, V.name a) (hstep : h.Allows step)
    (hnodes : ∀ n ∈ step.nodes, V.node n) (hcall : Sound.Applies V limit 0 call)
    (hcall' : Sound.Applies V limit 0 call') :
    Coincide V (Value.AnyMadeOf V) h.store (step.run call) (step.run call') := by
  have hsome {s : Store} {r r' : Run Store Value}
      (hr : Coincide V (fun t v => v.MadeOf V t) s r r') :
      Coincide V (Value.AnyMadeOf V) s (do return some (← r)) (do return some (← r')) := by
    refine hr.bind fun t v hst hv => .pure fun u htu w hw => ?_
    cases hw
    exact hv.mono htu
  cases hstep with
  | evaluate henv n =>
      exact hsome (coincide_eval hcall hcall' henv (hnodes n (List.mem_singleton_self n)))
  | apply hc hargs =>
      exact hsome (coincide_apply hcall hcall' (hh.has hc) fun v hv => hh.holds hname (hargs v hv))
  | applyToNodes henv hc operands =>
      refine .bind (P := fun _ _ => True) (.ofExcept fun _ _ _ _ => trivial) fun t _ hst _ => ?_
      have hoperands := coincide_evalAll hcall hcall' henv hnodes
      -- the operands and the application that follows them are one run that comes to a value
      rw [← bind_assoc, ← bind_assoc]
      refine hsome (hoperands.mono hst |>.bind fun u vs htu hvs => ?_)
      exact coincide_apply hcall hcall' ((hh.has hc).mono (hst.trans htu)) hvs
  | program henv ns => exact coincide_inOrder hcall hcall' henv hnodes nofun
  | newRoot =>
      refine coincide_use fun t ht _ => ?_
      have hsize : t.newRoot.2.frames.size = t.frames.size + 1 := Array.size_push _
      exact ⟨ht.newRoot, by omega, Nat.le_refl _⟩
  | extend henv hpairs =>
      refine coincide_use fun t ht hst => ?_
      obtain ⟨hmade, hbefore, -⟩ := ht.extend (Nat.lt_of_lt_of_le henv hst.frames) fun b hb =>
        (hh.holds hname (hpairs b hb)).mono hst
      exact ⟨hmade, hbefore⟩
  | define env name hv =>
      exact coincide_use fun t ht hst => ht.define env name ((hh.holds hname hv).mono hst)

theorem mem_results_next {v : Value}
    (hv : (step.run (SmallLisp.apply limit) : Run Store (Option Value)).outcome h.store =
      .ok (some v)) :
    v ∈ (h.next limit step).results := by
  change v ∈ (_ : Option Value).toList ++ _
  rw [hv]
  exact List.mem_cons_self

/-- The step lemma: the store only grows, and a value that the step comes to is made of the same. -/
theorem MadeOf.next (hh : h.MadeOf V) (hname : ∀ a, V.name a) (limit : Nat)
    (hstep : h.Allows step) (hnodes : ∀ n ∈ step.nodes, V.node n) :
    (h.next limit step).MadeOf V ∧ h.store.Before (h.next limit step).store := by
  have hsound : Sound.Applies V limit 0 (SmallLisp.apply limit) :=
    Sound.applies V limit (Nat.zero_add limit)
  obtain ⟨-, hstore, hbefore, hvalue⟩ :=
    hh.coincide hname hstep hnodes hsound hsound h.store hh.store (.refl _)
  refine ⟨⟨hstore, List.forall_mem_append.2 ⟨fun v hv => ?_, fun v hv => ?_⟩⟩, hbefore⟩
  · rw [Option.mem_toList] at hv
    obtain ⟨o, ho, rfl⟩ := Option.bind_eq_some_iff.1 hv
    refine hvalue _ ?_ v rfl
    generalize (step.run (SmallLisp.apply limit)).outcome h.store = x at ho ⊢
    cases x with
    | error e => cases ho
    | ok o => exact congrArg Except.ok (Option.some.inj ho)
  · exact (hh.results v hv).mono hbefore

theorem Reachable.madeOf (hh : h.Reachable) (hname : ∀ a, V.name a)
    (hgiven : ∀ n ∈ h.given, V.node n) : h.MadeOf V := by
  induction hh with
  | start hs => exact ⟨hs.madeOf hname, nofun⟩
  | next _ limit hstep ih =>
      obtain ⟨hnodes, hgiven⟩ := List.forall_mem_append.1 hgiven
      exact ((ih hgiven).next hname limit hstep hnodes).1

end History

end SmallLisp
