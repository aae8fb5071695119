import SmallLisp.Proofs.Eval.Frames
import SmallLisp.Proofs.Eval.Mentions
import SmallLisp.Proofs.Eval.Reachable

namespace SmallLisp

structure Renumbering where
  frame : FrameId → FrameId
  closure : Nat → Nat

def raise (old shift i : Nat) : Nat := if i < old then i else i + shift

theorem raise_injective (old shift : Nat) : Function.Injective (raise old shift) := by
  intro i j h
  rw [raise, raise] at h
  split at h <;> split at h <;> omega

/-- What is made from `s` on is numbered as it is from `t` on. -/
def Renumbering.onto (s t : Store) : Renumbering where
  frame := raise s.frames.size (t.frames.size - s.frames.size)
  closure := raise s.closures (t.closures - s.closures)

variable {ρ : Renumbering} {s t u : Store}

def Closure.renumber (ρ : Renumbering) (c : Closure) : Closure :=
  { c with id := ρ.closure c.id, env := ρ.frame c.env }

namespace Value

mutual

def renumber (ρ : Renumbering) : Value → Value
  | list items => list (renumberAll ρ items)
  | closure c => closure (c.renumber ρ)
  | v => v

def renumberAll (ρ : Renumbering) : List Value → List Value
  | [] => []
  | v :: vs => renumber ρ v :: renumberAll ρ vs

end

mutual

theorem renumber_of_lift : {v w : Value} → v.Lift (fun c d => d = c.renumber ρ) w → w = v.renumber ρ
  | _, _, .boolean _ | _, _, .integer _ | _, _, .symbol _ => rfl
  | _, _, .list h => congrArg list (renumberAll_of_liftAll h)
  | _, _, .closure h => congrArg closure h

theorem renumberAll_of_liftAll :
    {vs ws : List Value} → LiftAll (fun c d => d = c.renumber ρ) vs ws → ws = renumberAll ρ vs
  | _, _, .nil => rfl
  | _, _, .cons h hs => congrArg₂ List.cons (renumber_of_lift h) (renumberAll_of_liftAll hs)

end

end Value

def Frame.renumber (ρ : Renumbering) (f : Frame) : Frame :=
  ⟨f.bindings.map fun b => (b.1, b.2.renumber ρ), f.parent.map ρ.frame⟩

def Store.applyEach (limit : Nat) (s : Store) (calls : List (Closure × List Value)) : Store :=
  calls.foldl (fun s call => (apply limit call.1 call.2).after s) s

def Run.Growing {α : Type} (r : Run Store α) : Prop := ∀ s, s.closures ≤ (r.after s).closures

theorem Run.growing_lockstep :
    Lockstep (τ := Store) fun _ r (_ : Run Store _) => r.Growing where
  pure _ _ s := Nat.le_refl s.closures
  throw _ _ s := Nat.le_refl s.closures
  bind {_ _ _ r₁ _ f₁ _} h hf s := by
    obtain he | ⟨a, he⟩ := Run.after_bind r₁ f₁ s
    · rw [he]
      exact h s
    · rw [he]
      exact Nat.le_trans (h s) (hf a _)
  note _ _ s := Nat.le_refl s.closures
  lookup env name s := Nat.le_of_eq (by rw [Run.after_ask])
  close _ _ _ s := Nat.le_succ s.closures
  define env name v s := by
    rw [Run.after_attempt]
    change s.closures ≤ (s.define env name v).2.closures
    rw [Store.define]
    split <;> exact Nat.le_refl _
  extend {_ _ r₁ _} parent pairs h s := h s.frames.size (s.extend parent pairs).2

/-- The frames of `s` are in `t` as they were, and no number that a closure of `s` has is given anew. -/
structure Store.Later (s t : Store) : Prop where
  keeps : Keeps s t
  closures : s.closures ≤ t.closures

theorem Store.Later.trans (h : s.Later t) (h' : t.Later u) : s.Later u :=
  ⟨h.keeps.trans h'.keeps, Nat.le_trans h.closures h'.closures⟩

theorem later_apply (limit : Nat) (c : Closure) (args : List Value) (s : Store) :
    s.Later ((apply limit c args).after s) where
  keeps := Extends.keeps_of_forall fun env =>
    Run.extending_lockstep.applyWithin Run.extending_within limit limit env c args s
  closures := Run.growing_lockstep.applyWithin (fun h => by rwa [Run.within_store]) limit limit
    s.frames.size c args s

theorem later_applyEach (limit : Nat) (s : Store) (calls : List (Closure × List Value)) :
    s.Later (s.applyEach limit calls) := by
  induction calls generalizing s with
  | nil => exact ⟨.refl s, Nat.le_refl _⟩
  | cons call calls ih => exact (later_apply limit call.1 call.2 s).trans (ih _)

namespace Matching

def again (s t : Store) : Matching where
  old := s.frames.size
  shift := t.frames.size - s.frames.size
  made := s.closures
  lag := some (t.closures - s.closures)

theorem frame_again {id : Nat} (h : id < s.frames.size) : (again s t).frame id = id := if_pos h

theorem extra_again (id : Nat) :
    (if id < (again s t).old then (again s t).extra else []) = [] := ite_self []

theorem closures_again {n : Nat} {c d : Closure} (h : (again s t).Closures n c d) :
    d = c.renumber (.onto s t) := by
  obtain ⟨id, params, body, env⟩ := d
  obtain ⟨hnumber, rfl, rfl, -, rfl, -⟩ := h
  exact congrArg (Closure.mk · c.params c.body _) (hnumber _ rfl)

theorem values_again {n : Nat} {v w : Value} (h : (again s t).Values n v w) :
    w = v.renumber (.onto s t) :=
  Value.renumber_of_lift (h.mono fun _ _ => closures_again)

theorem bindings_again {n : Nat} {bs cs : List (String × Value)}
    (h : List.Forall₂ ((again s t).Bindings n) bs cs) :
    cs = bs.map fun b => (b.1, b.2.renumber (.onto s t)) := by
  induction h with
  | nil => rfl
  | @cons b c bs cs hb _ ih =>
      have hbc : c = (b.1, b.2.renumber (.onto s t)) := Prod.ext hb.1 (values_again hb.2)
      rw [List.map_cons, ← ih, hbc]

theorem frames_again {n : Nat} {id : FrameId} {f g : Frame} (h : (again s t).Frames n id f g) :
    g = f.renumber (.onto s t) := by
  obtain ⟨bs, hbs, hall⟩ := h.bindings
  rw [extra_again, List.append_nil] at hbs
  rw [Frame.renumber, ← bindings_again hall, ← hbs]
  exact congrArg (Frame.mk g.bindings) h.parent

theorem closures_self {c : Closure} (hc : c.Within s) :
    (again s t).Closures s.frames.size c c where
  number _ _ := (if_pos hc.number).symm
  params := rfl
  env := (frame_again hc.env).symm
  inScope _ := hc.env
  body := rfl
  alike := (alike_self fun _ => rfl).all _ fun _ _ => List.not_mem_nil

theorem values_self {v : Value} (hv : v.Within s) : (again s t).Values s.frames.size v v :=
  v.lift_self fun c hc => closures_self (hv c hc)

theorem valuesAll_self {vs : List Value} (hvs : ∀ v ∈ vs, v.Within s) :
    (again s t).ValuesAll s.frames.size vs vs := by
  refine Value.liftAll_self vs fun c hc => ?_
  obtain ⟨v, hv, hc⟩ := Value.mem_leavesAll.1 hc
  exact closures_self (hvs v hv c hc)

theorem bindings_self {bs : List (String × Value)} (hbs : ∀ b ∈ bs, b.2.Within s) :
    List.Forall₂ ((again s t).Bindings s.frames.size) bs bs :=
  List.forall₂_same.2 fun b hb => ⟨rfl, values_self (hbs b hb)⟩

theorem stores_again (hs : s.Reachable) (hst : s.Later t) : (again s t).Stores s t where
  old := Nat.le_refl _
  size := (Nat.add_sub_of_le hst.keeps.size_le).symm
  frames id f hf := by
    have hid : id < s.frames.size := (Array.getElem?_eq_some_iff.1 hf).1
    obtain ⟨holder, hvalues⟩ := hs.madeOf id f hf
    have hparent : f.parent = f.parent.map (again s t).frame := by
      cases hp : f.parent with
      | none => rfl
      | some p => rw [Option.map_some, frame_again (Nat.lt_trans (holder p hp) hid)]
    refine ⟨f, ?_, hparent, fun _ => holder, f.bindings, ?_, ?_⟩
    · rw [frame_again hid]
      exact hst.keeps id f hf
    · rw [extra_again, List.append_nil]
    · exact bindings_self fun b hb => (hvalues b hb).within
  closures := by
    rintro _ ⟨⟩
    exact ⟨Nat.le_refl _, (Nat.add_sub_of_le hst.closures).symm⟩

theorem frames_of_again {s' t' : Store} (h : (again s t).Stores s' t') :
    t'.frames.size = (Renumbering.onto s t).frame s'.frames.size ∧
    t'.closures = (Renumbering.onto s t).closure s'.closures ∧
    ∀ (id : FrameId) (f : Frame), s'.frames[id]? = some f →
      t'.frames[(Renumbering.onto s t).frame id]? = some (f.renumber (.onto s t)) := by
  refine ⟨h.frame_size.symm, h.numbers _ rfl, fun id f hf => ?_⟩
  obtain ⟨g, hg, hfg⟩ := h.frames id f hf
  rw [← frames_again hfg]
  exact hg

theorem outcomes_again {r : Run Store Value} {n : Nat}
    (h : (again s t).Outcomes (again s t).Values n (r s) (r t)) :
    r.outcome t = (r.outcome s).map (Value.renumber (.onto s t)) ∧
    (r.outcome t).map Value.text = (r.outcome s).map Value.text ∧
    (again s t).Stores (r.after s) (r.after t) := by
  generalize hx : r s = x, hy : r t = y at h
  cases h with
  | @ok v w s' t' hstores _ hv =>
      rw [Run.outcome_of_ok hx, Run.outcome_of_ok hy, Run.after_of_ok hx, Run.after_of_ok hy]
      have htext : w.text = v.text := (hv.text_eq fun _ _ => Closures.arity_eq).symm
      exact ⟨congrArg Except.ok (values_again hv), congrArg Except.ok htext, hstores⟩
  | error hstores _ e =>
      rw [Run.outcome_of_error hx, Run.outcome_of_error hy, Run.after_of_error hx,
        Run.after_of_error hy]
      exact ⟨rfl, rfl, hstores⟩
  | overflow hd => cases hd

end Matching

/-- An application that is repeated, whatever is applied in between, fails as the first time, or comes
to the first value with what it made since `s` numbered anew. The frames that it makes are, but for
such numbers, those that it made the first time. -/
theorem apply_again {s : Store} (hs : s.Reachable) {c : Closure} (hc : c.Within s)
    {args : List Value} (hargs : ∀ v ∈ args, v.Within s) (limit : Nat)
    (others : List (Closure × List Value)) :
    let r : Run Store Value := apply limit c args
    let t := (r.after s).applyEach limit others
    let ρ := Renumbering.onto s t
    r.outcome t = (r.outcome s).map (Value.renumber ρ) ∧
    (r.outcome t).map Value.text = (r.outcome s).map Value.text ∧
    Function.Injective ρ.frame ∧ Function.Injective ρ.closure ∧
    (r.after t).frames.size = ρ.frame (r.after s).frames.size ∧
    (r.after t).closures = ρ.closure (r.after s).closures ∧
    ∀ (id : FrameId) (f : Frame), (r.after s).frames[id]? = some f →
      (r.after t).frames[ρ.frame id]? = some (f.renumber ρ) := by
  intro r t ρ
  have hst : s.Later t := (later_apply limit c args s).trans (later_applyEach limit _ others)
  have houtcomes := Matching.applies (.again s t) limit ⟨Nat.le_refl limit, fun _ => rfl⟩
    (Matching.closures_self hc) (Matching.valuesAll_self hargs) s t (Matching.stores_again hs hst)
    (Nat.le_refl _)
  obtain ⟨houtcome, htext, hstores⟩ := Matching.outcomes_again houtcomes
  exact ⟨houtcome, htext, raise_injective _ _, raise_injective _ _,
    Matching.frames_of_again hstores⟩

theorem apply_again_lambda :
    let f : Closure := ⟨0, ["x"], .list [.symbol "lambda", .list [.symbol "y"], .symbol "x"], 0⟩
    let s : Store := (Store.close (Store.newRoot {}).2 0 f.params f.body).2
    let r : Run Store Value := apply 4 f [.integer 1]
    let t := (r.after s).applyEach 4 [(f, [.integer 2]), (f, [])]
    s.Reachable ∧ f.Within s ∧
    r.outcome s = .ok (.closure ⟨1, ["y"], .symbol "x", 1⟩) ∧
    r.outcome t = .ok (.closure ⟨3, ["y"], .symbol "x", 3⟩) ∧
    (r.after t).frames[3]? = some ⟨[("x", .integer 1)], some 0⟩ := by
  intro f s r t
  have hs : s.Reachable := .close (.newRoot .empty) 0 f.params f.body
  have hf : f.Within s := ⟨Nat.zero_lt_one, Nat.zero_lt_one⟩
  have hargs : ∀ v ∈ [Value.integer 1], v.Within s := by
    rintro v hv c hc
    cases List.mem_singleton.1 hv
    cases List.mem_singleton.1 hc
  obtain ⟨houtcome, -, -, -, -, -, hframes⟩ := apply_again hs hf hargs 4 [(f, [.integer 2]), (f, [])]
  have hr : r.outcome s = .ok (.closure ⟨1, ["y"], .symbol "x", 1⟩) := by decide +kernel
  have hframe : (r.after s).frames[1]? = some ⟨[("x", .integer 1)], some 0⟩ := rfl
  refine ⟨hs, hf, hr, ?_, hframes 1 _ hframe⟩
  rw [houtcome, hr]
  rfl

end SmallLisp
