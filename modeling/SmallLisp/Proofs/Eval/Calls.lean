import SmallLisp.Proofs.Eval.Repetition

namespace SmallLisp

/-- Nodes that come to values one after the other, with the store that they leave. -/
inductive InTurn (limit : Nat) (env : FrameId) : List Node → Store → List Value → Store → Prop
  | nil (s : Store) : InTurn limit env [] s [] s
  | cons {n : Node} {ns : List Node} {v : Value} {vs : List Value} {s t u : Store}
      (h : evaluate limit env n s = .ok v t) (hs : InTurn limit env ns t vs u) :
      InTurn limit env (n :: ns) s (v :: vs) u

section Operands

variable {limit : Nat} {env : FrameId}

theorem evalAll_cons_of_ok {n : Node} {v : Value} {s t : Store}
    (h : evaluate limit env n s = .ok v t) (ns : List Node) :
    Node.evalAll (apply limit) env (n :: ns) s =
      (do return v :: (← Node.evalAll (apply limit) env ns) : Run Store (List Value)) t := by
  rw [Node.evalAll]
  exact Run.bind_of_ok h

theorem evalAll_cases (limit : Nat) (env : FrameId) (ns : List Node) (s : Store) :
    (∃ vs t, InTurn limit env ns s vs t ∧ Node.evalAll (apply limit) env ns s = .ok vs t) ∨
    (∃ before n after vs t e u, ns = before ++ n :: after ∧ InTurn limit env before s vs t ∧
      evaluate limit env n t = .error e u ∧
      Node.evalAll (apply limit) env ns s = .error e u) := by
  induction ns generalizing s with
  | nil => exact .inl ⟨[], s, .nil s, rfl⟩
  | cons n ns ih =>
      cases hn : evaluate limit env n s with
      | error e u =>
          refine .inr ⟨[], n, ns, [], s, e, u, rfl, .nil s, hn, ?_⟩
          rw [Node.evalAll]
          exact Run.bind_of_error hn
      | ok v t =>
          rw [evalAll_cons_of_ok hn]
          obtain ⟨vs, u, hvs, heval⟩ | ⟨before, m, after, vs, u, e, u', rfl, hvs, hm, heval⟩ := ih t
          · exact .inl ⟨v :: vs, u, .cons hn hvs, Run.bind_of_ok heval⟩
          · exact .inr ⟨n :: before, m, after, v :: vs, u, e, u', rfl, .cons hn hvs, hm,
              Run.bind_of_error heval⟩

variable {c : Closure} {operands : List Node} {s t : Store}

theorem applyToNodes_of_ne (h : operands.length ≠ c.arity) :
    applyToNodes limit env c operands s =
      .error (.closureArity c.arity operands.length) s := by
  rw [applyToNodes, Closure.checkArity, if_neg h]
  rfl

theorem applyToNodes_of_eq (h : operands.length = c.arity) :
    (applyToNodes limit env c operands : Run Store Value) =
      Node.evalAll (apply limit) env operands >>= apply limit c := by
  rw [applyToNodes, Closure.checkArity, if_pos h]
  rfl

theorem evaluate_call {head : Node} (hk : head.keyword? = none)
    (h : evaluate limit env head s = .ok (.closure c) t) :
    evaluate limit env (.list (head :: operands)) s = applyToNodes limit env c operands t := by
  rw [evaluate, Node.eval_call _ _ hk]
  exact Run.bind_of_ok h

end Operands

namespace Renumbering

/-- Closures that differ in their numbers alone are not told apart. -/
def unnumbered : Renumbering := ⟨id, fun _ => 0⟩

end Renumbering

mutual

theorem Value.renumber_eq_of_lift {ρ : Renumbering} : {v w : Value} →
    v.Lift (fun c d => c.renumber ρ = d.renumber ρ) w → v.renumber ρ = w.renumber ρ
  | _, _, .boolean _ | _, _, .integer _ | _, _, .symbol _ => rfl
  | _, _, .list h => congrArg list (renumberAll_eq_of_liftAll h)
  | _, _, .closure h => congrArg closure h

theorem Value.renumberAll_eq_of_liftAll {ρ : Renumbering} : {vs ws : List Value} →
    LiftAll (fun c d => c.renumber ρ = d.renumber ρ) vs ws → renumberAll ρ vs = renumberAll ρ ws
  | _, _, .nil => rfl
  | _, _, .cons h hs => congrArg₂ List.cons (renumber_eq_of_lift h) (renumberAll_eq_of_liftAll hs)

end

namespace Matching

theorem none_followed : false → (none : Option Nat) = none := fun _ => rfl

def unnumbered : Matching where
  followed := none_followed

variable {n : Nat} {s t : Store}

theorem frame_unnumbered : unnumbered.frame = id := frame_eq_id rfl

theorem values_unnumbered {v w : Value} (h : unnumbered.Values n v w) :
    v.renumber .unnumbered = w.renumber .unnumbered := by
  refine Value.renumber_eq_of_lift (h.mono fun c d hcd => ?_)
  obtain ⟨id, params, body, env⟩ := d
  obtain ⟨-, rfl, rfl, -, rfl, -⟩ := hcd
  rw [frame_unnumbered]
  rfl

theorem bindings_unnumbered {bs cs : List (String × Value)}
    (h : List.Forall₂ (unnumbered.Bindings n) bs cs) :
    (bs.map fun b => (b.1, b.2.renumber .unnumbered)) =
      cs.map fun b => (b.1, b.2.renumber .unnumbered) := by
  induction h with
  | nil => rfl
  | cons hb _ ih => rw [List.map_cons, List.map_cons, ih, hb.1, values_unnumbered hb.2]

theorem frames_unnumbered {k : FrameId} {f g : Frame} (h : unnumbered.Frames n k f g) :
    f.renumber .unnumbered = g.renumber .unnumbered := by
  obtain ⟨bs, hbs, hall⟩ := h.bindings
  have hbindings : g.bindings = bs := by simpa [unnumbered] using hbs
  have hparent : g.parent = f.parent := by rw [h.parent, frame_unnumbered, Option.map_id, id]
  rw [Frame.renumber, Frame.renumber, hparent, hbindings]
  refine congrArg (Frame.mk · _) (bindings_unnumbered hall)

theorem closures_unnumbered (n : Nat) (c : Closure) : unnumbered.Closures n c c where
  number := nofun
  params := rfl
  env := by rw [frame_unnumbered, id]
  inScope h := absurd rfl h
  body := rfl
  alike := (alike_self fun _ => rfl).all _ fun _ _ => List.not_mem_nil

theorem stores_unnumbered (h : t.frames = s.frames) : unnumbered.Stores s t where
  old := Nat.zero_le _
  size := congrArg Array.size h
  frames k f hf := by
    refine ⟨f, ?_, ?_, fun hs => absurd rfl hs, f.bindings, ?_, ?_⟩
    · rw [h, frame_unnumbered, id, hf]
    · rw [frame_unnumbered, Option.map_id, id]
    · simp [unnumbered]
    · exact List.forall₂_same.2 fun b _ => ⟨rfl, .refl (closures_unnumbered _) b.2⟩
  closures := nofun

theorem frames_of_unnumbered (h : unnumbered.Stores s t) (k : FrameId) :
    t.frames[k]?.map (Frame.renumber .unnumbered) =
      s.frames[k]?.map (Frame.renumber .unnumbered) := by
  cases hf : s.frames[k]? with
  | none =>
      have hnone := h.frames_eq_none hf
      rw [frame_unnumbered, id] at hnone
      rw [hnone]
  | some f =>
      obtain ⟨g, hg, hfg⟩ := h.frames k f hf
      rw [frame_unnumbered, id] at hg
      rw [hg, Option.map_some, Option.map_some, frames_unnumbered hfg]

theorem applyToNodes_unnumbered (h : t.frames = s.frames) (limit : Nat) (env : FrameId) (c : Closure)
    (operands : List Node) :
    let r : Run Store Value := applyToNodes limit env c operands
    unnumbered.Outcomes unnumbered.Values s.frames.size (r s) (r t) := by
  intro r
  have hoperands : unnumbered.AlikeAll operands operands :=
    alikeAll_self (fun n _ => (alike_self fun _ => rfl).all n) fun _ _ => List.not_mem_nil
  have hrooms : unnumbered.Rooms limit limit := ⟨Nat.le_refl _, fun _ => rfl⟩
  have hinScope : unnumbered.InScope s.frames.size env := fun hs => absurd rfl hs
  have hevalAll := AlikeAll.runs (fun _ hr => applies _ limit hr) hoperands hrooms hinScope
  rw [frame_unnumbered, id] at hevalAll
  have hruns : unnumbered.Runs unnumbered.Values s.frames.size r r :=
    .checked (closures_unnumbered _ c) _ <| hevalAll.bind fun m _ vs ws hvs =>
      applies _ limit hrooms (closures_unnumbered m c) hvs
  exact hruns s t (stores_unnumbered h) (Nat.le_refl _)

end Matching

/-- An application to operands fails if there are too many or too few, before any of them is
evaluated. Otherwise it is the application to the values of the operands, in the store that they leave
one after the other, or the failure of the first one that fails. The call by a name is this
application; so is the call by a list that comes to the closure, in the store that the list leaves.
Where the list leaves the frames as they are, only the numbers of closures depend on it. -/
theorem calls_agree (limit : Nat) (env : FrameId) (c : Closure) (operands : List Node) (s : Store) :
    let r : Run Store Value := applyToNodes limit env c operands
    (operands.length ≠ c.arity → r s = .error (.closureArity c.arity operands.length) s) ∧
    (operands.length = c.arity →
      (∃ vs t, InTurn limit env operands s vs t ∧ r s = apply limit c vs t) ∨
      (∃ before n after vs t e u, operands = before ++ n :: after ∧
        InTurn limit env before s vs t ∧ evaluate limit env n t = .error e u ∧
        r s = .error e u)) ∧
    (∀ name, Keyword.ofName? name = none → s.lookup env name = .ok (.closure c) →
      evaluate limit env (.list (.symbol name :: operands)) s = r s) ∧
    (∀ items t, evaluate limit env (.list items) s = .ok (.closure c) t →
      evaluate limit env (.list (.list items :: operands)) s = r t ∧
      (t.frames = s.frames →
        (r.outcome t).map (Value.renumber .unnumbered) =
          (r.outcome s).map (Value.renumber .unnumbered) ∧
        ∀ k : FrameId, (r.after t).frames[k]?.map (Frame.renumber .unnumbered) =
          (r.after s).frames[k]?.map (Frame.renumber .unnumbered))) := by
  intro r
  refine ⟨applyToNodes_of_ne, fun harity => ?_, fun name hk hname => ?_, fun items t hhead =>
    ⟨evaluate_call rfl hhead, fun hframes => ?_⟩⟩
  · have hr : r = _ := applyToNodes_of_eq harity
    rw [hr]
    obtain ⟨vs, t, hvs, heval⟩ | ⟨before, n, after, vs, t, e, u, hsplit, hvs, hn, heval⟩ :=
      evalAll_cases limit env operands s
    · exact .inl ⟨vs, t, hvs, Run.bind_of_ok heval⟩
    · exact .inr ⟨before, n, after, vs, t, e, u, hsplit, hvs, hn, Run.bind_of_error heval⟩
  · refine evaluate_call hk ?_
    rw [evaluate, Node.eval]
    exact Run.ask_of_ok hname
  · have houtcomes := Matching.applyToNodes_unnumbered hframes limit env c operands
    change Matching.unnumbered.Outcomes _ _ (r s) (r t) at houtcomes
    generalize hx : r s = x, hy : r t = y at houtcomes
    cases houtcomes with
    | ok hs _ hv =>
        rw [Run.outcome_of_ok hx, Run.outcome_of_ok hy, Run.after_of_ok hx, Run.after_of_ok hy]
        exact ⟨congrArg Except.ok (Matching.values_unnumbered hv).symm,
          Matching.frames_of_unnumbered hs⟩
    | error hs _ e =>
        rw [Run.outcome_of_error hx, Run.outcome_of_error hy, Run.after_of_error hx,
          Run.after_of_error hy]
        exact ⟨rfl, Matching.frames_of_unnumbered hs⟩
    | overflow hd => cases hd

theorem calls_agree_define :
    let c (i : Nat) : Closure := ⟨i, ["x", "y"], .list [.symbol "+", .symbol "x", .symbol "y"], 0⟩
    let s : Store := ⟨#[⟨[("f", .closure (c 0))], none⟩], 1⟩
    let t : Store := { s with closures := 2 }
    let lambda : List Node := [.symbol "lambda", .list [.symbol "x", .symbol "y"], (c 1).body]
    let first : Node := .list [.symbol "if",
      .list [.symbol "define", .symbol "a", .integer 1], .integer 2, .integer 3]
    let r (i : Nat) : Run Store Value := applyToNodes 4 0 (c i) [first, .symbol "a"]
    applyToNodes 4 0 (c 0) [first] s = .error (.closureArity 2 1) s ∧
    (r 0).outcome s = .ok (.integer 3) ∧
    (∃ vs u, InTurn 4 0 [first, .symbol "a"] s vs u ∧ r 0 s = apply 4 (c 0) vs u) ∧
    evaluate 4 0 (.list [.symbol "f", first, .symbol "a"]) s = r 0 s ∧
    evaluate 4 0 (.list [.list lambda, first, .symbol "a"]) s = r 1 t ∧
    ((r 1).outcome t).map (Value.renumber .unnumbered) =
      ((r 1).outcome s).map (Value.renumber .unnumbered) := by
  intro c s t lambda first r
  obtain ⟨harity, -⟩ := calls_agree 4 0 (c 0) [first] s
  obtain ⟨-, happly, hname, -⟩ := calls_agree 4 0 (c 0) [first, .symbol "a"] s
  obtain ⟨-, -, -, hhead⟩ := calls_agree 4 0 (c 1) [first, .symbol "a"] s
  have hr : (r 0).outcome s = .ok (.integer 3) := by decide +kernel
  have hlambda : evaluate 4 0 (.list lambda) s = .ok (.closure (c 1)) t := rfl
  obtain ⟨hcall, hsame⟩ := hhead lambda t hlambda
  refine ⟨harity (by decide), hr, ?_, hname "f" rfl rfl, hcall, (hsame rfl).1⟩
  obtain hvalues | ⟨_, _, _, _, _, e, u, -, -, -, he⟩ := happly rfl
  · exact hvalues
  · rw [Run.outcome_of_error he] at hr
    cases hr

end SmallLisp
