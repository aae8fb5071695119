import SmallLisp.Proofs.Eval.Limit
import SmallLisp.Proofs.Eval.Repetition

namespace SmallLisp

variable {ρ σ : Renumbering} {s a b : Store}

namespace Renumbering

def comp (ρ σ : Renumbering) : Renumbering := ⟨ρ.frame ∘ σ.frame, ρ.closure ∘ σ.closure⟩

def skip (ρ : Renumbering) (id : FrameId) : Renumbering := ⟨raise id 1 ∘ ρ.frame, ρ.closure⟩

end Renumbering

namespace Value

mutual

theorem renumber_renumber (ρ σ : Renumbering) :
    (v : Value) → (v.renumber σ).renumber ρ = v.renumber (ρ.comp σ)
  | .boolean _ | .integer _ | .symbol _ | .closure _ => rfl
  | .list vs => congrArg list (renumberAll_renumberAll ρ σ vs)

theorem renumberAll_renumberAll (ρ σ : Renumbering) :
    (vs : List Value) → renumberAll ρ (renumberAll σ vs) = renumberAll (ρ.comp σ) vs
  | [] => rfl
  | v :: vs => congrArg₂ List.cons (renumber_renumber ρ σ v) (renumberAll_renumberAll ρ σ vs)

end

mutual

theorem lift_renumber {R : Closure → Closure → Prop} :
    (v : Value) → (∀ c, .closure c ∈ v.leaves → R c (c.renumber ρ)) → v.Lift R (v.renumber ρ)
  | .boolean b, _ => .boolean b
  | .integer n, _ => .integer n
  | .symbol name, _ => .symbol name
  | .list vs, h => .list (liftAll_renumberAll vs h)
  | .closure c, h => .closure (h c List.mem_cons_self)

theorem liftAll_renumberAll {R : Closure → Closure → Prop} :
    (vs : List Value) → (∀ c, .closure c ∈ leavesAll vs → R c (c.renumber ρ)) →
      LiftAll R vs (renumberAll ρ vs)
  | [], _ => .nil
  | v :: vs, h =>
      .cons (lift_renumber v fun c hc => h c (List.mem_append_left _ hc))
        (liftAll_renumberAll vs fun c hc => h c (List.mem_append_right _ hc))

end

theorem isTruthy_renumber (ρ : Renumbering) (v : Value) : (v.renumber ρ).isTruthy = v.isTruthy :=
  (lift_renumber (R := fun _ _ => True) v fun _ _ => trivial).isTruthy_eq.symm

end Value

structure Renumbering.Agrees (a : Store) (ρ σ : Renumbering) : Prop where
  frame : ∀ id < a.frames.size, ρ.frame id = σ.frame id
  closure : ∀ id < a.closures, ρ.closure id = σ.closure id

namespace Renumbering.Agrees

theorem trans (h : Agrees a ρ σ) {τ : Renumbering} (h' : Agrees a σ τ) : Agrees a ρ τ :=
  ⟨fun id hid => (h.frame id hid).trans (h'.frame id hid),
    fun id hid => (h.closure id hid).trans (h'.closure id hid)⟩

theorem mono (h : Agrees b ρ σ) (hab : a.Before b) : Agrees a ρ σ :=
  ⟨fun id hid => h.frame id (Nat.lt_of_lt_of_le hid hab.frames),
    fun id hid => h.closure id (Nat.lt_of_lt_of_le hid hab.closures)⟩

theorem value (h : Agrees a ρ σ) {v : Value} (hv : v.Within a) : v.renumber ρ = v.renumber σ := by
  refine Value.renumber_of_lift (Value.lift_renumber v fun c hc => ?_)
  rw [Closure.renumber, Closure.renumber, h.frame _ (hv c hc).env, h.closure _ (hv c hc).number]

theorem bindings (h : Agrees a ρ σ) {id : FrameId} {f : Frame} (hid : id < a.frames.size)
    (hf : f.MadeOf .any a id) : f.renumber ρ = f.renumber σ := by
  rw [Frame.renumber, Frame.renumber]
  refine congrArg₂ Frame.mk (List.map_congr_left fun b hb => ?_) (Option.map_congr fun p hp => ?_)
  · rw [h.value (hf.values b hb).within]
  · exact h.frame p (Nat.lt_trans (hf.older p hp) hid)

end Renumbering.Agrees

theorem Frame.renumber_renumber (ρ σ : Renumbering) (f : Frame) :
    (f.renumber σ).renumber ρ = f.renumber (ρ.comp σ) := by
  rw [Frame.renumber, Frame.renumber, Frame.renumber, List.map_map, Option.map_map]
  refine congrArg (Frame.mk · _) (List.map_congr_left fun b _ => ?_)
  exact congrArg (Prod.mk b.1) (b.2.renumber_renumber ρ σ)

theorem raise_of_lt {old shift i : Nat} (h : i < old) : raise old shift i = i := if_pos h

theorem raise_add {old new : Nat} (h : old ≤ new) (k : Nat) :
    raise old (new - old) (old + k) = new + k := by
  rw [raise, if_neg (by omega)]
  omega

theorem raise_zero (old i : Nat) : raise old 0 i = i := ite_self i

theorem Store.Later.refl (s : Store) : s.Later s := ⟨.refl s, Nat.le_refl _⟩

theorem Store.Later.before (h : s.Later a) : s.Before a := ⟨h.keeps.size_le, h.closures⟩

/-- The store `b` is a copy of `a`, with other numbers for what is newer than `s` and with frames
besides. -/
structure Copy (s : Store) (ρ : Renumbering) (a b : Store) : Prop where
  made : a.MadeOf .any
  first : s.Later a
  second : s.Later b
  old : ∀ id < s.frames.size, ρ.frame id = id
  new : ∀ k, ρ.frame (a.frames.size + k) = b.frames.size + k
  injective : Function.Injective ρ.frame
  closure : ∀ id, ρ.closure id = id
  closures : b.closures = a.closures
  frames : ∀ id f, a.frames[id]? = some f → b.frames[ρ.frame id]? = some (f.renumber ρ)

namespace Copy

theorem refl (hs : s.Reachable) : Copy s (.onto s s) s s where
  made := hs.madeOf
  first := .refl s
  second := .refl s
  old _ hid := raise_of_lt hid
  new := raise_add (Nat.le_refl _)
  injective := raise_injective _ _
  closure id := by
    change raise _ (s.closures - s.closures) id = id
    rw [Nat.sub_self, raise_zero]
  closures := rfl
  frames := (Matching.frames_of_again (Matching.stores_again hs (.refl s))).2.2

theorem comp_onto (h : Copy s ρ a b) : ρ.comp (.onto s a) = .onto s b := by
  refine congrArg₂ Renumbering.mk (funext fun id => ?_) (funext fun id => ?_)
  · change ρ.frame (raise _ _ id) = raise _ _ id
    obtain hid | hid := Nat.lt_or_ge id s.frames.size
    · rw [raise_of_lt hid, raise_of_lt hid, h.old id hid]
    · obtain ⟨k, rfl⟩ := Nat.exists_eq_add_of_le hid
      rw [raise_add h.first.keeps.size_le, raise_add h.second.keeps.size_le, h.new]
  · change ρ.closure (raise _ _ id) = raise _ _ id
    rw [h.closure, h.closures]

theorem frame_lt (h : Copy s ρ a b) {id : FrameId} (hid : id < a.frames.size) :
    ρ.frame id < b.frames.size :=
  (Array.getElem?_eq_some_iff.1 (h.frames id _ (Array.getElem?_eq_getElem hid))).1

theorem agrees_skip (h : Copy s ρ a b) : Renumbering.Agrees a (ρ.skip b.frames.size) ρ where
  frame _ hid := raise_of_lt (h.frame_lt hid)
  closure _ _ := rfl

theorem push (h : Copy s ρ a b) (f : Frame) : Copy s (ρ.skip b.frames.size) a (b.push f).2 where
  made := h.made
  first := h.first
  second := h.second.trans ⟨keeps_push b f, Nat.le_refl _⟩
  old id hid := by
    rw [h.agrees_skip.frame id (Nat.lt_of_lt_of_le hid h.first.keeps.size_le), h.old id hid]
  new k := by
    change raise _ 1 (ρ.frame _) = (b.frames.push f).size + k
    rw [h.new, raise, if_neg (by omega), Array.size_push]
    omega
  injective := (raise_injective _ _).comp h.injective
  closure := h.closure
  closures := h.closures
  frames id g hg := by
    have hid : id < a.frames.size := (Array.getElem?_eq_some_iff.1 hg).1
    rw [h.agrees_skip.frame id hid, h.agrees_skip.bindings hid (h.made id g hg)]
    exact keeps_push b f _ _ (h.frames id g hg)

theorem extend (h : Copy s ρ a b) (env : FrameId) (pairs : List (String × Value)) :
    Copy s (ρ.skip b.frames.size) a (b.extend env pairs).2 := h.push _

end Copy

/-- An application in a later store does what it does in the first, renumbered. -/
theorem Store.Later.apply (h : s.Later a) (hs : s.Reachable) {c : Closure} (hc : c.Within s)
    {args : List Value} (hargs : ∀ v ∈ args, v.Within s) (limit : Nat) :
    let r : Run Store Value := SmallLisp.apply limit c args
    r.outcome a = (r.outcome s).map (Value.renumber (.onto s a)) ∧
      (Matching.again s a).Stores (r.after s) (r.after a) := by
  have houtcomes := Matching.applies (.again s a) limit ⟨Nat.le_refl limit, fun _ => rfl⟩
    (Matching.closures_self hc) (Matching.valuesAll_self hargs) s a (Matching.stores_again hs h)
    (Nat.le_refl _)
  obtain ⟨houtcome, -, hstores⟩ := Matching.outcomes_again houtcomes
  exact ⟨houtcome, hstores⟩

namespace Copy

theorem of_again (h : Copy s ρ a b) {s' a' b' : Store} (hmade : a'.MadeOf .any)
    (hs' : s.Later s') (ha : a.Later a') (hb : b.Later b') (hsa : (Matching.again s a).Stores s' a')
    (hsb : (Matching.again s b).Stores s' b') : Copy s ρ a' b' := by
  obtain ⟨hasize, haclosures, haframes⟩ := Matching.frames_of_again hsa
  obtain ⟨hbsize, hbclosures, hbframes⟩ := Matching.frames_of_again hsb
  obtain ⟨n, hn⟩ := Nat.exists_eq_add_of_le hs'.keeps.size_le
  have honto (k : Nat) : (Renumbering.onto s a).frame (s.frames.size + k) = a.frames.size + k :=
    raise_add h.first.keeps.size_le k
  have honto' (k : Nat) : (Renumbering.onto s b).frame (s.frames.size + k) = b.frames.size + k :=
    raise_add h.second.keeps.size_le k
  rw [hn, honto] at hasize
  rw [hn, honto'] at hbsize
  refine ⟨hmade, h.first.trans ha, h.second.trans hb, h.old, fun k => ?_, h.injective, h.closure,
    ?_, fun id f hf => ?_⟩
  · rw [hasize, hbsize, Nat.add_assoc, h.new, Nat.add_assoc]
  · rw [hbclosures, haclosures, ← h.comp_onto]
    exact h.closure _
  · obtain hid | hid := Nat.lt_or_ge id a.frames.size
    · have hold := Array.getElem?_eq_getElem hid
      rw [ha.keeps id _ hold] at hf
      cases hf
      exact hb.keeps _ _ (h.frames id _ hold)
    · obtain ⟨k, rfl⟩ := Nat.exists_eq_add_of_le hid
      have hk : s.frames.size + k < s'.frames.size := by
        have hlt := (Array.getElem?_eq_some_iff.1 hf).1
        omega
      have hnew := Array.getElem?_eq_getElem hk
      have hfa := haframes _ _ hnew
      have hfb := hbframes _ _ hnew
      rw [honto, hf] at hfa
      rw [honto', ← h.comp_onto, ← Frame.renumber_renumber, ← Option.some.inj hfa] at hfb
      rw [h.new, hfb]

/-- What is applied to the copy comes to what it comes to in the store, renumbered, and leaves a
copy. -/
theorem apply (h : Copy s ρ a b) (hs : s.Reachable) {c : Closure} (hc : c.Within s)
    {args : List Value} (hargs : ∀ v ∈ args, v.Within s) (limit : Nat) :
    let r : Run Store Value := SmallLisp.apply limit c args
    r.outcome b = (r.outcome a).map (Value.renumber ρ) ∧ Copy s ρ (r.after a) (r.after b) ∧
      ∀ v, r.outcome a = .ok v → v.Within (r.after a) := by
  intro r
  obtain ⟨ha, hsa⟩ := h.first.apply hs hc hargs limit
  obtain ⟨hb, hsb⟩ := h.second.apply hs hc hargs limit
  have hends := h.made.apply limit (hc.madeOf.mono h.first.before) fun v hv =>
    (hargs v hv).madeOf.mono h.first.before
  refine ⟨?_, ?_, fun v hv => (hends.value v hv).within⟩
  · rw [hb, ha, ← h.comp_onto]
    cases r.outcome s with
    | error e => rfl
    | ok v => exact congrArg Except.ok (v.renumber_renumber _ _).symm
  · exact h.of_again hends.made (later_apply limit c args s) (later_apply limit c args a)
      (later_apply limit c args b) hsa hsb

/-- With as much room at least, an application in the copy fails as in the store, or comes to the same
value, renumbered. -/
theorem applyWithin_cases (h : Copy s ρ a b) (hs : s.Reachable) {c : Closure} (hc : c.Within s)
    {args : List Value} (hargs : ∀ v ∈ args, v.Within s) (limit' : Nat) {limit room : Nat}
    (hroom : limit ≤ room) (hno : ¬ (SmallLisp.apply limit c args).Overflows a) :
    (∃ e a' b', SmallLisp.apply limit c args a = .error e a' ∧
      applyWithin limit' room c args b = .error e b' ∧ Copy s ρ a' b') ∨
    ∃ v a' b', SmallLisp.apply limit c args a = .ok v a' ∧
      applyWithin limit' room c args b = .ok (v.renumber ρ) b' ∧ v.Within a' ∧ Copy s ρ a' b' := by
  obtain ⟨houtcome, hcopy, hvalue⟩ := h.apply hs hc hargs limit
  cases hr : SmallLisp.apply limit c args a with
  | error e a' =>
      rw [Run.outcome_of_error hr] at houtcome
      obtain ⟨b', hr'⟩ := Run.exists_of_outcome_error houtcome
      rw [Run.after_of_error hr, Run.after_of_error hr'] at hcopy
      have hno' : ¬ (SmallLisp.apply limit c args).Overflows b := by
        rintro ⟨l, u, hu⟩
        rw [hr'] at hu
        cases hu
        exact hno ⟨l, a', hr⟩
      exact .inl ⟨e, a', b', rfl, (applyWithin_of_le hroom c args b hno').trans hr', hcopy⟩
  | ok v a' =>
      rw [Run.outcome_of_ok hr] at houtcome hvalue
      obtain ⟨b', hr'⟩ := Run.exists_of_outcome houtcome
      rw [Run.after_of_ok hr, Run.after_of_ok hr'] at hcopy
      rw [Run.after_of_ok hr] at hvalue
      have hno' := Run.not_overflows_of_ok hr'
      exact .inr ⟨v, a', b', rfl, (applyWithin_of_le hroom c args b hno').trans hr', hvalue v rfl,
        hcopy⟩

end Copy

end SmallLisp
