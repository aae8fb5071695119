import Mathlib.Logic.Relation
import SmallLisp.Proofs.Eval.Frames
import SmallLisp.Proofs.Eval.Reachable

namespace SmallLisp

variable {s t u : Store} {name m : String} {v : Value} {e f : FrameId}

namespace Store

/-- A search for `name` that begins at a frame comes to the frame `f`: that is on the way outward, and
no frame met before it binds the name. -/
inductive Reaches (s : Store) (name : String) (f : FrameId) : FrameId → Prop
  | here : Reaches s name f f
  | outward {e p : FrameId} (hname : s.binds e name = false) (hp : s.parent? e = some p)
      (h : Reaches s name f p) : Reaches s name f e

theorem findSome?_outward {k : Nat} {g : Frame} (hg : s.frames[e]? = some g) :
    (s.outward (k + 1) e).findSome? (·.find? m) =
      (g.find? m).or (g.parent.bind fun p => (s.outward k p).findSome? (·.find? m)) := by
  rw [outward, hg]
  change (g :: _).findSome? _ = _
  rw [List.findSome?_cons]
  cases g.find? m with
  | some w => rfl
  | none => cases g.parent <;> rfl

theorem findSome?_outward_none {k : Nat} (hg : s.frames[e]? = none) :
    (s.outward k e).findSome? (·.find? m) = none := by
  cases k with
  | zero => rfl
  | succ k => rw [outward, hg]; rfl

theorem binds_eq {g : Frame} (hg : s.frames[e]? = some g) : s.binds e m = (g.find? m).isSome := by
  simp only [binds, hg, Frame.binds]

theorem MadeOf.outward_push {V : Vocabulary} (hs : s.MadeOf V) (g : Frame) {k : Nat}
    (he : e < s.frames.size) : (s.push g).2.outward k e = s.outward k e := by
  induction k generalizing e with
  | zero => rfl
  | succ k ih =>
      have hf := Array.getElem?_eq_getElem he
      rw [outward, outward, keeps_push s g e _ hf, hf]
      cases hp : s.frames[e].parent with
      | none => simp only [hp]
      | some p => simp only [hp, ih (Nat.lt_trans ((hs e _ hf).older p hp) he)]

theorem MadeOf.find?_push {V : Vocabulary} (hs : s.MadeOf V) (g : Frame) (he : e < s.frames.size)
    (m : String) : (s.push g).2.find? e m = s.find? e m := by
  rw [Store.find?, Store.find?, chain, chain, hs.outward_push g he]

theorem MadeOf.find?_eq {V : Vocabulary} (hs : s.MadeOf V) {g : Frame} {p : FrameId}
    (hg : s.frames[e]? = some g) (hp : g.parent = some p) (m : String) :
    s.find? e m = (g.find? m).or (s.find? p m) := by
  rw [Store.find?, Store.find?, hs.chain_inner hg hp, List.findSome?_cons]
  cases g.find? m <;> rfl

theorem frames_define (hb : s.binds f name = false) (v : Value) (id : FrameId) :
    (s.define f name v).2.frames[id]? =
      if f = id then s.frames[id]?.map (·.bind name v) else s.frames[id]? := by
  rw [define, hb]
  exact Array.getElem?_modify

theorem findSome?_outward_define (hb : s.binds f name = false) (v : Value) {g : Frame} {k : Nat}
    (hg : s.frames[e]? = some g) :
    ((s.define f name v).2.outward (k + 1) e).findSome? (·.find? m) =
      (if f = e ∧ m = name then some v else g.find? m).or (g.parent.bind fun p =>
        ((s.define f name v).2.outward k p).findSome? (·.find? m)) := by
  have ht := frames_define hb v e
  by_cases he : f = e
  · rw [if_pos he, hg, Option.map_some] at ht
    rw [findSome?_outward ht, Frame.find?_bind]
    simp only [he, true_and]
    rfl
  · rw [if_neg he, hg] at ht
    rw [findSome?_outward ht, if_neg fun h => he h.1]

theorem MadeOf.findSome?_define {V : Vocabulary} (hs : s.MadeOf V) {e f : Nat}
    (hf : f < s.frames.size) (hb : s.binds f name = false) (v : Value) {k : Nat}
    (h : s.Reaches name f e) (hk : e < k) :
    ((s.define f name v).2.outward k e).findSome? (·.find? name) = some v := by
  induction h generalizing k with
  | here =>
      obtain ⟨k, rfl⟩ : ∃ j, k = j + 1 := ⟨k - 1, by omega⟩
      rw [findSome?_outward_define hb v (Array.getElem?_eq_getElem hf), if_pos ⟨rfl, rfl⟩]
      rfl
  | @outward e p hname hp h ih =>
      obtain ⟨k, rfl⟩ : ∃ j, k = j + 1 := ⟨k - 1, by omega⟩
      obtain ⟨g, hg, hp⟩ := Option.bind_eq_some_iff.1 hp
      have hlt : p < k := Nat.lt_of_lt_of_le ((hs e g hg).older p hp) (Nat.le_of_lt_succ hk)
      rw [binds_eq hg, Option.isSome_eq_false_iff, Option.isNone_iff_eq_none] at hname
      rw [findSome?_outward_define hb v hg, hp, Option.bind_some, ih hlt, hname]
      split <;> rfl

theorem findSome?_define_of_not_reaches (hb : s.binds f name = false) (v : Value) (k : Nat)
    (h : ¬ (m = name ∧ s.Reaches name f e)) :
    ((s.define f name v).2.outward k e).findSome? (·.find? m) =
      (s.outward k e).findSome? (·.find? m) := by
  induction k generalizing e with
  | zero => rfl
  | succ k ih =>
      cases hg : s.frames[e]? with
      | none =>
          have ht := frames_define hb v e
          rw [hg, Option.map_none, ite_self] at ht
          rw [findSome?_outward_none ht, findSome?_outward_none hg]
      | some g =>
          have hhere : ¬ (f = e ∧ m = name) := by
            rintro ⟨rfl, rfl⟩
            exact h ⟨rfl, .here⟩
          rw [findSome?_outward_define hb v hg, findSome?_outward hg, if_neg hhere]
          cases hfind : g.find? m with
          | some w => rfl
          | none =>
              cases hp : g.parent with
              | none => rfl
              | some p =>
                  refine ih ?_
                  rintro ⟨rfl, hreach⟩
                  have hname : s.binds e m = false := by
                    rw [binds_eq hg, hfind]
                    rfl
                  have hparent : s.parent? e = some p := by
                    rw [parent?, hg]
                    exact hp
                  exact h ⟨rfl, .outward hname hparent hreach⟩

theorem lookup_of_find? (h : s.find? e m = some v) : s.lookup e m = .ok v := by
  rw [lookup, h]

theorem lookup_congr {e' : FrameId} (h : s.find? e m = t.find? e' m) :
    s.lookup e m = t.lookup e' m := by
  rw [lookup, lookup, h]

theorem define_eq_error_iff :
    s.define f name v = (.error (.duplicateDefinition name), s) ↔ s.binds f name := by
  rw [define]
  split
  · next h => exact iff_of_true rfl h
  · next h => exact iff_of_false (by simp) h

inductive Next (s : Store) : Store → Prop
  | newRoot : Next s s.newRoot.2
  | extend {env : FrameId} (henv : env < s.frames.size) {pairs : List (String × Value)}
      (hpairs : ∀ b ∈ pairs, b.2.Within s) : Next s (s.extend env pairs).2
  | define (env : FrameId) (name : String) {v : Value} (hv : v.Within s) :
      Next s (s.define env name v).2
  | close (env : FrameId) (params : List String) (body : Node) :
      Next s (s.close env params body).2
  | evaluate (limit : Nat) {env : FrameId} (henv : env < s.frames.size) (n : Node) :
      Next s ((evaluate limit env n).after s)
  | apply (limit : Nat) {c : Closure} (hc : c.Within s) {args : List Value}
      (hargs : ∀ v ∈ args, v.Within s) : Next s ((apply limit c args).after s)
  | applyToNodes (limit : Nat) {env : FrameId} (henv : env < s.frames.size) {c : Closure}
      (hc : c.Within s) (operands : List Node) :
      Next s ((applyToNodes limit env c operands).after s)

theorem Reachable.next (hs : s.Reachable) (h : s.Next t) : t.Reachable := by
  cases h with
  | newRoot => exact hs.newRoot
  | extend henv hpairs => exact hs.extend henv hpairs
  | define env name hv => exact hs.define env name hv
  | close env params body => exact hs.close env params body
  | evaluate limit henv n => exact hs.evaluate limit henv n
  | apply limit hc hargs => exact hs.apply limit hc hargs
  | applyToNodes limit henv hc operands => exact hs.applyToNodes limit henv hc operands

theorem Reachable.later (hs : s.Reachable) (h : Relation.ReflTransGen Next s t) :
    t.Reachable := by
  induction h with
  | refl => exact hs
  | tail _ h ih => exact ih.next h

/-- Every frame of `s` is in `t`, with the bindings that it had and maybe more. -/
def Gains (s t : Store) : Prop :=
  ∀ (id : FrameId) (f : Frame), s.frames[id]? = some f →
    ∃ g, t.frames[id]? = some g ∧ f.Gained g

theorem gains_of_extends {env : FrameId} (h : Extends env s t) : s.Gains t := by
  intro id f hf
  obtain ⟨g, hg, hfg, -⟩ := h id f hf
  exact ⟨g, hg, hfg⟩

theorem gains_of_keeps (h : Keeps s t) : s.Gains t := gains_of_extends (h.extends 0)

theorem Gains.trans (h : s.Gains t) (h' : t.Gains u) : s.Gains u := by
  intro id f hf
  obtain ⟨g, hg, hfg⟩ := h id f hf
  obtain ⟨k, hk, hgk⟩ := h' id g hg
  exact ⟨k, hk, hfg.trans hgk⟩

theorem Next.gains (h : s.Next t) : s.Gains t := by
  cases h with
  | newRoot | extend => exact gains_of_keeps (keeps_push s _)
  | define env name => exact gains_of_extends (.define env name _ s)
  | close => exact gains_of_keeps fun _ _ hf => hf
  | @evaluate limit env _ n =>
      exact gains_of_extends
        (Run.extending_lockstep.evaluate Run.extending_within limit env n s)
  | apply limit =>
      exact gains_of_keeps (Extends.keeps_of_forall fun env =>
        Run.extending_lockstep.applyWithin Run.extending_within limit limit env _ _ s)
  | @applyToNodes limit env _ c _ operands =>
      exact gains_of_extends
        (Run.extending_lockstep.applyToNodes Run.extending_within limit env c operands s)

theorem gains_of_later (h : Relation.ReflTransGen Next s t) : s.Gains t := by
  induction h with
  | refl => exact gains_of_keeps (.refl s)
  | tail _ h ih => exact ih.trans h.gains

theorem Gains.exists_frame (h : t.Gains u) {g : Frame} (hg : t.frames[e]? = some g)
    (hnew : ∀ m, u.binds e m → t.binds e m) :
    ∃ k, u.frames[e]? = some k ∧ k.parent = g.parent ∧ ∀ m, k.find? m = g.find? m := by
  obtain ⟨k, hk, hgk⟩ := h e g hg
  refine ⟨k, hk, hgk.parent, fun m => ?_⟩
  cases hfind : g.find? m with
  | some v => exact hgk.find? m v hfind
  | none =>
      by_contra hne
      have hbinds := hnew m (by rw [binds_eq hk]; exact Option.isSome_iff_ne_none.2 hne)
      rw [binds_eq hg, hfind] at hbinds
      cases hbinds

end Store

/-- A definition in a frame is refused, and nothing is changed, exactly if the frame binds the name
already. Otherwise it is what a search for the name finds that comes to the frame, and no other search
finds anything else than before. No search that could be made before a new frame finds anything else
after it. As long as nothing is defined in the new frame itself, it answers for each name given to it
with the last value given, and for every other name with what the frame around it finds at the time. -/
theorem visibility (hs : s.Reachable) :
    (∀ f < s.frames.size, ∀ name v,
      (s.define f name v = (.error (.duplicateDefinition name), s) ↔ s.binds f name) ∧
      (¬ s.binds f name →
        let t := (s.define f name v).2
        (s.define f name v).1 = .ok () ∧ ∀ e m,
          (m = name ∧ s.Reaches name f e → t.lookup e m = .ok v) ∧
          (¬ (m = name ∧ s.Reaches name f e) → t.lookup e m = s.lookup e m))) ∧
    ∀ env < s.frames.size, ∀ pairs,
      let child := (s.extend env pairs).1
      let t := (s.extend env pairs).2
      (∀ e < s.frames.size, ∀ m, t.lookup e m = s.lookup e m) ∧
      ((∀ b ∈ pairs, b.2.Within s) → ∀ u, Relation.ReflTransGen Store.Next t u →
        (∀ m, u.binds child m → t.binds child m) →
        (∀ before name v after, pairs = before ++ (name, v) :: after →
          name ∉ after.map Prod.fst → u.lookup child name = .ok v) ∧
        ∀ name, name ∉ pairs.map Prod.fst → u.lookup child name = u.lookup env name) := by
  have hmade := hs.madeOf
  refine ⟨fun f hf name v => ⟨Store.define_eq_error_iff, fun hb => ?_⟩, fun env henv pairs => ⟨?_, ?_⟩⟩
  · intro t
    rw [Bool.not_eq_true] at hb
    have hok : (s.define f name v).1 = .ok () := by
      rw [Store.define, hb]
      rfl
    refine ⟨hok, fun e m => ⟨?_, fun h => ?_⟩⟩
    · rintro ⟨rfl, hreach⟩
      exact Store.lookup_of_find? (hmade.findSome?_define hf hb v hreach (Nat.lt_succ_self e))
    · exact Store.lookup_congr (Store.findSome?_define_of_not_reaches hb v (e + 1) h)
  · exact fun e he m => Store.lookup_congr (hmade.find?_push _ he m)
  · intro hpairs u hu hnew
    have hframe : (s.extend env pairs).2.frames[s.frames.size]? = some ⟨pairs.reverse, some env⟩ :=
      Array.getElem?_push_size
    obtain ⟨k, hk, hparent, hfind⟩ := (Store.gains_of_later hu).exists_frame hframe hnew
    have hchild : ∀ m, u.find? s.frames.size m = (pairs.reverse.lookup m).or (u.find? env m) := by
      intro m
      rw [((hs.extend henv hpairs).later hu).madeOf.find?_eq hk hparent, hfind]
      rfl
    constructor
    · rintro before name v after rfl hlast
      refine Store.lookup_of_find? ((hchild name).trans ?_)
      rw [Frame.lookup_reverse_last before hlast]
      rfl
    · intro name hname
      refine Store.lookup_congr ((hchild name).trans ?_)
      rw [Frame.lookup_reverse_none hname]
      rfl

theorem visibility_shadowed :
    let s := ((Store.newRoot {}).2.extend 0 [("y", .integer 1)]).2
    let s := (s.extend 1 [("x", .integer 2)]).2
    let t := (s.extend 1 [("a", .integer 3), ("a", .integer 4)]).2
    let u := (t.define 0 "x" (.integer 7)).2
    s.Reachable ∧ (s.define 0 "x" (.integer 7)).2.lookup 1 "x" = .ok (.integer 7) ∧
      (s.define 0 "x" (.integer 7)).2.lookup 2 "x" = .ok (.integer 2) ∧
      u.lookup 3 "a" = .ok (.integer 4) ∧ u.lookup 3 "x" = u.lookup 1 "x" := by
  intro s₁ s t u
  have hwithin (n : Int64) (s : Store) : (Value.integer n).Within s := fun c hc => by
    cases List.mem_singleton.1 hc
  have hs₁ : s₁.Reachable := .extend (.newRoot .empty) (by decide)
    (List.forall_mem_singleton.2 (hwithin 1 _))
  have hs : s.Reachable := .extend hs₁ (by decide) (List.forall_mem_singleton.2 (hwithin 2 _))
  obtain ⟨hdefine, hextend⟩ := visibility hs
  obtain ⟨-, hseen⟩ := hdefine 0 (by decide) "x" (.integer 7)
  obtain ⟨-, hseen⟩ := hseen (by decide)
  obtain ⟨-, hchild⟩ := hextend 1 (by decide) [("a", .integer 3), ("a", .integer 4)]
  have hpairs : ∀ b ∈ [("a", Value.integer 3), ("a", .integer 4)], b.2.Within s :=
    List.forall_mem_cons.2 ⟨hwithin 3 s, List.forall_mem_singleton.2 (hwithin 4 s)⟩
  have hu : Relation.ReflTransGen Store.Next t u := .single (.define 0 "x" (hwithin 7 t))
  obtain ⟨hgiven, hother⟩ := hchild hpairs u hu fun _ h => h
  have hreaches : s.Reaches "x" 0 1 := .outward (by decide) rfl .here
  have hhidden : ¬ s.Reaches "x" 0 2 := by
    intro h
    cases h with
    | outward hname => exact absurd hname (by decide)
  refine ⟨hs, (hseen 1 "x").1 ⟨rfl, hreaches⟩, ?_, ?_, ?_⟩
  · rw [(hseen 2 "x").2 fun h => hhidden h.2]
    decide
  · exact hgiven [("a", .integer 3)] "a" (.integer 4) [] rfl List.not_mem_nil
  · exact hother "x" (by decide)

end SmallLisp
