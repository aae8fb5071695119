import SmallLisp.Proofs.Eval.Frames
import SmallLisp.Proofs.Eval.Soundness

namespace SmallLisp

variable {V : Vocabulary} {s t : Store} {given : List Node}

/-- A node is part of another if it stands in it at any depth, or is the other itself. -/
inductive Node.PartOf (n : Node) : Node → Prop
  | self : PartOf n n
  | item {items : List Node} {m : Node} (hm : m ∈ items) (h : PartOf n m) : PartOf n (.list items)

theorem Node.PartOf.of_item {items : List Node} {n m : Node} (h : PartOf (.list items) m)
    (hn : n ∈ items) : PartOf n m := by
  induction h with
  | self => exact .item hn .self
  | item hm _ ih => exact .item hm ih

inductive Store.LeadsToRoot (s : Store) : FrameId → Prop
  | root {id : FrameId} {f : Frame} (hf : s.frames[id]? = some f) (hp : f.parent = none) :
      LeadsToRoot s id
  | inner {id p : FrameId} {f : Frame} (hf : s.frames[id]? = some f) (hp : f.parent = some p)
      (h : LeadsToRoot s p) : LeadsToRoot s id

structure Closure.WellFormed (given : List Node) (s : Store) (c : Closure) : Prop where
  distinct : c.params.Nodup
  body : ∃ n ∈ given, c.body.PartOf n
  scope : s.LeadsToRoot c.env

def Vocabulary.ofParts (given : List Node) : Vocabulary where
  name _ := True
  node n := ∃ m ∈ given, n.PartOf m
  distinct := True
  symbol _ := trivial
  item := fun ⟨m, hm, h⟩ hn => ⟨m, hm, h.of_item hn⟩

theorem Store.MadeOf.leadsToRoot (hs : s.MadeOf V) {id : Nat} (hid : id < s.frames.size) :
    s.LeadsToRoot id := by
  induction id using Nat.strongRecOn with
  | ind id ih =>
      have hf := Array.getElem?_eq_getElem hid
      cases hp : s.frames[id].parent with
      | none => exact .root hf hp
      | some p =>
          have hlt : p < id := (hs id _ hf).older p hp
          exact .inner hf hp (ih p hlt (Nat.lt_trans hlt hid))

theorem Closure.MadeOf.wellFormed {c : Closure} (hc : c.MadeOf (.ofParts given) s)
    (hs : s.MadeOf V) : c.WellFormed given s :=
  ⟨hc.params trivial, hc.body, hs.leadsToRoot hc.env⟩

/-- The frame binds each name to the value at its place, and no other name. -/
structure Frame.BindsExactly (f : Frame) (names : List String) (vs : List Value) : Prop where
  each : List.Forall₂ (fun name v => f.find? name = some v) names vs
  only : ∀ name ∉ names, f.find? name = none

/-- An application of a well-formed closure that adds a frame, inside the scope of the closure, in
which exactly the parameters are bound to their arguments. -/
structure Closure.AppliesExactly (given : List Node) (s : Store) (c : Closure) (args : List Value) :
    Prop where
  wellFormed : c.WellFormed given s
  frame : ∃ f : Frame, s.extend c.env (c.params.zip args) =
    (s.frames.size, { s with frames := s.frames.push f }) ∧
    f.parent = some c.env ∧ f.BindsExactly c.params args

theorem Frame.bindsExactly {names : List String} {vs : List Value} (hnames : names.Nodup)
    (hl : vs.length = names.length) (parent : Option FrameId) :
    (Frame.mk (names.zip vs).reverse parent).BindsExactly names vs :=
  ⟨lookup_zip hnames hl, fun _ hname => lookup_reverse_none (notMem_zip hname vs)⟩

theorem Closure.WellFormed.appliesExactly {c : Closure} (hc : c.WellFormed given s)
    {args : List Value} (harity : args.length = c.arity) : c.AppliesExactly given s args :=
  ⟨hc, _, rfl, rfl, Frame.bindsExactly hc.distinct harity _⟩

end SmallLisp
