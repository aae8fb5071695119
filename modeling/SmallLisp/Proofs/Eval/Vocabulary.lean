import SmallLisp.Proofs.Value.Leaves

namespace SmallLisp

/-- Names for symbols and nodes for program text, among them all parts of a node. -/
structure Vocabulary where
  name : String → Prop
  node : Node → Prop
  /-- Whether no closure has a parameter twice. -/
  distinct : Prop := False
  symbol : ∀ {a : String}, node (.symbol a) → name a
  item : ∀ {items : List Node} {n : Node}, node (.list items) → n ∈ items → node n

def Vocabulary.any : Vocabulary where
  name _ := True
  node _ := True
  symbol _ := trivial
  item _ _ := trivial

variable {V : Vocabulary} {s t u : Store}

structure Closure.MadeOf (V : Vocabulary) (s : Store) (c : Closure) : Prop where
  env : c.env < s.frames.size
  number : c.id < s.closures
  body : V.node c.body
  params : V.distinct → c.params.Nodup

def Vocabulary.Leaf (V : Vocabulary) (s : Store) : Value → Prop
  | .symbol name => V.name name
  | .closure c => c.MadeOf V s
  | _ => True

/-- The symbols of the value are names of `V`, and its closures have a place in the store and text of
`V` for bodies. -/
def Value.MadeOf (V : Vocabulary) (s : Store) (v : Value) : Prop := ∀ x ∈ v.leaves, V.Leaf s x

structure Frame.MadeOf (V : Vocabulary) (s : Store) (id : FrameId) (f : Frame) : Prop where
  older : ∀ p, f.parent = some p → p < id
  values : ∀ b ∈ f.bindings, b.2.MadeOf V s

def Store.MadeOf (V : Vocabulary) (s : Store) : Prop :=
  ∀ (id : FrameId) (f : Frame), s.frames[id]? = some f → f.MadeOf V s id

structure Store.Before (s t : Store) : Prop where
  frames : s.frames.size ≤ t.frames.size
  closures : s.closures ≤ t.closures

namespace Store.Before

theorem refl (s : Store) : s.Before s := ⟨Nat.le_refl _, Nat.le_refl _⟩

theorem trans (h : s.Before t) (h' : t.Before u) : s.Before u :=
  ⟨Nat.le_trans h.frames h'.frames, Nat.le_trans h.closures h'.closures⟩

end Store.Before

theorem Closure.MadeOf.mono {c : Closure} (h : c.MadeOf V s) (hst : s.Before t) : c.MadeOf V t :=
  ⟨Nat.lt_of_lt_of_le h.env hst.frames, Nat.lt_of_lt_of_le h.number hst.closures, h.body, h.params⟩

namespace Value.MadeOf

variable {v : Value} {vs items : List Value}

theorem mono (h : v.MadeOf V s) (hst : s.Before t) : v.MadeOf V t := by
  intro x hx
  have hleaf := h x hx
  cases x with
  | closure c => exact Closure.MadeOf.mono hleaf hst
  | boolean | integer | symbol | list => exact hleaf

theorem boolean (b : Bool) : (Value.boolean b).MadeOf V s :=
  List.forall_mem_singleton.2 trivial

theorem integer (n : Int64) : (Value.integer n).MadeOf V s :=
  List.forall_mem_singleton.2 trivial

theorem symbol {name : String} (h : V.name name) : (Value.symbol name).MadeOf V s :=
  List.forall_mem_singleton.2 h

theorem closure {c : Closure} (h : c.MadeOf V s) : (Value.closure c).MadeOf V s :=
  List.forall_mem_singleton.2 h

theorem callee {c : Closure} (h : v.MadeOf V s) (hc : v.callee = .ok c) : c.MadeOf V s := by
  refine h (.closure c) ?_
  rw [leaves_of_callee hc]
  exact List.mem_singleton_self _

theorem compute {k : Keyword} (h : ∀ v ∈ vs, v.MadeOf V s) (hv : k.compute vs = .ok v) :
    v.MadeOf V s := by
  intro x hx
  obtain ⟨b, rfl⟩ | ⟨n, rfl⟩ | hx := Keyword.leaves_compute hv hx
  · trivial
  · trivial
  · obtain ⟨w, hw, hx⟩ := mem_leavesAll.1 hx
    exact h w hw x hx

mutual

theorem ofNode : {n : Node} → V.node n → (ofNode n).MadeOf V s
  | .boolean b, _ => boolean b
  | .integer n, _ => integer n
  | .symbol _, h => symbol (V.symbol h)
  | .list items, h => forall_leavesAll.2 (ofNodes items fun _ => V.item h)

theorem ofNodes :
    (ns : List Node) → (∀ n ∈ ns, V.node n) → ∀ v ∈ Value.ofNodes ns, v.MadeOf V s
  | [], _ => nofun
  | _ :: ns, h => by
      obtain ⟨hn, hns⟩ := List.forall_mem_cons.1 h
      exact List.forall_mem_cons.2 ⟨ofNode hn, ofNodes ns hns⟩

end

end Value.MadeOf

namespace Store

theorem exists_of_mem_outward {f : Frame} {k id : Nat} (h : f ∈ s.outward k id) :
    ∃ id : FrameId, s.frames[id]? = some f := by
  induction k generalizing id with
  | zero => cases h
  | succ k ih =>
      rw [outward] at h
      cases hg : s.frames[id]? with
      | none =>
          rw [hg] at h
          cases h
      | some g =>
          rw [hg] at h
          obtain rfl | h := List.mem_cons.1 h
          · exact ⟨id, hg⟩
          · cases hp : g.parent with
            | none =>
                rw [hp] at h
                cases h
            | some p =>
                rw [hp] at h
                exact ih h

theorem chain_root {id : Nat} {f : Frame} (hf : s.frames[id]? = some f) (hp : f.parent = none) :
    s.chain id = [f] := by
  rw [chain, outward, hf]
  simp only [hp]

namespace MadeOf

theorem find? (hs : s.MadeOf V) {env : FrameId} {name : String} {v : Value}
    (h : s.find? env name = some v) : v.MadeOf V s := by
  obtain ⟨f, hf, hv⟩ := List.exists_of_findSome?_eq_some h
  obtain ⟨id, hid⟩ := exists_of_mem_outward hf
  obtain ⟨l₁, l₂, hb, -⟩ := List.lookup_eq_some_iff.1 hv
  exact (hs id f hid).values (name, v) (by simp [hb])

theorem outward_eq (hs : s.MadeOf V) {k id : Nat} (h : id < k) :
    s.outward k id = s.chain id := by
  induction id using Nat.strongRecOn generalizing k with
  | ind id ih =>
      obtain ⟨k, rfl⟩ : ∃ j, k = j + 1 := ⟨k - 1, by omega⟩
      rw [chain, outward, outward]
      cases hf : s.frames[id]? with
      | none => rfl
      | some f =>
          cases hp : f.parent with
          | none => simp only [hp]
          | some p =>
              have hlt : p < id := (hs id f hf).older p hp
              simp only [hp, ih p hlt (Nat.lt_of_lt_of_le hlt (Nat.le_of_lt_succ h)), ih p hlt hlt]

theorem chain_inner (hs : s.MadeOf V) {id p : Nat} {f : Frame} (hf : s.frames[id]? = some f)
    (hp : f.parent = some p) : s.chain id = f :: s.chain p := by
  rw [chain, outward, hf]
  simp only [hp, hs.outward_eq ((hs id f hf).older p hp)]

theorem close (hs : s.MadeOf V) :
    Store.MadeOf V { s with closures := s.closures + 1 } := by
  intro id f hf
  obtain ⟨holder, hvalues⟩ := hs id f hf
  exact ⟨holder, fun b hb => (hvalues b hb).mono ⟨Nat.le_refl _, Nat.le_succ _⟩⟩

theorem define (hs : s.MadeOf V) (env : FrameId) (name : String) {v : Value}
    (hv : v.MadeOf V s) :
    (s.define env name v).2.MadeOf V ∧ s.Before (s.define env name v).2 := by
  rw [Store.define]
  by_cases hb : s.binds env name
  · rw [if_pos hb]
    exact ⟨hs, .refl s⟩
  · rw [if_neg hb]
    have hbefore : s.Before { s with frames := s.frames.modify env (·.bind name v) } :=
      ⟨Nat.le_of_eq Array.size_modify.symm, Nat.le_refl _⟩
    refine ⟨fun id f hf => ?_, hbefore⟩
    rw [Array.getElem?_modify] at hf
    by_cases hid : env = id
    · rw [if_pos hid] at hf
      obtain ⟨g, hg, rfl⟩ := Option.map_eq_some_iff.1 hf
      obtain ⟨holder, hvalues⟩ := hs id g hg
      refine ⟨holder, List.forall_mem_cons.2 ⟨hv.mono hbefore, fun b hb => ?_⟩⟩
      exact (hvalues b hb).mono hbefore
    · rw [if_neg hid] at hf
      obtain ⟨holder, hvalues⟩ := hs id f hf
      exact ⟨holder, fun b hb => (hvalues b hb).mono hbefore⟩

theorem push (hs : s.MadeOf V) {f : Frame} (hf : f.MadeOf V s s.frames.size) :
    (s.push f).2.MadeOf V ∧ s.Before (s.push f).2 ∧ (s.push f).1 < (s.push f).2.frames.size := by
  have hsize : (s.push f).2.frames.size = s.frames.size + 1 := Array.size_push _
  have hbefore : s.Before (s.push f).2 := ⟨by omega, Nat.le_refl _⟩
  refine ⟨fun id g hg => ?_, hbefore, by rw [hsize]; exact Nat.lt_succ_self _⟩
  change (s.frames.push f)[id]? = some g at hg
  rw [Array.getElem?_push] at hg
  by_cases hid : id = s.frames.size
  · rw [if_pos hid] at hg
    cases hg
    exact ⟨hid ▸ hf.older, fun b hb => (hf.values b hb).mono hbefore⟩
  · rw [if_neg hid] at hg
    obtain ⟨holder, hvalues⟩ := hs id g hg
    exact ⟨holder, fun b hb => (hvalues b hb).mono hbefore⟩

theorem empty (V : Vocabulary) : Store.MadeOf V {} := fun _ _ hf => nomatch hf

theorem newRoot (hs : s.MadeOf V) : s.newRoot.2.MadeOf V := by
  refine (hs.push ⟨?_, fun b hb => absurd hb List.not_mem_nil⟩).1
  rintro p ⟨⟩

theorem extend (hs : s.MadeOf V) {env : FrameId} (henv : env < s.frames.size)
    {pairs : List (String × Value)} (hpairs : ∀ b ∈ pairs, b.2.MadeOf V s) :
    (s.extend env pairs).2.MadeOf V ∧ s.Before (s.extend env pairs).2 ∧
      (s.extend env pairs).1 < (s.extend env pairs).2.frames.size := by
  refine hs.push ⟨?_, fun b hb => hpairs b (List.mem_reverse.1 hb)⟩
  rintro p ⟨⟩
  exact henv

end MadeOf

end Store

end SmallLisp
