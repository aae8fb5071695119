import SmallLisp.Proofs.Eval.Lockstep
import SmallLisp.Proofs.Run
import SmallLisp.Proofs.Value
import Mathlib.Data.List.Forall2

namespace SmallLisp

/-- How the second of two evaluations may differ from the first. -/
structure Matching where
  derived : Bool := false
  /-- What the old frames bind in the second only. -/
  extra : List (String × Value) := []
  old : Nat := 0
  /-- How much greater the numbers of the other frames are in the second. -/
  shift : Nat := 0
  made : Nat := 0
  /-- How much greater the numbers of the other closures are in the second, where they are followed. -/
  lag : Option Nat := none
  /-- How the body of a closure in the second may look; it is evaluated alike in any case. -/
  body : Node → Node → Prop := Eq
  followed : derived → lag = none := by simp

namespace Matching

def hidden (M : Matching) : List String := M.extra.map (·.1)

def frame (M : Matching) (id : Nat) : Nat := if id < M.old then id else id + M.shift

mutual

/-- Nodes that are evaluated alike in stores that match. Both are the same program text, in which no
hidden name is looked up or defined, but for derived forms that the second may have written out. -/
inductive Alike (M : Matching) : Node → Node → Prop
  | boolean (b : Bool) : Alike M (.boolean b) (.boolean b)
  | integer (n : Int64) : Alike M (.integer n) (.integer n)
  | symbol {name : String} (h : name ∉ M.hidden) : Alike M (.symbol name) (.symbol name)
  | empty : Alike M (.list []) (.list [])
  | call {head head' : Node} {operands operands' : List Node} (hk : head.keyword? = none)
      (hk' : head'.keyword? = none) (h : Alike M head head') (hs : AlikeAll M operands operands') :
      Alike M (.list (head :: operands)) (.list (head' :: operands'))
  | arity {head : Node} {operands : List Node} {k : Keyword} (hk : head.keyword? = some k)
      (hl : operands.length ≠ k.operands) :
      Alike M (.list (head :: operands)) (.list (head :: operands))
  | strict {head : Node} {operands operands' : List Node} {k : Keyword}
      (hk : head.keyword? = some k) (hl : operands.length = k.operands) (hs : k.isStrict)
      (h : AlikeAll M operands operands') :
      Alike M (.list (head :: operands)) (.list (head :: operands'))
  | quote {head n : Node} (hk : head.keyword? = some (.form .quote)) :
      Alike M (.list [head, n]) (.list [head, n])
  | ifElse {head test yes no test' yes' no' : Node} (hk : head.keyword? = some (.form .ifElse))
      (htest : Alike M test test') (hyes : Alike M yes yes') (hno : Alike M no no') :
      Alike M (.list [head, test, yes, no]) (.list [head, test', yes', no'])
  | define {head target n n' : Node} (hk : head.keyword? = some (.form .define))
      (ht : ∀ name, target = .symbol name → name ∉ M.hidden) (h : Alike M n n') :
      Alike M (.list [head, target, n]) (.list [head, target, n'])
  | lambda {head params body body' : Node} (hk : head.keyword? = some (.form .lambda))
      (hb : M.body body body') (h : Alike M body body') :
      Alike M (.list [head, params, body]) (.list [head, params, body'])
  | defn {head target params body body' : Node} (hk : head.keyword? = some (.form .defn))
      (ht : ∀ name, target = .symbol name → name ∉ M.hidden) (hb : M.body body body')
      (h : Alike M body body') :
      Alike M (.list [head, target, params, body]) (.list [head, target, params, body'])
  | letNil {head body body' : Node} (hk : head.keyword? = some (.form .letIn))
      (h : Alike M body body') : Alike M (.list [head, .list [], body]) (.list [head, .list [], body'])
  | letCons {head n n' body body' : Node} {name : String} {bindings bindings' : List Node}
      (hk : head.keyword? = some (.form .letIn)) (h : Alike M n n')
      (hrest : Alike M (.list [head, .list bindings, body]) (.list [head, .list bindings', body'])) :
      Alike M (.list [head, .list (.list [.symbol name, n] :: bindings), body])
        (.list [head, .list (.list [.symbol name, n'] :: bindings'), body'])
  | letMalformed {head binding body : Node} {bindings : List Node}
      (hk : head.keyword? = some (.form .letIn))
      (hb : ∀ name n, binding = .list [.symbol name, n] → False) :
      Alike M (.list [head, .list (binding :: bindings), body])
        (.list [head, .list (binding :: bindings), body])
  | letNoList {head bindings body : Node} (hk : head.keyword? = some (.form .letIn))
      (hb : bindings.items? = none) :
      Alike M (.list [head, bindings, body]) (.list [head, bindings, body])
  | condNil {head : Node} (hk : head.keyword? = some (.form .cond)) :
      Alike M (.list [head, .list []]) (.list [head, .list []])
  | condCons {head test n test' n' : Node} {clauses clauses' : List Node}
      (hk : head.keyword? = some (.form .cond)) (htest : Alike M test test') (h : Alike M n n')
      (hrest : Alike M (.list [head, .list clauses]) (.list [head, .list clauses'])) :
      Alike M (.list [head, .list (.list [test, n] :: clauses)])
        (.list [head, .list (.list [test', n'] :: clauses')])
  | condMalformed {head clause : Node} {clauses : List Node}
      (hk : head.keyword? = some (.form .cond))
      (hc : ∀ test n, clause = .list [test, n] → False) :
      Alike M (.list [head, .list (clause :: clauses)]) (.list [head, .list (clause :: clauses)])
  | condNoList {head clauses : Node} (hk : head.keyword? = some (.form .cond))
      (hc : clauses.items? = none) : Alike M (.list [head, clauses]) (.list [head, clauses])
  | defnDefine {head target params body body' : Node} (hd : M.derived)
      (hk : head.keyword? = some (.form .defn))
      (ht : ∀ name, target = .symbol name → name ∉ M.hidden) (hb : M.body body body')
      (h : Alike M body body') :
      Alike M (.list [head, target, params, body])
        (.list [.symbol "define", target, .list [.symbol "lambda", params, body']])
  | letBody {head body body' : Node} (hd : M.derived) (hk : head.keyword? = some (.form .letIn))
      (h : Alike M body body') : Alike M (.list [head, .list [], body]) body'
  | letCall {head n n' body inner : Node} {name : String} {bindings : List Node} (hd : M.derived)
      (hk : head.keyword? = some (.form .letIn)) (h : Alike M n n')
      (hrest : Alike M (.list [head, .list bindings, body]) inner) :
      Alike M (.list [head, .list (.list [.symbol name, n] :: bindings), body])
        (.list [.list [.symbol "lambda", .list [.symbol name], inner], n'])
  | condFalse {head : Node} (hd : M.derived) (hk : head.keyword? = some (.form .cond)) :
      Alike M (.list [head, .list []]) (.boolean false)
  | condIf {head test n test' n' rest : Node} {clauses : List Node} (hd : M.derived)
      (hk : head.keyword? = some (.form .cond)) (htest : Alike M test test') (h : Alike M n n')
      (hrest : Alike M (.list [head, .list clauses]) rest) :
      Alike M (.list [head, .list (.list [test, n] :: clauses)])
        (.list [.symbol "if", test', n', rest])

inductive AlikeAll (M : Matching) : List Node → List Node → Prop
  | nil : AlikeAll M [] []
  | cons {n n' : Node} {ns ns' : List Node} (h : Alike M n n') (hs : AlikeAll M ns ns') :
      AlikeAll M (n :: ns) (n' :: ns')

end

/-- The frames of a store of `n` frames that a closure may refer to. A store that does not number its
frames like the other one must have those that are looked into, and in their order. -/
def InScope (M : Matching) (n id : Nat) : Prop := M.shift ≠ 0 → id < n

theorem InScope.mono {M : Matching} {n m id : Nat} (h : M.InScope n id) (hnm : n ≤ m) :
    M.InScope m id :=
  fun hs => Nat.lt_of_lt_of_le (h hs) hnm

/-- The numbers that a closure has in the two stores. -/
def Numbers (M : Matching) (id id' : Nat) : Prop :=
  ∀ lag, M.lag = some lag → id' = if id < M.made then id else id + lag

structure Closures (M : Matching) (n : Nat) (c d : Closure) : Prop where
  number : M.Numbers c.id d.id
  params : d.params = c.params
  env : d.env = M.frame c.env
  inScope : M.InScope n c.env
  body : M.body c.body d.body
  alike : M.Alike c.body d.body

abbrev Values (M : Matching) (n : Nat) : Value → Value → Prop := Value.Lift (M.Closures n)

abbrev ValuesAll (M : Matching) (n : Nat) : List Value → List Value → Prop :=
  Value.LiftAll (M.Closures n)

def Bindings (M : Matching) (n : Nat) (b c : String × Value) : Prop :=
  c.1 = b.1 ∧ M.Values n b.2 c.2

structure Frames (M : Matching) (n : Nat) (id : FrameId) (f g : Frame) : Prop where
  parent : g.parent = f.parent.map M.frame
  older : M.shift ≠ 0 → ∀ p, f.parent = some p → p < id
  bindings : ∃ bs, g.bindings = bs ++ (if id < M.old then M.extra else []) ∧
    List.Forall₂ (M.Bindings n) f.bindings bs

structure Stores (M : Matching) (s t : Store) : Prop where
  old : M.old ≤ s.frames.size
  size : t.frames.size = s.frames.size + M.shift
  frames : ∀ id f, s.frames[id]? = some f →
    ∃ g, t.frames[M.frame id]? = some g ∧ M.Frames s.frames.size id f g
  closures : ∀ lag, M.lag = some lag → M.made ≤ s.closures ∧ t.closures = s.closures + lag

variable {M : Matching} {n m : Nat} {s t : Store}

theorem Closures.arity_eq {c d : Closure} (h : M.Closures n c d) : c.arity = d.arity := by
  rw [Closure.arity, Closure.arity, h.params]

theorem Closures.mono (hnm : n ≤ m) {c d : Closure} (h : M.Closures n c d) : M.Closures m c d :=
  ⟨h.number, h.params, h.env, h.inScope.mono hnm, h.body, h.alike⟩

theorem values_mono (hnm : n ≤ m) {v w : Value} (h : M.Values n v w) : M.Values m v w :=
  h.mono fun _ _ => Closures.mono hnm

theorem valuesAll_mono (hnm : n ≤ m) {vs ws : List Value} (h : M.ValuesAll n vs ws) :
    M.ValuesAll m vs ws :=
  h.mono fun _ _ => Closures.mono hnm

theorem Frames.mono (hnm : n ≤ m) {id : FrameId} {f g : Frame} (h : M.Frames n id f g) :
    M.Frames m id f g := by
  obtain ⟨bs, hbs, hall⟩ := h.bindings
  exact ⟨h.parent, h.older, bs, hbs, hall.imp fun _ _ hb => ⟨hb.1, values_mono hnm hb.2⟩⟩

theorem frame_of_le {id : Nat} (h : M.old ≤ id) : M.frame id = id + M.shift := by
  rw [frame, if_neg (Nat.not_lt_of_le h)]

theorem frame_eq_id (h : M.shift = 0) : M.frame = id := by
  funext k
  rw [frame, h, Nat.add_zero, ite_id]
  rfl

theorem frame_lt_frame {id id' : Nat} (h : id < id') : M.frame id < M.frame id' := by
  rw [frame, frame]
  split <;> split <;> omega

theorem frame_eq_frame {id id' : Nat} : M.frame id = M.frame id' ↔ id = id' := by
  constructor
  · intro h
    by_contra hne
    obtain hlt | hlt := Nat.lt_or_gt_of_ne hne
    · exact Nat.ne_of_lt (frame_lt_frame hlt) h
    · exact Nat.ne_of_gt (frame_lt_frame hlt) h
  · rintro rfl
    rfl

theorem Stores.frame_size (h : M.Stores s t) : M.frame s.frames.size = t.frames.size := by
  rw [frame_of_le h.old, h.size]

theorem Stores.frames_eq_none (h : M.Stores s t) {id : Nat} (hid : s.frames[id]? = none) :
    t.frames[M.frame id]? = none := by
  rw [Array.getElem?_eq_none_iff] at hid ⊢
  have hold := h.old
  rw [frame_of_le (by omega), h.size]
  omega

theorem lookup_bindings {bs cs : List (String × Value)} (h : List.Forall₂ (M.Bindings n) bs cs)
    (name : String) : Option.Rel (M.Values n) (bs.lookup name) (cs.lookup name) := by
  induction h with
  | nil => exact .none
  | @cons b c bs cs hb _ ih =>
      obtain ⟨m, v⟩ := b
      obtain ⟨m', w⟩ := c
      obtain ⟨rfl, hv⟩ := hb
      rw [List.lookup_cons, List.lookup_cons]
      cases name == m' with
      | true => exact .some hv
      | false => exact ih

theorem lookup_extra {name : String} (h : name ∉ M.hidden) (id : Nat) :
    (if id < M.old then M.extra else []).lookup name = none := by
  split
  · rw [List.lookup_eq_none_iff]
    intro b hb
    have hne : name ≠ b.1 := fun he => h (he ▸ List.mem_map_of_mem hb)
    simpa using hne
  · rfl

theorem Frames.find? {id : FrameId} {f g : Frame} (h : M.Frames n id f g) {name : String}
    (hname : name ∉ M.hidden) : Option.Rel (M.Values n) (f.find? name) (g.find? name) := by
  obtain ⟨bs, hbs, hall⟩ := h.bindings
  have hlookup : g.find? name = bs.lookup name := by
    rw [Frame.find?, hbs, List.lookup_append, lookup_extra hname, Option.or_none]
  rw [hlookup]
  exact lookup_bindings hall name

theorem rel_findSome?_cons {P : Value → Value → Prop} {name : String} {f g : Frame}
    {fs gs : List Frame} (h : Option.Rel P (f.find? name) (g.find? name))
    (hs : Option.Rel P (fs.findSome? (·.find? name)) (gs.findSome? (·.find? name))) :
    Option.Rel P ((f :: fs).findSome? (·.find? name)) ((g :: gs).findSome? (·.find? name)) := by
  rw [List.findSome?_cons, List.findSome?_cons]
  generalize f.find? name = x, g.find? name = y at h
  cases h with
  | none => exact hs
  | some h => exact .some h

/-- The two searches go outward in step. Where the frames have different numbers, neither runs out of
steps. -/
theorem Stores.find?_outward (h : M.Stores s t) {name : String} (hname : name ∉ M.hidden)
    {k k' id : Nat}
    (hk : k = k' ∨ M.shift ≠ 0 ∧ id < k ∧ M.frame id < k') :
    Option.Rel (M.Values s.frames.size) ((s.outward k id).findSome? (·.find? name))
      ((t.outward k' (M.frame id)).findSome? (·.find? name)) := by
  induction k generalizing k' id with
  | zero =>
      obtain rfl | ⟨-, hlt, -⟩ := hk
      · exact .none
      · exact absurd hlt (Nat.not_lt_zero id)
  | succ k ih =>
      obtain ⟨k', rfl⟩ : ∃ j, k' = j + 1 := ⟨k' - 1, by omega⟩
      rw [Store.outward, Store.outward]
      cases hf : s.frames[id]? with
      | none =>
          rw [h.frames_eq_none hf]
          exact .none
      | some f =>
          obtain ⟨g, hg, hfg⟩ := h.frames id f hf
          rw [hg]
          refine rel_findSome?_cons (hfg.find? hname) ?_
          rw [hfg.parent]
          cases hp : f.parent with
          | none => exact .none
          | some p =>
              refine ih ?_
              obtain hk | ⟨hs, hid, hid'⟩ := hk
              · exact .inl (Nat.succ.inj hk)
              · have hlt : p < id := hfg.older hs p hp
                exact .inr ⟨hs, Nat.lt_of_lt_of_le hlt (Nat.le_of_lt_succ hid),
                  Nat.lt_of_lt_of_le (frame_lt_frame hlt) (Nat.le_of_lt_succ hid')⟩

theorem Stores.lookup (h : M.Stores s t) {name : String} (hname : name ∉ M.hidden)
    (env : FrameId) :
    Likewise (M.Values s.frames.size) (s.lookup env name) (t.lookup (M.frame env) name) := by
  have hk : env + 1 = M.frame env + 1 ∨
      M.shift ≠ 0 ∧ env < env + 1 ∧ M.frame env < M.frame env + 1 := by
    by_cases hs : M.shift = 0
    · exact .inl (by rw [frame_eq_id hs, id])
    · exact .inr ⟨hs, Nat.lt_succ_self _, Nat.lt_succ_self _⟩
  have hfind : Option.Rel _ (s.find? env name) (t.find? (M.frame env) name) :=
    h.find?_outward hname hk
  rw [Store.lookup, Store.lookup]
  generalize s.find? env name = x, t.find? (M.frame env) name = y at hfind
  cases hfind with
  | none => exact .error _
  | some hv => exact .ok hv

theorem Stores.binds (h : M.Stores s t) {name : String} (hname : name ∉ M.hidden)
    (env : FrameId) : t.binds (M.frame env) name = s.binds env name := by
  rw [Store.binds, Store.binds]
  cases hf : s.frames[env]? with
  | none => rw [h.frames_eq_none hf]
  | some f =>
      obtain ⟨g, hg, hfg⟩ := h.frames env f hf
      have hfind := hfg.find? hname
      rw [hg]
      change (g.find? name).isSome = (f.find? name).isSome
      generalize f.find? name = x, g.find? name = y at hfind
      cases hfind <;> rfl

theorem Stores.of_frames {s' t' : Store} (h : M.Stores s t) (hs : s'.frames = s.frames)
    (ht : t'.frames = t.frames)
    (hc : ∀ lag, M.lag = some lag → M.made ≤ s'.closures ∧ t'.closures = s'.closures + lag) :
    M.Stores s' t' := by
  constructor
  · rw [hs]
    exact h.old
  · rw [hs, ht]
    exact h.size
  · rw [hs, ht]
    exact h.frames
  · exact hc

theorem Stores.numbers (h : M.Stores s t) : M.Numbers s.closures t.closures := by
  intro lag hlag
  obtain ⟨hmade, hclosures⟩ := h.closures lag hlag
  rw [if_neg (Nat.not_lt_of_le hmade), hclosures]

theorem Stores.close (h : M.Stores s t) :
    M.Stores { s with closures := s.closures + 1 } { t with closures := t.closures + 1 } := by
  refine h.of_frames rfl rfl fun lag hlag => ?_
  obtain ⟨hmade, hclosures⟩ := h.closures lag hlag
  exact ⟨Nat.le_succ_of_le hmade, by rw [hclosures, Nat.add_right_comm]⟩

theorem Stores.close_derived (h : M.Stores s t) (hd : M.derived) :
    M.Stores s { t with closures := t.closures + 1 } := by
  refine h.of_frames rfl rfl fun lag hlag => ?_
  rw [M.followed hd] at hlag
  cases hlag

theorem Frames.bind {id : FrameId} {f g : Frame} (h : M.Frames n id f g) (name : String)
    {v w : Value} (hv : M.Values n v w) : M.Frames n id (f.bind name v) (g.bind name w) := by
  obtain ⟨bs, hbs, hall⟩ := h.bindings
  refine ⟨h.parent, h.older, (name, w) :: bs, ?_, .cons ⟨rfl, hv⟩ hall⟩
  rw [Frame.bind, hbs]
  rfl

theorem Stores.bind (h : M.Stores s t) (env : FrameId) (name : String) {v w : Value}
    (hv : M.Values s.frames.size v w) :
    M.Stores { s with frames := s.frames.modify env (·.bind name v) }
      { t with frames := t.frames.modify (M.frame env) (·.bind name w) } := by
  constructor
  · simpa using h.old
  · simpa using h.size
  · intro id f hf
    rw [Array.getElem?_modify] at hf
    rw [Array.size_modify, Array.getElem?_modify]
    by_cases hid : env = id
    · subst hid
      rw [if_pos rfl] at hf ⊢
      obtain ⟨f', hf', rfl⟩ := Option.map_eq_some_iff.1 hf
      obtain ⟨g, hg, hfg⟩ := h.frames env f' hf'
      rw [hg]
      exact ⟨_, rfl, hfg.bind name hv⟩
    · rw [if_neg hid] at hf
      rw [if_neg (mt frame_eq_frame.1 hid)]
      exact h.frames id f hf
  · exact h.closures

theorem Stores.define (h : M.Stores s t) (env : FrameId) {name : String}
    (hname : name ∉ M.hidden) {v w : Value} (hv : M.Values s.frames.size v w) :
    Likewise (fun _ _ => True) (s.define env name v).1 (t.define (M.frame env) name w).1 ∧
      M.Stores (s.define env name v).2 (t.define (M.frame env) name w).2 ∧
      (s.define env name v).2.frames.size = s.frames.size := by
  rw [Store.define, Store.define, h.binds hname]
  by_cases hb : s.binds env name
  · rw [if_pos hb, if_pos hb]
    exact ⟨.error _, h, rfl⟩
  · rw [if_neg hb, if_neg hb]
    exact ⟨.ok trivial, h.bind env name hv, Array.size_modify⟩

theorem Stores.extend (h : M.Stores s t) {env : FrameId} (henv : M.InScope s.frames.size env)
    {bs cs : List (String × Value)} (hbs : List.Forall₂ (M.Bindings s.frames.size) bs cs) :
    M.Stores (s.extend env bs).2 (t.extend (M.frame env) cs).2 := by
  have hmono : s.frames.size ≤ s.frames.size + 1 := Nat.le_succ _
  constructor
  · change M.old ≤ (s.frames.push _).size
    rw [Array.size_push]
    exact Nat.le_trans h.old hmono
  · change (t.frames.push _).size = (s.frames.push _).size + M.shift
    rw [Array.size_push, Array.size_push, h.size]
    omega
  · intro id f hf
    change (s.frames.push _)[id]? = some f at hf
    change ∃ g, (t.frames.push _)[M.frame id]? = some g ∧ M.Frames (s.frames.push _).size id f g
    rw [Array.size_push]
    rw [Array.getElem?_push] at hf ⊢
    rw [← h.frame_size]
    by_cases hid : id = s.frames.size
    · subst hid
      rw [if_pos rfl] at hf ⊢
      cases hf
      refine ⟨_, rfl, rfl, ?_, cs.reverse, ?_, ?_⟩
      · intro hs p hp
        cases hp
        exact henv hs
      · rw [if_neg (Nat.not_lt_of_le h.old), List.append_nil]
      · exact List.rel_reverse (hbs.imp fun _ _ hb => ⟨hb.1, values_mono hmono hb.2⟩)
    · rw [if_neg hid] at hf
      rw [if_neg (mt frame_eq_frame.1 hid)]
      obtain ⟨g, hg, hfg⟩ := h.frames id f hf
      exact ⟨g, hg, hfg.mono hmono⟩
  · exact h.closures

end Matching

end SmallLisp
