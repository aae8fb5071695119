import SmallLisp.Proofs.Eval.Reachable
import SmallLisp.Proofs.Prelude.Functions
import SmallLisp.Proofs.Session

namespace SmallLisp

namespace Session

/-- What can be asked of a session. -/
inductive Call where
  | interpret (source : String)
  | evaluate (n : Node)

def call (s : Session) : Call → Session
  | .interpret source => (s.interpret source).2
  | .evaluate n => (s.evaluate n).2

def callAll (s : Session) (calls : List Call) : Session := calls.foldl call s

section Holds

/-- What every evaluation at the outermost level keeps, whether it fails or not. -/
def Kept (P : Store → Prop) : Prop :=
  ∀ limit n t, P t → P ((SmallLisp.evaluate limit root n).after t)

variable {P : Store → Prop} {s t : Session}

theorem holds_evaluate (hP : Kept P) (h : P s.store) (n : Node) : P (s.evaluate n).2.store := by
  rw [evaluate_eq]
  exact hP _ n _ h

theorem holds_evaluateAll (hP : Kept P) (h : P s.store) (last : Option Value) (ns : List Node) :
    P (s.evaluateAll last ns).2.store := by
  induction ns generalizing s last with
  | nil => exact h
  | cons n ns ih =>
      have hn := holds_evaluate hP h n
      rw [evaluateAll]
      rcases hs : s.evaluate n with ⟨_ | v, t⟩
      · rwa [hs] at hn
      · rw [hs] at hn
        exact ih hn (some v)

theorem holds_interpret (hP : Kept P) (h : P s.store) (source : String) :
    P (s.interpret source).2.store := by
  cases hread : readAll source with
  | error e =>
      rw [interpret, hread]
      exact h
  | ok ns =>
      have hall := holds_evaluateAll hP h none ns
      rw [s.interpret_of_readAll hread, interpretNodes]
      generalize s.evaluateAll none ns = x at hall ⊢
      obtain ⟨_ | _ | _, t⟩ := x <;> exact hall

theorem holds_load (hP : Kept P) (h : P s.store) {text : SourceText} (ht : s.load text = .ok t) :
    P t.store := by
  rw [load] at ht
  cases hread : readAll text.content with
  | error e => simp [hread] at ht
  | ok ns =>
      have hall := holds_evaluateAll hP h none ns
      rcases hns : s.evaluateAll none ns with ⟨_ | v, u⟩
      · simp [hread, hns] at ht
      · simp only [hread, hns, Except.ok.injEq] at ht
        rwa [hns, ht] at hall

theorem holds_callAll (hP : Kept P) (h : P s.store) (calls : List Call) :
    P (s.callAll calls).store := by
  induction calls generalizing s with
  | nil => exact h
  | cons c calls ih =>
      cases c with
      | interpret source => exact ih (holds_interpret hP h source)
      | evaluate n => exact ih (holds_evaluate hP h n)

end Holds

theorem extends_callAll (s : Session) (calls : List Call) :
    Extends root s.store (s.callAll calls).store := by
  refine holds_callAll (fun limit n t ht => ?_) (.refl root s.store) calls
  exact ht.trans (Run.extending_lockstep.evaluate Run.extending_within limit root n t)

structure Rooted (s : Store) : Prop where
  reachable : s.Reachable
  root : root < s.frames.size

theorem kept_rooted : Kept Rooted := fun limit n _ ht =>
  ⟨ht.reachable.evaluate limit ht.root n,
    Nat.lt_of_lt_of_le ht.root (ht.reachable.madeOf.evaluate limit ht.root trivial).before.frames⟩

theorem rooted_blank (settings : Settings) : Rooted (blank settings).store :=
  ⟨.newRoot .empty, Nat.zero_lt_one⟩

end Session

namespace Prelude

theorem find?_root {s : Store} {f : Frame} (hf : s.frames[Session.root]? = some f) (name : String) :
    s.find? Session.root name = f.find? name := by
  rw [Store.find?, Store.chain, Store.outward, hf]
  change (f :: _).findSome? _ = _
  rw [List.findSome?_cons]
  cases f.find? name with
  | some v => rfl
  | none => cases f.parent <;> rfl

theorem Loaded.extends {s t : Store} (h : Loaded s) (hst : Extends Session.root s t) :
    Loaded t := by
  intro d hd
  obtain ⟨id, hid⟩ := h d hd
  obtain ⟨f, hf⟩ : ∃ f, s.frames[Session.root]? = some f :=
    ⟨_, Array.getElem?_eq_getElem (Store.lt_of_find? hid)⟩
  obtain ⟨g, hg, hfg, -⟩ := hst _ f hf
  rw [find?_root hf] at hid
  exact ⟨id, by rw [find?_root hg, hfg.find? _ _ hid]⟩

theorem lookup_of_mem {bs : List (String × Value)} (hnames : (bs.map (·.1)).Nodup) {name : String}
    {v : Value} (h : (name, v) ∈ bs) : bs.lookup name = some v := by
  induction bs with
  | nil => cases h
  | cons b bs ih =>
      obtain ⟨hb, hnames⟩ := List.nodup_cons.1 hnames
      rw [List.lookup_cons]
      obtain rfl | h := List.mem_cons.1 h
      · rw [beq_self_eq_true]
      · have hne : (name == b.1) = false := by
          rw [beq_eq_false_iff_ne]
          exact fun he => hb (List.mem_map.2 ⟨_, h, he⟩)
        rw [hne]
        exact ih hnames h

theorem loaded_store : Loaded store := by
  intro d hd
  obtain ⟨k, hk, rfl⟩ := List.mem_iff_getElem.1 hd
  have hmem : (definitions[k].name, Value.closure (definitions[k].closure k)) ∈ bindings :=
    List.mem_reverse.2 (List.mem_map_of_mem (List.mk_mem_zipIdx_iff_getElem?.2 (by simp)))
  have hnames : (bindings.map (·.1)).Nodup := by
    rw [bindings_names]
    exact List.pairwise_reverse.2 (definitions_names.imp Ne.symm)
  refine ⟨k, ?_⟩
  rw [find?_root (f := ⟨bindings, none⟩) rfl]
  exact lookup_of_mem hnames hmem

/-- Every session with the library keeps it, whatever is asked of the session. -/
theorem loaded_callAll (settings : Settings) (calls : List Session.Call) :
    Loaded ((session settings).callAll calls).store :=
  loaded_store.extends ((session settings).extends_callAll calls)

theorem reachable_callAll (settings : Settings) (calls : List Session.Call) :
    ((session settings).callAll calls).store.Reachable :=
  (Session.holds_callAll Session.kept_rooted (Session.holds_load Session.kept_rooted
    (Session.rooted_blank settings) (load_source settings "")) calls).reachable

end Prelude

end SmallLisp
