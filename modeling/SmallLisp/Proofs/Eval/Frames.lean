import SmallLisp.Proofs.Eval.Lockstep
import SmallLisp.Proofs.Run
import Mathlib.Data.List.Forall2

namespace SmallLisp

variable {α : Type}

/-- `g` is `f` with newer bindings of names that `f` does not bind. -/
structure Frame.Gained (f g : Frame) : Prop where
  parent : g.parent = f.parent
  bindings : f.bindings <:+ g.bindings
  find? : ∀ name v, f.find? name = some v → g.find? name = some v

namespace Frame

theorem Gained.refl (f : Frame) : Gained f f := ⟨rfl, List.suffix_rfl, fun _ _ h => h⟩

theorem Gained.trans {f g k : Frame} (h : Gained f g) (h' : Gained g k) : Gained f k :=
  ⟨h'.parent.trans h.parent, h.bindings.trans h'.bindings,
    fun name v hv => h'.find? name v (h.find? name v hv)⟩

theorem find?_bind (f : Frame) (name m : String) (v : Value) :
    (f.bind name v).find? m = if m = name then some v else f.find? m := by
  by_cases h : m = name
  · simp [find?, bind, h]
  · have hb : (m == name) = false := by simpa using h
    simp [find?, bind, List.lookup_cons, h, hb]

theorem lookup_reverse_none {pairs : List (String × Value)} {name : String}
    (h : name ∉ pairs.map Prod.fst) : pairs.reverse.lookup name = none := by
  rw [List.lookup_eq_none_iff]
  intro b hb
  rw [bne_iff_ne]
  rintro rfl
  exact h (List.mem_map_of_mem (List.mem_reverse.1 hb))

theorem lookup_reverse_last (before : List (String × Value)) {after : List (String × Value)}
    {name : String} {v : Value} (h : name ∉ after.map Prod.fst) :
    (before ++ (name, v) :: after).reverse.lookup name = some v := by
  rw [List.reverse_append, List.reverse_cons, List.append_assoc, List.lookup_append,
    lookup_reverse_none h]
  simp

theorem notMem_zip {names : List String} {name : String} (h : name ∉ names) (vs : List Value) :
    name ∉ (names.zip vs).map Prod.fst := fun hmem => by
  obtain ⟨p, hp, rfl⟩ := List.mem_map.1 hmem
  exact h (List.of_mem_zip hp).1

theorem lookup_zip {names : List String} (hnames : names.Nodup) {vs : List Value}
    (hl : vs.length = names.length) :
    List.Forall₂ (fun name v => (names.zip vs).reverse.lookup name = some v) names vs := by
  induction names generalizing vs with
  | nil => rw [List.length_eq_zero_iff.1 hl]; exact .nil
  | cons n names ih =>
      obtain ⟨v, vs, rfl⟩ := List.exists_cons_of_length_eq_add_one hl
      obtain ⟨hn, hnames⟩ := List.nodup_cons.1 hnames
      refine .cons (lookup_reverse_last [] (notMem_zip hn vs)) ?_
      refine (ih hnames (Nat.succ.inj hl)).imp fun m w hw => ?_
      rw [List.zip_cons_cons, List.reverse_cons, List.lookup_append, hw]
      rfl

theorem gained_bind {f : Frame} {name : String} (h : f.binds name = false) (v : Value) :
    Gained f (f.bind name v) := by
  refine ⟨rfl, List.suffix_cons _ _, ?_⟩
  intro m w hw
  have hm : m ≠ name := by
    intro he
    rw [binds, ← he, hw] at h
    cases h
  rw [find?_bind, if_neg hm, hw]

end Frame

def Keeps (s t : Store) : Prop :=
  ∀ (id : FrameId) (f : Frame), s.frames[id]? = some f → t.frames[id]? = some f

/-- Every frame of `s` is in `t`, as it was but for names gained by `env`. -/
def Extends (env : FrameId) (s t : Store) : Prop :=
  ∀ (id : FrameId) (f : Frame), s.frames[id]? = some f →
    ∃ g, t.frames[id]? = some g ∧ f.Gained g ∧ (id ≠ env → g = f)

theorem Keeps.refl (s : Store) : Keeps s s := fun _ _ h => h

theorem Keeps.trans {s t u : Store} (h : Keeps s t) (h' : Keeps t u) : Keeps s u :=
  fun id f hf => h' id f (h id f hf)

theorem Keeps.size_le {s t : Store} (h : Keeps s t) : s.frames.size ≤ t.frames.size := by
  by_contra hlt
  have hsize : t.frames.size < s.frames.size := Nat.lt_of_not_le hlt
  have hf := h t.frames.size _ (Array.getElem?_eq_getElem hsize)
  rw [Array.getElem?_eq_none (Nat.le_refl _)] at hf
  cases hf

theorem Keeps.extends {s t : Store} (h : Keeps s t) (env : FrameId) : Extends env s t :=
  fun id f hf => ⟨f, h id f hf, .refl f, fun _ => rfl⟩

theorem keeps_push (s : Store) (f : Frame) : Keeps s (s.push f).2 := by
  intro id g hg
  have hid : id < s.frames.size := (Array.getElem?_eq_some_iff.1 hg).1
  rw [Store.push, Array.getElem?_push_lt hid, ← hg, Array.getElem?_eq_getElem hid]

namespace Extends

theorem refl (env : FrameId) (s : Store) : Extends env s s :=
  fun _ f h => ⟨f, h, .refl f, fun _ => rfl⟩

theorem trans {env : FrameId} {s t u : Store} (h : Extends env s t) (h' : Extends env t u) :
    Extends env s u := by
  intro id f hf
  obtain ⟨g, hg, hfg, hge⟩ := h id f hf
  obtain ⟨k, hk, hgk, hke⟩ := h' id g hg
  exact ⟨k, hk, hfg.trans hgk, fun hid => (hke hid).trans (hge hid)⟩

theorem define (env : FrameId) (name : String) (v : Value) (s : Store) :
    Extends env s (s.define env name v).2 := by
  rw [Store.define]
  by_cases hb : s.binds env name
  · rw [if_pos hb]
    exact refl env s
  · rw [if_neg hb]
    intro id f hf
    rw [Array.getElem?_modify, hf]
    by_cases hid : env = id
    · subst hid
      have hf' : f.binds name = false := by simpa [Store.binds, hf] using hb
      exact ⟨f.bind name v, by simp, Frame.gained_bind hf' v, fun h => absurd rfl h⟩
    · exact ⟨f, by simp [hid], .refl f, fun _ => rfl⟩

theorem keeps {s t : Store} {f : Frame} (h : Extends (s.push f).1 (s.push f).2 t) : Keeps s t := by
  intro id g hg
  have hid : id < s.frames.size := (Array.getElem?_eq_some_iff.1 hg).1
  obtain ⟨k, hk, -, hke⟩ := h id g (keeps_push s f id g hg)
  rwa [hke (Nat.ne_of_lt hid)] at hk

theorem keeps_of_forall {s t : Store} (h : ∀ env, Extends env s t) : Keeps s t := by
  intro id f hf
  obtain ⟨g, hg, -, hge⟩ := h (id + 1) id f hf
  rwa [hge (Nat.ne_of_lt (Nat.lt_succ_self id))] at hg

end Extends

def Run.Extending (env : FrameId) (r : Run Store α) : Prop :=
  ∀ s, Extends env s (r.after s)

theorem Run.extending_lockstep :
    Lockstep (τ := Store) fun env r (_ : Run Store _) => r.Extending env where
  pure env a s := .refl env s
  throw env e s := .refl env s
  bind {_ _ env r₁ _ f₁ _} h hf s := by
    obtain he | ⟨a, he⟩ := Run.after_bind r₁ f₁ s
    · rw [he]
      exact h s
    · rw [he]
      exact (h s).trans (hf a _)
  note env _ s := .refl env s
  lookup env name s := by
    rw [Run.after_ask]
    exact .refl env s
  close env params body s := fun id f hf => ⟨f, hf, .refl f, fun _ => rfl⟩
  define env name v s := by
    rw [Run.after_attempt]
    exact .define env name v s
  extend {_ env r₁ _} parent pairs h s :=
    (h s.frames.size (s.extend parent pairs).2).keeps.extends env

theorem Run.extending_within {env : FrameId} {r : Run Store α} (h : r.Extending env) :
    r.within.Extending env := by
  rwa [within_store]

/-- Evaluation in `env` keeps every frame with its parent and its bindings, and only the frame `env`
may have gained names; an application keeps every frame as it was. -/
theorem frames_after {s : Store} {id : FrameId} {f : Frame} (h : s.frames[id]? = some f)
    (limit : Nat) :
    (∀ env n, ∃ g, ((evaluate limit env n).after s).frames[id]? = some g ∧
      g.parent = f.parent ∧ (id ≠ env → g.bindings = f.bindings) ∧
      f.bindings <:+ g.bindings ∧ ∀ name v, f.find? name = some v → g.find? name = some v) ∧
    (∀ c args, ((apply limit c args).after s).frames[id]? = some f) := by
  constructor
  · intro env n
    have heval := Run.extending_lockstep.evaluate Run.extending_within limit env n
    obtain ⟨g, hg, hfg, hge⟩ := heval s id f h
    exact ⟨g, hg, hfg.parent, fun hid => by rw [hge hid], hfg.bindings, hfg.find?⟩
  · intro c args
    have hkeeps : Keeps s ((apply limit c args).after s) := Extends.keeps_of_forall fun env =>
      Run.extending_lockstep.applyWithin Run.extending_within limit limit env c args s
    exact hkeeps id f h

theorem frames_after_define :
    let f : Frame := ⟨[("x", .integer 1)], none⟩
    let s : Store := ⟨#[f, ⟨[], some 0⟩], 0⟩
    let n := Node.list [.symbol "define", .symbol "y", .symbol "x"]
    s.frames[0]? = some f ∧
    (∃ g, ((evaluate 4 0 n).after s).frames[0]? = some g ∧ g.parent = none ∧
      f.bindings <:+ g.bindings ∧ g.find? "x" = some (.integer 1)) ∧
    ((apply 4 ⟨0, ["z"], n, 0⟩ [.integer 2]).after s).frames[0]? = some f := by
  intro f s n
  have h : s.frames[0]? = some f := rfl
  obtain ⟨heval, happly⟩ := frames_after h 4
  obtain ⟨g, hg, hp, -, hb, hf⟩ := heval 0 n
  exact ⟨h, ⟨g, hg, hp, hb, hf "x" _ rfl⟩, happly _ _⟩

end SmallLisp
