import Mathlib.Data.List.Forall2
import SmallLisp.Proofs.Eval.Yields
import SmallLisp.Proofs.Prelude.Definitions

namespace SmallLisp

namespace Prelude

/-- The outermost frame binds the names of the library to its functions. -/
def Loaded (s : Store) : Prop :=
  ∀ d ∈ definitions, ∃ id, s.find? Session.root d.name = some (.closure (d.closure id))

theorem Loaded.keeps {s t : Store} (h : Loaded s) (hst : Keeps s t) : Loaded t := by
  intro d hd
  obtain ⟨id, hid⟩ := h d hd
  exact ⟨id, Store.find?_keeps hst hid⟩

theorem Loaded.lookup {s : Store} (h : Loaded s) {d : Definition} (hd : d ∈ definitions) :
    ∃ id, s.lookup Session.root d.name = .ok (.closure (d.closure id)) := by
  obtain ⟨id, hid⟩ := h d hd
  exact ⟨id, by rw [Store.lookup, hid]⟩

variable {s : Store} {limit room : Nat}

theorem or_yields (id : Nat) (v w : Value) :
    Yields s (applyWithin limit (room + 1) (or.closure id) [v, w])
      (· = .ok (.boolean (v.isTruthy || w.isTruthy))) := by
  refine .enter rfl fun t scope _ hlocal _ => ?_
  by_cases hv : v.isTruthy
  · refine .ifTrue rfl (.symbol (hlocal "a" v rfl)) hv ?_
    rw [hv]
    exact .boolean true
  · refine .ifFalse rfl (.symbol (hlocal "a" v rfl)) hv ?_
    by_cases hw : w.isTruthy
    · refine .ifTrue rfl (.symbol (hlocal "b" w rfl)) hw ?_
      rw [hw, Bool.or_true]
      exact .boolean true
    · refine .ifFalse rfl (.symbol (hlocal "b" w rfl)) hw ?_
      rw [Bool.not_eq_true] at hv hw
      rw [hv, hw]
      exact .boolean false

theorem atLeast_yields (hs : Loaded s) (id : Nat) (a b : Int64) :
    Yields s (applyWithin limit (room + 2) (atLeast.closure id) [.integer a, .integer b])
      (· = .ok (.boolean (b ≤ a))) := by
  obtain ⟨orId, hor⟩ := hs or (by simp [definitions])
  have hle : (decide (b < a) || decide (a = b)) = decide (b ≤ a) := by
    rw [← Bool.decide_or]
    exact decide_eq_decide.2 (by rw [Int64.le_iff_lt_or_eq, eq_comm (a := a)])
  refine .enter rfl fun t scope _ hlocal hglobal => ?_
  have ha : Evals (applyWithin limit (room + 1)) t scope (.symbol "a") (.integer a) :=
    .symbol (hlocal "a" _ rfl)
  have hb : Evals (applyWithin limit (room + 1)) t scope (.symbol "b") (.integer b) :=
    .symbol (hlocal "b" _ rfl)
  refine .ofCall rfl (.symbol (hglobal _ _ rfl hor)) rfl
    (.cons (.strict rfl rfl rfl (.cons ha (.cons hb .nil)) rfl)
      (.cons (.strict rfl rfl rfl (.cons ha (.cons hb .nil)) rfl) .nil))
    ?_
  rw [← hle]
  exact or_yields orId _ _

/-- A scope of a body of the library: its parameters have the arguments for values, and no other
name of the library is hidden. -/
structure BodyScope (d : Definition) (args : List Value) (t : Store) (scope : FrameId) : Prop where
  loaded : Loaded t
  params : List.Forall₂ (fun name v => t.find? scope name = some v) d.params args
  library : ∀ d' ∈ definitions, d'.name ∉ d.params →
    ∃ id, t.find? scope d'.name = some (.closure (d'.closure id))

variable {s : Store} {limit room : Nat} {d : Definition}

theorem Loaded.enter (hs : Loaded s) (hd : d ∈ definitions) (args : List Value)
    (harity : args.length = d.params.length) (id : Nat) {Q : Except Fault Value → Prop}
    (h : ∀ t scope, BodyScope d args t scope →
      Yields t (d.body.eval (applyWithin limit room) scope) Q) :
    Yields s (applyWithin limit (room + 1) (d.closure id) args) Q := by
  refine .enter harity fun t scope hst hlocal hglobal => h t scope ⟨hs.keeps hst, ?_, ?_⟩
  · exact (Frame.lookup_zip (definitions_params d hd) harity).imp hlocal
  · intro d' hd' hname
    obtain ⟨id', hid'⟩ := hs d' hd'
    exact ⟨id', hglobal _ _ (Frame.lookup_reverse_none (Frame.notMem_zip hname args)) hid'⟩

section Recursion

variable {α β : Type} {n : Nat}

/-- What `n + 1` applications inside one another come to: `result`, unless there is less room. -/
def inRoom (limit room n : Nat) (result : Except Fault α) : Except Fault α :=
  if n < room then result else .error (.stackOverflow limit)

theorem inRoom_of_lt (h : n < room) (result : Except Fault α) :
    inRoom limit room n result = result := if_pos h

theorem inRoom_of_le (h : room ≤ n) (result : Except Fault α) :
    inRoom limit room n result = .error (.stackOverflow limit) := if_neg (Nat.not_lt_of_le h)

theorem inRoom_succ (limit room n : Nat) (result : Except Fault α) :
    inRoom limit (room + 1) (n + 1) result = inRoom limit room n result := by
  simp only [inRoom, Nat.add_lt_add_iff_right]

theorem inRoom_bind (limit room n : Nat) (result : Except Fault α) (f : α → Except Fault β) :
    inRoom limit room n result >>= f = inRoom limit room n (result >>= f) := by
  rw [inRoom, inRoom]
  split <;> rfl

/-- A function that takes the elements off its first argument, one in each application. It is enough
to know what comes of no element, and of one when the function is applied to the others. -/
theorem recursion_yields {p : String} {ps : List String} {base more : Node} {vs : List Value}
    (result : List Value → Except Fault Value) (hd : d ∈ definitions)
    (hk : (Node.symbol d.name).keyword? = none) (hparams : d.params = p :: ps)
    (hname : d.name ∉ d.params) (hvs : vs.length = ps.length)
    (hbody : d.body = .form "if" [.form "empty" [.symbol p], base, more])
    (hbase : ∀ {call t scope}, BodyScope d (.list [] :: vs) t scope →
      Yields t (base.eval call scope) (· = result []))
    (hmore : ∀ {room t scope x xs}, BodyScope d (.list (x :: xs) :: vs) t scope →
      Yields t ((Node.form d.name (.form "tail" [.symbol p] :: ps.map .symbol)).eval
        (applyWithin limit room) scope) (· = inRoom limit room xs.length (result xs)) →
      Yields t (more.eval (applyWithin limit room) scope)
        (· = inRoom limit room xs.length (result (x :: xs))))
    (hs : Loaded s) (id : Nat) (xs : List Value) :
    Yields s (applyWithin limit room (d.closure id) (.list xs :: vs))
      (· = inRoom limit room xs.length (result xs)) := by
  have harity : vs.length + 1 = d.params.length := by rw [hparams, hvs, List.length_cons]
  induction room generalizing s id xs with
  | zero =>
      have hc : (d.closure id).checkArity (Value.list xs :: vs).length = .ok () := if_pos harity
      rw [applyWithin_zero limit hc, inRoom_of_le (Nat.zero_le _)]
      exact .throw rfl
  | succ room ih =>
      refine hs.enter hd (.list xs :: vs) harity id fun t scope ht => ?_
      have hscope := ht.params
      rw [hparams] at hscope
      obtain ⟨hp, hps⟩ := List.forall₂_cons.1 hscope
      rw [hbody]
      cases xs with
      | nil =>
          rw [inRoom_of_lt (List.length_nil ▸ Nat.zero_lt_succ room)]
          exact .ifTrue rfl (.strict rfl rfl rfl (.cons (.symbol hp) .nil) rfl) rfl (hbase ht)
      | cons x xs =>
          rw [List.length_cons, inRoom_succ]
          obtain ⟨id', hid'⟩ := ht.library d hd hname
          refine .ifFalse rfl (.strict rfl rfl rfl (.cons (.symbol hp) .nil) rfl) Bool.false_ne_true
            (hmore ht (.ofCall hk (.symbol hid') ?_
              (.cons (.strict rfl rfl rfl (.cons (.symbol hp) .nil) rfl) ?_) (ih ht.loaded id' xs)))
          · rw [List.length_cons, List.length_map, ← hvs]
            exact harity
          · exact List.forall₂_map_left_iff.2 (hps.imp fun _ _ h => .symbol h)

theorem append_yields_inRoom (hs : Loaded s) (id : Nat) (xs ys : List Value) :
    Yields s (applyWithin limit room (append.closure id) [.list xs, .list ys])
      (· = inRoom limit room xs.length (.ok (.list (xs ++ ys)))) := by
  refine recursion_yields (fun xs => .ok (.list (xs ++ ys))) (by simp [definitions]) rfl rfl
    (by decide) rfl rfl ?_ ?_ hs id xs
  · intro call t scope ht
    obtain ⟨-, hys⟩ := List.forall₂_cons.1 ht.params
    exact .symbol (List.forall₂_cons.1 hys).1
  · intro room t scope x xs ht hrest
    have hhead : Evals (applyWithin limit room) t scope (.form "head" [.symbol "xs"]) x :=
      .strict rfl rfl rfl (.cons (.symbol (List.forall₂_cons.1 ht.params).1) .nil) rfl
    refine (Yields.strictLast rfl rfl rfl hhead hrest).imp fun _ h => h.trans ?_
    rw [inRoom_bind]
    rfl

end Recursion

theorem append_yields (hs : Loaded s) (id : Nat) (xs ys : List Value) (hroom : xs.length < room) :
    Yields s (applyWithin limit room (append.closure id) [.list xs, .list ys])
      (· = .ok (.list (xs ++ ys))) :=
  (append_yields_inRoom hs id xs ys).imp fun _ h => h.trans (inRoom_of_lt hroom _)

theorem filter_yields {α : Type} (f : α → Value) (p : α → Bool) {k : Nat} (hs : Loaded s) (id : Nat)
    {pred : Closure} (harity : pred.arity = 1) (xs : List α)
    (hpred : ∀ x ∈ xs, ∀ room, k < room → Yields s (applyWithin limit room pred [f x])
      (fun y => ∃ v, y = .ok v ∧ v.isTruthy = p x))
    (hroom : xs.length + k < room) :
    Yields s (applyWithin limit room (filter.closure id) [.closure pred, .list (xs.map f)])
      (· = .ok (.list ((xs.filter p).map f))) := by
  induction xs generalizing s room id with
  | nil =>
      obtain ⟨room, rfl⟩ : ∃ r, room = r + 1 := ⟨room - 1, by omega⟩
      refine .enter rfl fun t scope _ hlocal _ => ?_
      exact .ifTrue rfl (.strict rfl rfl rfl (.cons (.symbol (hlocal "lst" _ rfl)) .nil) rfl) rfl
        (.quoted _)
  | cons x xs ih =>
      obtain ⟨room, rfl⟩ : ∃ r, room = r + 1 := ⟨room - 1, by omega⟩
      rw [List.length_cons] at hroom
      obtain ⟨hx, hpred⟩ := List.forall_mem_cons.1 hpred
      obtain ⟨filterId, hfilter⟩ := hs filter (by simp [definitions])
      refine .enter rfl fun t scope hst hlocal hglobal => ?_
      have hlst : Evals (applyWithin limit room) t scope (.symbol "lst") (.list ((x :: xs).map f)) :=
        .symbol (hlocal "lst" _ rfl)
      have hvar : Evals (applyWithin limit room) t scope (.symbol "pred") (.closure pred) :=
        .symbol (hlocal "pred" _ rfl)
      have hhead : Evals (applyWithin limit room) t scope (.form "head" [.symbol "lst"]) (f x) :=
        .strict rfl rfl rfl (.cons hlst .nil) rfl
      have hrest : Evals (applyWithin limit room) t scope
          (.form "filter" [.symbol "pred", .form "tail" [.symbol "lst"]])
          (.list ((xs.filter p).map f)) :=
        .ofCall rfl (.symbol (hglobal _ _ rfl hfilter)) rfl
          (.cons hvar (.cons (.strict rfl rfl rfl (.cons hlst .nil) rfl) .nil))
          (ih (hs.keeps hst) filterId (fun y hy r hr => (hpred y hy r hr).mono hst) (by omega))
      refine .ifFalse rfl (.strict rfl rfl rfl (.cons hlst .nil) rfl) Bool.false_ne_true ?_
      have htest : Yields t ((Node.form "pred" [.form "head" [.symbol "lst"]]).eval
          (applyWithin limit room) scope) (fun y => ∃ v, y = .ok v ∧ v.isTruthy = p x) :=
        .ofCall rfl hvar harity.symm (.cons hhead .nil) ((hx room (by omega)).mono hst)
      refine .ifElse rfl htest ?_ ?_ ?_
      · rintro _ ⟨v, ⟨⟩, hv⟩ htrue
        rw [List.filter_cons_of_pos (hv ▸ htrue)]
        exact .strict rfl rfl rfl (.cons hhead (.cons hrest .nil)) rfl
      · rintro _ ⟨v, ⟨⟩, hv⟩ hfalse
        rw [List.filter_cons_of_neg (hv ▸ hfalse)]
        exact hrest
      · rintro e ⟨v, he, -⟩
        cases he

end Prelude

end SmallLisp
