import SmallLisp.Eval
import Mathlib.Data.List.Basic

namespace SmallLisp

mutual

/-- Data of one shape, with closures in the same places that are related by `R`. -/
inductive Value.Lift (R : Closure → Closure → Prop) : Value → Value → Prop
  | boolean (b : Bool) : Lift R (.boolean b) (.boolean b)
  | integer (n : Int64) : Lift R (.integer n) (.integer n)
  | symbol (name : String) : Lift R (.symbol name) (.symbol name)
  | list {vs ws : List Value} (h : LiftAll R vs ws) : Lift R (.list vs) (.list ws)
  | closure {c d : Closure} (h : R c d) : Lift R (.closure c) (.closure d)

inductive Value.LiftAll (R : Closure → Closure → Prop) : List Value → List Value → Prop
  | nil : LiftAll R [] []
  | cons {v w : Value} {vs ws : List Value} (h : Lift R v w) (hs : LiftAll R vs ws) :
      LiftAll R (v :: vs) (w :: ws)

end

inductive Likewise {α β : Type} (P : α → β → Prop) : Except Fault α → Except Fault β → Prop
  | ok {a : α} {b : β} (h : P a b) : Likewise P (.ok a) (.ok b)
  | error (e : Fault) : Likewise P (.error e) (.error e)

theorem Likewise.bind {α β γ δ : Type} {P : α → β → Prop} {Q : γ → δ → Prop}
    {x : Except Fault α} {y : Except Fault β} {f : α → Except Fault γ} {g : β → Except Fault δ}
    (h : Likewise P x y) (hf : ∀ a b, P a b → Likewise Q (f a) (g b)) :
    Likewise Q (x >>= f) (y >>= g) := by
  cases h with
  | ok h => exact hf _ _ h
  | error e => exact .error e

namespace Value

variable {R S : Closure → Closure → Prop} {v w : Value} {vs ws : List Value}

mutual

theorem Lift.mono (hRS : ∀ c d, R c d → S c d) : {v w : Value} → Lift R v w → Lift S v w
  | _, _, .boolean b => .boolean b
  | _, _, .integer n => .integer n
  | _, _, .symbol name => .symbol name
  | _, _, .list h => .list (LiftAll.mono hRS h)
  | _, _, .closure h => .closure (hRS _ _ h)

theorem LiftAll.mono (hRS : ∀ c d, R c d → S c d) :
    {vs ws : List Value} → LiftAll R vs ws → LiftAll S vs ws
  | _, _, .nil => .nil
  | _, _, .cons h hs => .cons (Lift.mono hRS h) (LiftAll.mono hRS hs)

end

mutual

theorem Lift.refl (hR : ∀ c, R c c) : (v : Value) → Lift R v v
  | .boolean b => .boolean b
  | .integer n => .integer n
  | .symbol name => .symbol name
  | .list vs => .list (LiftAll.refl hR vs)
  | .closure c => .closure (hR c)

theorem LiftAll.refl (hR : ∀ c, R c c) : (vs : List Value) → LiftAll R vs vs
  | [] => .nil
  | v :: vs => .cons (Lift.refl hR v) (LiftAll.refl hR vs)

end

mutual

theorem lift_ofNode : (n : Node) → Lift R (ofNode n) (ofNode n)
  | .boolean b => .boolean b
  | .integer n => .integer n
  | .symbol name => .symbol name
  | .list items => .list (liftAll_ofNodes items)

theorem liftAll_ofNodes : (ns : List Node) → LiftAll R (ofNodes ns) (ofNodes ns)
  | [] => .nil
  | n :: ns => .cons (lift_ofNode n) (liftAll_ofNodes ns)

end

theorem LiftAll.isEmpty_eq (h : LiftAll R vs ws) : vs.isEmpty = ws.isEmpty := by
  cases h <;> rfl

theorem LiftAll.length_eq (h : LiftAll R vs ws) : vs.length = ws.length := by
  induction vs generalizing ws with
  | nil =>
      cases h
      rfl
  | cons v vs ih =>
      cases h with
      | cons _ hs => rw [List.length_cons, List.length_cons, ih hs]

theorem Lift.kind_eq (h : Lift R v w) : v.kind = w.kind := by
  cases h <;> rfl

theorem Lift.isAtom_eq (h : Lift R v w) : v.isAtom = w.isAtom := by
  cases h with
  | boolean | integer | symbol | closure => rfl
  | list h => exact h.isEmpty_eq

theorem Lift.isTruthy_eq (h : Lift R v w) : v.isTruthy = w.isTruthy := by
  cases h with
  | boolean | integer | symbol | closure => rfl
  | list h => exact congrArg (!·) h.isEmpty_eq

theorem Lift.eq_of_isAtom (h : Lift R v w) (ha : v.isAtom) : v = w := by
  cases h with
  | boolean | integer | symbol => rfl
  | closure => cases ha
  | list h =>
      cases h with
      | nil => rfl
      | cons => cases ha

theorem Lift.decide_eq {v' w' : Value} (h : Lift R v w) (h' : Lift R v' w') :
    (v.isAtom && v'.isAtom && decide (v = v')) = (w.isAtom && w'.isAtom && decide (w = w')) := by
  rw [← h.isAtom_eq, ← h'.isAtom_eq]
  cases ha : v.isAtom with
  | false => rfl
  | true =>
      cases ha' : v'.isAtom with
      | false => rfl
      | true => rw [h.eq_of_isAtom ha, h'.eq_of_isAtom ha']

theorem chars_list (items : List Value) :
    (∃ v, items = [symbol "quote", v]) ∨ chars (list items) = '(' :: (spaced items ++ [')']) := by
  by_cases h : ∃ v, items = [symbol "quote", v]
  · exact .inl h
  · refine .inr ?_
    rw [chars]
    intro v hv
    exact h ⟨v, hv⟩

theorem spaced_cons_cons (v w : Value) (vs : List Value) :
    spaced (v :: w :: vs) = v.chars ++ ' ' :: spaced (w :: vs) := by
  rw [spaced]
  exact fun h => List.cons_ne_nil w vs h

theorem LiftAll.chars_list_eq (h : LiftAll R vs ws) (hs : spaced vs = spaced ws) :
    chars (list vs) = chars (list ws) := by
  obtain ⟨v, rfl⟩ | hvs := chars_list vs
  · cases h with
    | cons h hrest =>
        cases h
        cases hrest with
        | cons _ hrest =>
            cases hrest
            simpa [spaced, chars] using hs
  · obtain ⟨w, rfl⟩ | hws := chars_list ws
    · cases h with
      | cons h hrest =>
          cases h
          cases hrest with
          | cons _ hrest =>
              cases hrest
              simpa [spaced, chars] using hs
    · rw [hvs, hws, hs]

mutual

theorem Lift.chars_eq (hR : ∀ c d, R c d → c.arity = d.arity) :
    {v w : Value} → Lift R v w → v.chars = w.chars
  | _, _, .boolean b => rfl
  | _, _, .integer n => rfl
  | _, _, .symbol name => rfl
  | _, _, .closure h => by rw [chars, chars, hR _ _ h]
  | _, _, .list h => h.chars_list_eq (LiftAll.spaced_eq hR h)

theorem LiftAll.spaced_eq (hR : ∀ c d, R c d → c.arity = d.arity) :
    {vs ws : List Value} → LiftAll R vs ws → spaced vs = spaced ws
  | _, _, .nil => rfl
  | _, _, .cons h .nil => by rw [spaced, spaced, Lift.chars_eq hR h]
  | _, _, .cons h (.cons h' hs) => by
      rw [spaced_cons_cons, spaced_cons_cons, Lift.chars_eq hR h,
        LiftAll.spaced_eq hR (.cons h' hs)]

end

theorem Lift.text_eq (hR : ∀ c d, R c d → c.arity = d.arity) (h : Lift R v w) :
    v.text = w.text :=
  congrArg String.ofList (h.chars_eq hR)

theorem Lift.operandOf (h : Lift R v w) (f : SpecialForm) :
    Likewise (LiftAll R) (v.operandOf f) (w.operandOf f) := by
  cases h with
  | list h => exact .ok h
  | boolean | integer | symbol | closure => exact .error _

theorem Lift.partsOf (h : Lift R v w) (f : SpecialForm) :
    Likewise (fun p q => Lift R p.1 q.1 ∧ LiftAll R p.2 q.2) (v.partsOf f) (w.partsOf f) := by
  refine (h.operandOf f).bind fun vs ws hs => ?_
  cases hs with
  | nil => exact .error _
  | cons h hs => exact .ok ⟨h, hs⟩

theorem Lift.callee (hR : ∀ c d, R c d → c.arity = d.arity) (h : Lift R v w) :
    Likewise R v.callee w.callee := by
  have htext := h.text_eq hR
  cases h with
  | closure h => exact .ok h
  | boolean | integer | symbol => exact .error _
  | @list vs ws h =>
      change Likewise R (.error (.notCallable (Value.list vs).text))
        (.error (.notCallable (Value.list ws).text))
      rw [htext]
      exact .error _

end Value

variable {R : Closure → Closure → Prop}

namespace Operator

theorem apply_lift (o : Operator) (a b : Int64) :
    Likewise (Value.Lift R) (o.apply a b) (o.apply a b) := by
  obtain ⟨t, ht⟩ | ⟨n, hn⟩ | he | he := o.apply_cases a b
  · rw [ht]
    exact .ok (.boolean t)
  · rw [hn]
    exact .ok (.integer n)
  · rw [he]
    exact .error _
  · rw [he]
    exact .error _

theorem applyValues_lift {v w v' w' : Value} (h : v.Lift R w) (h' : v'.Lift R w')
    (o : Operator) : Likewise (Value.Lift R) (o.applyValues v v') (o.applyValues w w') := by
  have hkind := h.kind_eq
  have hkind' := h'.kind_eq
  cases h with
  | integer a =>
      cases h' with
      | integer b => exact apply_lift o a b
      | boolean | symbol | list | closure => exact .error _
  | boolean | symbol | list | closure => exact .error _

end Operator

namespace Keyword

theorem compute_lift_one {v w : Value} (h : v.Lift R w) (k : Keyword) :
    Likewise (Value.Lift R) (k.compute [v]) (k.compute [w]) := by
  cases k with
  | operator o => exact .error _
  | form f =>
      cases f with
      | atom =>
          change Likewise _ (.ok (Value.boolean v.isAtom)) (.ok (Value.boolean w.isAtom))
          rw [h.isAtom_eq]
          exact .ok (.boolean _)
      | head => exact (h.partsOf .head).bind fun _ _ hp => .ok hp.1
      | tail => exact (h.partsOf .tail).bind fun _ _ hp => .ok (.list hp.2)
      | empty =>
          refine (h.operandOf .empty).bind fun vs ws hs => ?_
          rw [hs.isEmpty_eq]
          exact .ok (.boolean _)
      | quote | eq | ifElse | define | lambda | cons | letIn | defn | cond => exact .error _

theorem compute_lift_two {v w v' w' : Value} (h : v.Lift R w) (h' : v'.Lift R w') (k : Keyword) :
    Likewise (Value.Lift R) (k.compute [v, v']) (k.compute [w, w']) := by
  cases k with
  | operator o => exact o.applyValues_lift h h'
  | form f =>
      cases f with
      | eq =>
          change Likewise _ (.ok (Value.boolean _)) (.ok (Value.boolean _))
          rw [h.decide_eq h']
          exact .ok (.boolean _)
      | cons => exact (h'.operandOf .cons).bind fun _ _ hs => .ok (.list (.cons h hs))
      | quote | atom | ifElse | define | lambda | head | tail | empty | letIn | defn | cond =>
          exact .error _

theorem compute_of_length {k : Keyword} {vs : List Value} (h₁ : vs.length ≠ 1)
    (h₂ : vs.length ≠ 2) : k.compute vs = .error (.keywordArity k vs.length) := by
  rw [compute.eq_def]
  split
  · exact absurd rfl h₂
  · exact absurd rfl h₁
  · exact absurd rfl h₂
  · exact absurd rfl h₂
  · exact absurd rfl h₁
  · exact absurd rfl h₁
  · exact absurd rfl h₁
  · rfl

/-- A strict keyword makes values that differ in their closures alone of such values. -/
theorem compute_lift {vs ws : List Value} (h : Value.LiftAll R vs ws) (k : Keyword) :
    Likewise (Value.Lift R) (k.compute vs) (k.compute ws) := by
  by_cases h₁ : vs.length = 1
  · obtain ⟨v, rfl⟩ := List.length_eq_one_iff.1 h₁
    cases h with
    | cons h hs =>
        cases hs
        exact compute_lift_one h k
  · by_cases h₂ : vs.length = 2
    · obtain ⟨v, v', rfl⟩ := List.length_eq_two.1 h₂
      cases h with
      | cons h hs =>
          cases hs with
          | cons h' hs =>
              cases hs
              exact compute_lift_two h h' k
    · have hlength := h.length_eq
      rw [compute_of_length h₁ h₂, compute_of_length (hlength ▸ h₁) (hlength ▸ h₂), hlength]
      exact .error _

end Keyword

end SmallLisp
