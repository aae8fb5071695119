import SmallLisp.Proofs.Run
import SmallLisp.Proofs.Value

namespace SmallLisp

namespace Value

mutual

/-- The values at the ends of nested lists; of the empty list there are none. -/
def leaves : Value → List Value
  | list items => leavesAll items
  | v => [v]

def leavesAll : List Value → List Value
  | [] => []
  | v :: vs => leaves v ++ leavesAll vs

end

variable {v x : Value} {vs items : List Value}

theorem mem_leavesAll : x ∈ leavesAll vs ↔ ∃ v ∈ vs, x ∈ v.leaves := by
  induction vs with
  | nil => simp [leavesAll]
  | cons v vs ih => simp [leavesAll, ih]

theorem forall_leavesAll {P : Value → Prop} :
    (∀ x ∈ leavesAll vs, P x) ↔ ∀ v ∈ vs, ∀ x ∈ v.leaves, P x := by
  constructor
  · intro h v hv x hx
    exact h x (mem_leavesAll.2 ⟨v, hv, hx⟩)
  · intro h x hx
    obtain ⟨v, hv, hx⟩ := mem_leavesAll.1 hx
    exact h v hv x hx

theorem leaves_of_operandOf {f : SpecialForm} (h : v.operandOf f = .ok items) :
    v.leaves = leavesAll items := by
  cases v with
  | list vs =>
      cases h
      rfl
  | boolean | integer | symbol | closure => cases h

theorem leaves_of_partsOf {f : SpecialForm} {first : Value} {rest : List Value}
    (h : v.partsOf f = .ok (first, rest)) : v.leaves = first.leaves ++ leavesAll rest := by
  cases v with
  | list vs =>
      cases vs with
      | nil => cases h
      | cons w ws =>
          cases h
          rfl
  | boolean | integer | symbol | closure => cases h

theorem leaves_of_callee {c : Closure} (h : v.callee = .ok c) : v.leaves = [.closure c] := by
  cases v with
  | closure d =>
      cases h
      rfl
  | boolean | integer | symbol | list => cases h

end Value

namespace Operator

theorem apply_eq_ok {o : Operator} {a b : Int64} {v : Value} (h : o.apply a b = .ok v) :
    (∃ t, v = .boolean t) ∨ ∃ w, v = .integer w := by
  obtain ⟨t, ht⟩ | ⟨n, hn⟩ | he | he := o.apply_cases a b
  · rw [ht] at h
    cases h
    exact .inl ⟨t, rfl⟩
  · rw [hn] at h
    cases h
    exact .inr ⟨n, rfl⟩
  · rw [he] at h
    cases h
  · rw [he] at h
    cases h

theorem applyValues_eq_ok {o : Operator} {v w x : Value} (h : o.applyValues v w = .ok x) :
    (∃ t, x = .boolean t) ∨ ∃ n, x = .integer n := by
  rw [applyValues.eq_def] at h
  split at h
  · exact apply_eq_ok h
  · cases h
  · cases h

end Operator

/-- What a strict keyword makes is made of its operands, of truth values and of integers. -/
theorem Keyword.leaves_compute {k : Keyword} {vs : List Value} {v x : Value}
    (h : k.compute vs = .ok v) (hx : x ∈ v.leaves) :
    (∃ t, x = .boolean t) ∨ (∃ n, x = .integer n) ∨ x ∈ Value.leavesAll vs := by
  rw [compute.eq_def] at h
  split at h
  · obtain ⟨t, rfl⟩ | ⟨n, rfl⟩ := Operator.applyValues_eq_ok h
    · exact .inl ⟨t, List.mem_singleton.1 hx⟩
    · exact .inr (.inl ⟨n, List.mem_singleton.1 hx⟩)
  · cases h
    exact .inl ⟨_, List.mem_singleton.1 hx⟩
  · cases h
    exact .inl ⟨_, List.mem_singleton.1 hx⟩
  · obtain ⟨items, hitems, he⟩ := exists_of_bind_eq_ok h
    cases he
    refine .inr (.inr ?_)
    rw [Value.leavesAll, Value.leavesAll, Value.leaves_of_operandOf hitems]
    simpa [Value.leaves, Value.leavesAll] using hx
  · obtain ⟨⟨first, rest⟩, hparts, he⟩ := exists_of_bind_eq_ok h
    cases he
    refine .inr (.inr ?_)
    rw [Value.leavesAll, Value.leaves_of_partsOf hparts]
    exact List.mem_append_left _ (List.mem_append_left _ hx)
  · obtain ⟨⟨first, rest⟩, hparts, he⟩ := exists_of_bind_eq_ok h
    cases he
    refine .inr (.inr ?_)
    rw [Value.leavesAll, Value.leaves_of_partsOf hparts]
    exact List.mem_append_left _ (List.mem_append_right _ hx)
  · obtain ⟨items, -, he⟩ := exists_of_bind_eq_ok h
    cases he
    exact .inl ⟨_, List.mem_singleton.1 hx⟩
  · cases h

namespace Value

variable {R : Closure → Closure → Prop}

mutual

theorem lift_self : (v : Value) → (∀ c, .closure c ∈ v.leaves → R c c) → Lift R v v
  | .boolean b, _ => .boolean b
  | .integer n, _ => .integer n
  | .symbol name, _ => .symbol name
  | .list vs, h => .list (liftAll_self vs h)
  | .closure c, h => .closure (h c List.mem_cons_self)

theorem liftAll_self :
    (vs : List Value) → (∀ c, .closure c ∈ leavesAll vs → R c c) → LiftAll R vs vs
  | [], _ => .nil
  | v :: vs, h =>
      .cons (lift_self v fun c hc => h c (List.mem_append_left _ hc))
        (liftAll_self vs fun c hc => h c (List.mem_append_right _ hc))

end

end Value

end SmallLisp
