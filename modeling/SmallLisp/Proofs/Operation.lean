import Mathlib.Data.Rat.Floor
import Mathlib.Tactic.Linarith
import SmallLisp.Operation

namespace SmallLisp

/-- `q` is the quotient rounded down of `x` by `y`, and `r` is what it leaves over. -/
structure Divided (x y q r : Int) : Prop where
  eq : x = y * q + r
  small : r.natAbs < y.natAbs
  sign : r = 0 ∨ r.sign = y.sign

namespace Divided

variable {x y q r : Int}

theorem iff_abs :
    Divided x y q r ↔ x = y * q + r ∧ |r| < |y| ∧ (r = 0 ∨ r.sign = y.sign) := by
  rw [Int.abs_eq_natAbs, Int.abs_eq_natAbs, Int.ofNat_lt]
  exact ⟨fun ⟨heq, hsmall, hsign⟩ => ⟨heq, hsmall, hsign⟩,
    fun ⟨heq, hsmall, hsign⟩ => ⟨heq, hsmall, hsign⟩⟩

theorem sign_eq_iff (hr : r ≠ 0) (hy : y ≠ 0) : r.sign = y.sign ↔ (r < 0 ↔ y < 0) := by
  obtain hr | hr := Int.lt_or_gt_of_ne hr <;> obtain hy | hy := Int.lt_or_gt_of_ne hy <;>
    simp [Int.sign_eq_one_of_pos, Int.sign_eq_neg_one_of_neg, hr, hy, Int.lt_asymm]

theorem nonneg_of_pos (h : Divided x y q r) (hy : 0 < y) : 0 ≤ r ∧ r < y := by
  have hsmall := h.small
  obtain hr | hr := h.sign
  · omega
  · have hpos : 0 < r := Int.sign_eq_one_iff_pos.1 (hr.trans (Int.sign_eq_one_of_pos hy))
    omega

theorem nonpos_of_neg (h : Divided x y q r) (hy : y < 0) : r ≤ 0 ∧ y < r := by
  have hsmall := h.small
  obtain hr | hr := h.sign
  · omega
  · have hneg : r < 0 := Int.sign_eq_neg_one_iff_neg.1 (hr.trans (Int.sign_eq_neg_one_of_neg hy))
    omega

theorem floor_eq (h : Divided x y q r) (hy : y ≠ 0) : ⌊(x : ℚ) / y⌋ = q := by
  have heq : (x : ℚ) = y * q + r := by exact_mod_cast h.eq
  rw [Int.floor_eq_iff]
  obtain hneg | hpos := Int.lt_or_gt_of_ne hy
  · obtain ⟨hle, hlt⟩ := h.nonpos_of_neg hneg
    have hle' : (r : ℚ) ≤ 0 := by exact_mod_cast hle
    have hlt' : (y : ℚ) < r := by exact_mod_cast hlt
    have hneg' : (y : ℚ) < 0 := by exact_mod_cast hneg
    rw [le_div_iff_of_neg hneg', div_lt_iff_of_neg hneg']
    constructor <;> linarith
  · obtain ⟨hle, hlt⟩ := h.nonneg_of_pos hpos
    have hle' : (0 : ℚ) ≤ r := by exact_mod_cast hle
    have hlt' : (r : ℚ) < y := by exact_mod_cast hlt
    have hpos' : (0 : ℚ) < y := by exact_mod_cast hpos
    rw [le_div_iff₀ hpos', div_lt_iff₀ hpos']
    constructor <;> linarith

theorem natAbs_tmod_lt (x : Int) (hy : y ≠ 0) : (x.tmod y).natAbs < y.natAbs := by
  rw [Int.natAbs_tmod]
  exact Nat.mod_lt _ (Int.natAbs_pos.2 hy)

theorem tmod_neg_iff (h : x.tmod y ≠ 0) : x.tmod y < 0 ↔ x < 0 := by
  obtain hx | hx := Int.lt_or_le x 0
  · have hneg : 0 ≤ (-x).tmod y := Int.tmod_nonneg y (by omega)
    rw [Int.neg_tmod] at hneg
    omega
  · have hnonneg := Int.tmod_nonneg y hx
    omega

/-- The quotient rounded toward zero is rounded up: something is left over and it has the sign that
the divisor has not. -/
def RoundedUp (x y : Int) : Prop := x.tmod y ≠ 0 ∧ ¬ (x.tmod y < 0 ↔ y < 0)

theorem of_tdiv (hy : y ≠ 0) (h : ¬ RoundedUp x y) : Divided x y (x.tdiv y) (x.tmod y) where
  eq := (Int.mul_tdiv_add_tmod x y).symm
  small := natAbs_tmod_lt x hy
  sign := by
    obtain hr | hr := eq_or_ne (x.tmod y) 0
    · exact .inl hr
    · exact .inr ((sign_eq_iff hr hy).2 (by_contra fun hsign => h ⟨hr, hsign⟩))

theorem of_tdiv_sub_one (hy : y ≠ 0) (h : RoundedUp x y) :
    Divided x y (x.tdiv y - 1) (x.tmod y + y) := by
  obtain ⟨hr, hsign⟩ := h
  have hlt := natAbs_tmod_lt x hy
  refine ⟨?_, by omega, .inr ((sign_eq_iff (by omega) hy).2 (by omega))⟩
  have heq := Int.mul_tdiv_add_tmod x y
  rw [Int.mul_sub, Int.mul_one]
  omega

end Divided

namespace Integer

variable {a b : Int64}

theorem ofInt?_eq_some_iff {n : Int} {w : Int64} : ofInt? n = some w ↔ w.toInt = n :=
  ⟨toInt_of_ofInt?, fun h => h ▸ ofInt?_toInt w⟩

theorem fits_iff {n : Int} : Fits n ↔ ∃ w : Int64, w.toInt = n := by
  constructor
  · intro h
    exact ⟨_, ofInt?_eq_some_iff.1 (if_pos h)⟩
  · rintro ⟨w, rfl⟩
    exact fits_toInt w

theorem fits_iff_bounds {n : Int} : Fits n ↔ -2 ^ 63 ≤ n ∧ n < 2 ^ 63 := by
  rw [Fits, Int64.toInt_minValue, Int64.toInt_maxValue]
  omega

theorem toInt_ne_zero (hb : b ≠ 0) : b.toInt ≠ 0 := fun h => hb (Int64.toInt_inj.1 h)

theorem lt_zero_iff : a < 0 ↔ a.toInt < 0 := Int64.lt_iff_toInt_lt

theorem toInt_sub_of_fits (h : Fits (a.toInt - b.toInt)) : (a - b).toInt = a.toInt - b.toInt := by
  rw [← Int64.ofInt_toInt a, ← Int64.ofInt_toInt b, ← Int64.ofInt_sub, Int64.ofInt_toInt,
    Int64.ofInt_toInt]
  exact Int64.toInt_ofInt_of_le h.1 (Int.lt_of_le_sub_one h.2)

theorem toInt_add_of_fits (h : Fits (a.toInt + b.toInt)) : (a + b).toInt = a.toInt + b.toInt := by
  rw [← Int64.ofInt_toInt a, ← Int64.ofInt_toInt b, ← Int64.ofInt_add, Int64.ofInt_toInt,
    Int64.ofInt_toInt]
  exact Int64.toInt_ofInt_of_le h.1 (Int.lt_of_le_sub_one h.2)

theorem mod_ne_zero_iff : a % b ≠ 0 ↔ a.toInt.tmod b.toInt ≠ 0 := by
  rw [← Int64.toInt_mod, ← Int64.toInt_zero]
  exact not_congr Int64.toInt_inj.symm

theorem natAbs_tdiv_le (hb : b ≠ 0) (hr : a % b ≠ 0) :
    (a.toInt.tdiv b.toInt).natAbs ≤ 2 ^ 62 := by
  have htwo : 2 ≤ b.toInt.natAbs := by
    have hlt := Divided.natAbs_tmod_lt a.toInt (toInt_ne_zero hb)
    have hr' := mod_ne_zero_iff.1 hr
    omega
  calc (a.toInt.tdiv b.toInt).natAbs
    _ = a.toInt.natAbs / b.toInt.natAbs := Int.natAbs_tdiv _ _
    _ ≤ a.toInt.natAbs / 2 := Nat.div_le_div_left htwo Nat.zero_lt_two
    _ ≤ 2 ^ 62 := by
      have hle := a.le_toInt
      have hlt := a.toInt_lt
      omega

theorem fits_tdiv (hb : b ≠ 0) (hr : a % b ≠ 0) : Fits (a.toInt.tdiv b.toInt) := by
  have hle := natAbs_tdiv_le hb hr
  rw [fits_iff_bounds]
  omega

theorem fits_tdiv_sub_one (hb : b ≠ 0) (hr : a % b ≠ 0) : Fits (a.toInt.tdiv b.toInt - 1) := by
  have hle := natAbs_tdiv_le hb hr
  rw [fits_iff_bounds]
  omega

theorem fits_mod_add (h : ¬ (a % b < 0 ↔ b < 0)) : Fits ((a % b).toInt + b.toInt) := by
  rw [lt_zero_iff, lt_zero_iff] at h
  have hle := (a % b).le_toInt
  have hlt := (a % b).toInt_lt
  have hle' := b.le_toInt
  have hlt' := b.toInt_lt
  rw [fits_iff_bounds]
  omega

theorem remainder_roundedUp_iff :
    a % b ≠ 0 ∧ ¬ (a % b < 0 ↔ b < 0) ↔ Divided.RoundedUp a.toInt b.toInt := by
  rw [mod_ne_zero_iff, lt_zero_iff, lt_zero_iff, Int64.toInt_mod]
  rfl

theorem quotient_roundedUp_iff :
    a % b ≠ 0 ∧ ¬ (a < 0 ↔ b < 0) ↔ Divided.RoundedUp a.toInt b.toInt := by
  rw [mod_ne_zero_iff, lt_zero_iff, lt_zero_iff]
  refine and_congr_right fun hr => ?_
  rw [Divided.tmod_neg_iff hr]

theorem toInt_of_quotient? {q : Int64} (h : quotient? a b = some q) :
    q.toInt = a.toInt.tdiv b.toInt := by
  rw [quotient?] at h
  split at h
  · cases h
  · exact toInt_of_ofInt? h

/-- No step on the way to a quotient or remainder of words leaves the words. -/
structure StepsExact (a b : Int64) : Prop where
  remainder : (a % b).toInt = a.toInt.tmod b.toInt
  quotient : ∀ q, quotient? a b = some q → q.toInt = a.toInt.tdiv b.toInt
  quotientDown : ∀ q, quotient? a b = some q → a % b ≠ 0 → (q - 1).toInt = q.toInt - 1
  remainderUp : ¬ (a % b < 0 ↔ b < 0) → (a % b + b).toInt = (a % b).toInt + b.toInt

theorem stepsExact (hb : b ≠ 0) : StepsExact a b where
  remainder := Int64.toInt_mod a b
  quotient _ := toInt_of_quotient?
  quotientDown q hq hr := by
    refine toInt_sub_of_fits ?_
    rw [toInt_of_quotient? hq]
    exact fits_tdiv_sub_one hb hr
  remainderUp h := toInt_add_of_fits (fits_mod_add h)

theorem divided (hb : b ≠ 0) :
    ∃ q, Divided a.toInt b.toInt q (floorMod a b).toInt ∧ floorDiv? a b = ofInt? q := by
  have hb' := toInt_ne_zero hb
  have hsteps := stepsExact (a := a) hb
  have hquotient : quotient? a b = ofInt? (a.toInt.tdiv b.toInt) := if_neg hb
  rw [floorMod, floorDiv?]
  by_cases h : Divided.RoundedUp a.toInt b.toInt
  · have hmod := remainder_roundedUp_iff.2 h
    obtain ⟨q, hq⟩ := fits_iff.1 (fits_tdiv hb hmod.1)
    have hq' : quotient? a b = some q := hquotient.trans (ofInt?_eq_some_iff.2 hq)
    refine ⟨a.toInt.tdiv b.toInt - 1, ?_, ?_⟩
    · rw [if_pos hmod, hsteps.remainderUp hmod.2, hsteps.remainder]
      exact .of_tdiv_sub_one hb' h
    · simp only [hq', if_pos (quotient_roundedUp_iff.2 h)]
      rw [← hq, ← hsteps.quotientDown q hq' hmod.1, ofInt?_toInt]
  · refine ⟨a.toInt.tdiv b.toInt, ?_, ?_⟩
    · rw [if_neg (mt remainder_roundedUp_iff.1 h), hsteps.remainder]
      exact .of_tdiv hb' h
    · simp only [if_neg (mt quotient_roundedUp_iff.1 h)]
      rw [hquotient]
      cases ofInt? (a.toInt.tdiv b.toInt) <;> rfl

end Integer

namespace Operator

/-- The outcome is the integer `n`, or an overflow if `n` has no word. -/
structure Exact (o : Operator) (n : Int) (x : Except Fault Value) : Prop where
  value : (∃ w : Int64, w.toInt = n ∧ x = .ok (.integer w)) ↔ Integer.Fits n
  overflow : x = .error (.integerOverflow o) ↔ ¬ Integer.Fits n

theorem exact_exactly (o : Operator) (n : Int) : o.Exact n (o.exactly n) := by
  rw [exactly]
  cases h : Integer.ofInt? n with
  | none =>
      have hn := Integer.ofInt?_eq_none.1 h
      exact ⟨⟨nofun, fun hfits => absurd hfits hn⟩, iff_of_true rfl hn⟩
  | some w =>
      have hw := Integer.toInt_of_ofInt? h
      have hfits : Integer.Fits n := Integer.fits_iff.2 ⟨w, hw⟩
      exact ⟨iff_of_true ⟨w, hw, rfl⟩ hfits, ⟨nofun, fun hn => absurd hfits hn⟩⟩

theorem exactly_eq (o : Operator) (n : Int) :
    o.exactly n = if Integer.Fits n then .ok (.integer (.ofInt n)) else .error (.integerOverflow o) := by
  rw [exactly, Integer.ofInt?]
  split <;> rfl

theorem add_ofInt (n : Int64) {k : Int} (hk : Integer.Fits k) :
    add.applyValues (.integer n) (.integer (.ofInt k)) = add.exactly (n.toInt + k) := by
  change add.exactly (n.toInt + (Int64.ofInt k).toInt) = _
  rw [Int64.toInt_ofInt_of_le hk.1 (Int.lt_of_le_sub_one hk.2)]

theorem exactly_succ (n : Nat) :
    (add.exactly n >>= fun w => add.applyValues (.integer 1) w) = add.exactly (n + 1 : Nat) := by
  rw [exactly_eq]
  by_cases hn : Integer.Fits n
  · rw [if_pos hn, Nat.cast_add, Int.add_comm]
    exact add_ofInt 1 hn
  · have hsucc : ¬ Integer.Fits (n + 1 : Nat) := by
      rw [Integer.fits_iff_bounds] at hn ⊢
      omega
    rw [if_neg hn, exactly_eq, if_neg hsucc]
    rfl

theorem checked_ne_divisionByZero (o : Operator) (w : Option Int64) :
    o.checked w ≠ .error .divisionByZero := by
  cases w <;> exact nofun

theorem divisionByZero_iff (o : Operator) (a b : Int64) :
    o.apply a b = .error .divisionByZero ↔ (o = .div ∨ o = .mod) ∧ b = 0 := by
  cases o with
  | add | sub | mul => simp [apply, exactly, checked_ne_divisionByZero]
  | greater | less | equal => simp [apply]
  | div | mod => by_cases hb : b = 0 <;> simp [apply, hb, checked_ne_divisionByZero]

theorem div_exact {a b : Int64} (hb : b ≠ 0) :
    div.Exact ⌊(a.toInt : ℚ) / b.toInt⌋ (div.apply a b) := by
  obtain ⟨q, hq, hdiv⟩ := Integer.divided (a := a) hb
  rw [apply, if_neg hb, hdiv, hq.floor_eq (Integer.toInt_ne_zero hb)]
  exact exact_exactly div q

theorem mod_exact {a b : Int64} (hb : b ≠ 0) :
    ∃ m : Int64, mod.apply a b = .ok (.integer m) ∧
      ∀ n, Divided a.toInt b.toInt ⌊(a.toInt : ℚ) / b.toInt⌋ n ↔ n = m.toInt := by
  obtain ⟨q, hq, -⟩ := Integer.divided (a := a) hb
  refine ⟨Integer.floorMod a b, by rw [apply, if_neg hb], fun n => ?_⟩
  rw [hq.floor_eq (Integer.toInt_ne_zero hb)]
  constructor
  · intro hn
    exact Int.add_left_cancel (hn.eq.symm.trans hq.eq)
  · rintro rfl
    exact hq

theorem operandNotInteger_iff (o : Operator) (v w : Value) (k : Kind) :
    o.applyValues v w = .error (.operandNotInteger o k) ↔
      v.integer? = none ∧ k = v.kind ∨ v.integer?.isSome ∧ w.integer? = none ∧ k = w.kind := by
  cases v with
  | integer a =>
      cases w with
      | integer b =>
          have hne : o.apply a b ≠ .error (.operandNotInteger o k) := by
            intro he
            obtain ⟨t, h⟩ | ⟨n, h⟩ | h | h := o.apply_cases a b <;> rw [h] at he <;> cases he
          simpa [applyValues, Value.integer?] using hne
      | boolean | symbol | list | closure => simp [applyValues, Value.integer?, eq_comm]
  | boolean | symbol | list | closure => simp [applyValues, Value.integer?, eq_comm]

/-- The operators on integers are exact. A zero divisor is a failure of its own; every other result of
`+`, `-`, `*` and `/` is the exact one or an overflow if that has no word, where `/` rounds down; `mod`
comes to what `/` leaves over, which has the sign of the divisor and is always a word. The steps by
which the two are computed stay within the words too. On other values an operator fails with the kind
of the first operand that is no integer. -/
theorem arithmetic_exact :
    (∀ a b : Int64, let x := a.toInt; let y := b.toInt
      (∀ o : Operator, o.apply a b = .error .divisionByZero ↔ (o = .div ∨ o = .mod) ∧ b = 0) ∧
      add.Exact (x + y) (add.apply a b) ∧ sub.Exact (x - y) (sub.apply a b) ∧
      mul.Exact (x * y) (mul.apply a b) ∧
      (b ≠ 0 → div.Exact ⌊(x : ℚ) / y⌋ (div.apply a b) ∧
        (∃ m : Int64, mod.apply a b = .ok (.integer m) ∧ ∀ n : Int,
          x = y * ⌊(x : ℚ) / y⌋ + n ∧ |n| < |y| ∧ (n = 0 ∨ n.sign = y.sign) ↔ n = m.toInt) ∧
        Integer.StepsExact a b) ∧
      greater.apply a b = .ok (.boolean (y < x)) ∧ less.apply a b = .ok (.boolean (x < y)) ∧
      equal.apply a b = .ok (.boolean (x = y))) ∧
    ∀ (o : Operator) (v w : Value),
      (∀ a b, v = .integer a → w = .integer b → o.applyValues v w = o.apply a b) ∧
      ∀ k, o.applyValues v w = .error (.operandNotInteger o k) ↔
        v.integer? = none ∧ k = v.kind ∨ v.integer?.isSome ∧ w.integer? = none ∧ k = w.kind := by
  refine ⟨fun a b => ?_, fun o v w => ⟨?_, operandNotInteger_iff o v w⟩⟩
  · refine ⟨fun o => divisionByZero_iff o a b, exact_exactly _ _, exact_exactly _ _,
      exact_exactly _ _, fun hb => ⟨div_exact hb, ?_, Integer.stepsExact hb⟩, ?_, ?_, ?_⟩
    · obtain ⟨m, hm, hunique⟩ := mod_exact (a := a) hb
      refine ⟨m, hm, fun n => ?_⟩
      rw [← hunique n, Divided.iff_abs]
    · exact congrArg (Except.ok ∘ Value.boolean) (decide_eq_decide.2 Int64.lt_iff_toInt_lt)
    · exact congrArg (Except.ok ∘ Value.boolean) (decide_eq_decide.2 Int64.lt_iff_toInt_lt)
    · exact congrArg (Except.ok ∘ Value.boolean) (decide_eq_decide.2 Int64.toInt_inj.symm)
  · rintro a b rfl rfl
    rfl

theorem arithmetic_exact_minValue :
    (-1 : Int64) ≠ 0 ∧ div.apply .minValue (-1) = .error (.integerOverflow .div) ∧
      mod.apply .minValue (-1) = .ok (.integer 0) ∧
      div.applyValues (.integer .minValue) (.list []) =
        .error (.operandNotInteger .div (Value.list []).kind) := by
  have hb : (-1 : Int64) ≠ 0 := by decide
  obtain ⟨hwords, hvalues⟩ := arithmetic_exact
  obtain ⟨-, -, -, -, hdiv, -⟩ := hwords .minValue (-1)
  obtain ⟨hquotient, ⟨m, hm, hunique⟩, -⟩ := hdiv hb
  have hfloor : ⌊((Int64.minValue.toInt : ℤ) : ℚ) / ((-1 : Int64).toInt : ℤ)⌋ = 2 ^ 63 := by
    have hmin : Int64.minValue.toInt = -2 ^ 63 := rfl
    have hone : (-1 : Int64).toInt = -1 := rfl
    rw [hmin, hone]
    norm_num
  rw [hfloor] at hquotient hunique
  have hzero : m = 0 := Int64.toInt_inj.1 ((hunique 0).1 ⟨by decide, by decide, .inl rfl⟩).symm
  refine ⟨hb, hquotient.overflow.2 (by decide), hzero ▸ hm, ?_⟩
  exact ((hvalues .div (.integer .minValue) (.list [])).2 _).2 (.inr ⟨rfl, rfl, rfl⟩)

end Operator

end SmallLisp
