import SmallLisp.Text.Decimal

namespace SmallLisp.Integer

def Fits (n : Int) : Prop := Int64.minValue.toInt ≤ n ∧ n ≤ Int64.maxValue.toInt

instance (n : Int) : Decidable (Fits n) := inferInstanceAs (Decidable (_ ∧ _))

def ofInt? (n : Int) : Option Int64 := if Fits n then some (Int64.ofInt n) else none

def quotient? (a b : Int64) : Option Int64 :=
  if b = 0 then none else ofInt? (a.toInt.tdiv b.toInt)

/-- The quotient rounded down. It is one less than the quotient rounded toward zero where that was
rounded up. -/
def floorDiv? (a b : Int64) : Option Int64 :=
  match quotient? a b with
  | none => none
  | some q => if a % b ≠ 0 ∧ ¬ (a < 0 ↔ b < 0) then some (q - 1) else some q

def floorMod (a b : Int64) : Int64 :=
  if a % b ≠ 0 ∧ ¬ (a % b < 0 ↔ b < 0) then a % b + b else a % b

def chars (n : Int64) : List Char := Decimal.ofInt n.toInt

theorem fits_toInt (n : Int64) : Fits n.toInt := ⟨n.minValue_le_toInt, n.toInt_le⟩

theorem toInt_of_ofInt? {n : Int} {w : Int64} (h : ofInt? n = some w) : w.toInt = n := by
  unfold ofInt? at h
  split at h
  · next hf => cases h; exact Int64.toInt_ofInt_of_le hf.1 (Int.lt_of_le_sub_one hf.2)
  · cases h

@[simp]
theorem ofInt?_toInt (n : Int64) : ofInt? n.toInt = some n := by
  simp [ofInt?, fits_toInt]

theorem ofInt?_eq_none {n : Int} : ofInt? n = none ↔ ¬ Fits n := by
  simp [ofInt?]

end SmallLisp.Integer
