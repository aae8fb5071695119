namespace SmallLisp.Decimal

def ofInt : Int → List Char
  | .ofNat n => Nat.toDigits 10 n
  | .negSucc n => '-' :: Nat.toDigits 10 (n + 1)

def toNat? (cs : List Char) : Option Nat :=
  if cs.isEmpty || !cs.all Char.isDigit then none else some (Nat.ofDigitChars 10 cs 0)

def toInt? : List Char → Option Int
  | '-' :: ds => (toNat? ds).map (fun n => -(n : Int))
  | '+' :: ds => (toNat? ds).map Int.ofNat
  | ds => (toNat? ds).map Int.ofNat

theorem toNat?_toDigits (n : Nat) : toNat? (Nat.toDigits 10 n) = some n := by
  have hall : (Nat.toDigits 10 n).all Char.isDigit = true :=
    List.all_eq_true.2 (fun _ hc => Nat.isDigit_of_mem_toDigits (by decide) (by decide) hc)
  have hne : (Nat.toDigits 10 n).isEmpty = false := by simp
  simp [toNat?, hall, hne]

theorem toInt?_of_isDigit {c : Char} {cs : List Char} (h : c.isDigit) :
    toInt? (c :: cs) = (toNat? (c :: cs)).map Int.ofNat := by
  unfold toInt?
  split
  · next heq => cases heq; exact absurd h (by decide)
  · next heq => cases heq; exact absurd h (by decide)
  · rfl

@[simp]
theorem toInt?_ofInt (n : Int) : toInt? (ofInt n) = some n := by
  cases n with
  | ofNat n =>
      cases hd : Nat.toDigits 10 n with
      | nil => exact absurd hd Nat.toDigits_ne_nil
      | cons c cs =>
          have hc : c.isDigit = true :=
            Nat.isDigit_of_mem_toDigits (by decide) (by decide) (hd ▸ List.mem_cons_self)
          rw [ofInt, hd, toInt?_of_isDigit hc, ← hd, toNat?_toDigits]
          rfl
  | negSucc n => simp [ofInt, toInt?, toNat?_toDigits, Int.negSucc_eq]

end SmallLisp.Decimal
