namespace SmallLisp.Text

/-- Whether a character is in one of the runs, which are given by their first and last code points. -/
def inRanges (ranges : Array (Nat × Nat)) (c : Char) : Bool :=
  ranges.any (fun r => r.1 ≤ c.toNat && c.toNat ≤ r.2)

end SmallLisp.Text
