namespace SmallLisp.Text

variable {α : Type} [DecidableEq α]

def pieces (sep : α) : List α → List (List α)
  | [] => [[]]
  | a :: as =>
      if a = sep then [] :: pieces sep as
      else
        match pieces sep as with
        | [] => [[a]]
        | p :: ps => (a :: p) :: ps

theorem pieces_ne_nil (sep : α) (as : List α) : pieces sep as ≠ [] := by
  cases as with
  | nil => simp [pieces]
  | cons a as =>
      unfold pieces
      split
      · simp
      · split <;> simp

theorem intercalate_pieces (sep : α) (as : List α) : [sep].intercalate (pieces sep as) = as := by
  induction as with
  | nil => rfl
  | cons a as ih =>
      obtain ⟨p, ps, hp⟩ := List.exists_cons_of_ne_nil (pieces_ne_nil sep as)
      rw [hp] at ih
      by_cases h : a = sep
      · simp only [pieces, h, hp, if_true]
        rw [← ih]
        simp [List.intercalate]
      · simp only [pieces, h, hp, if_false]
        rw [← ih]
        cases ps <;> simp [List.intercalate]

theorem sep_notMem_of_mem_pieces {sep : α} {as p : List α} (h : p ∈ pieces sep as) : sep ∉ p := by
  induction as generalizing p with
  | nil => simp_all [pieces]
  | cons a as ih =>
      obtain ⟨q, qs, hq⟩ := List.exists_cons_of_ne_nil (pieces_ne_nil sep as)
      rw [hq] at ih
      by_cases ha : a = sep
      · simp only [pieces, ha, hq, if_true, List.mem_cons] at h
        obtain rfl | h := h
        · exact List.not_mem_nil
        · exact ih (List.mem_cons.2 h)
      · simp only [pieces, ha, hq, if_false, List.mem_cons] at h
        obtain rfl | h := h
        · rw [List.mem_cons, not_or]
          exact ⟨Ne.symm ha, ih List.mem_cons_self⟩
        · exact ih (List.mem_cons_of_mem q h)

/-- The lines of a text; a line feed at its end begins another, empty, line. -/
def lines (cs : List Char) : List (List Char) := pieces '\n' cs

end SmallLisp.Text
