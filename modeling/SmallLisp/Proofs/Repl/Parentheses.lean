import SmallLisp.Proofs.Reader.Ranking
import SmallLisp.Proofs.Repl.Lines
import SmallLisp.Proofs.Run

namespace SmallLisp

/-- A text ends in a comment: no line feed stands behind one of its semicolons. -/
def EndsInComment (cs : List Char) : Prop :=
  ∃ before body, cs = before ++ ';' :: body ∧ '\n' ∉ body

theorem not_endsInComment_nil : ¬ EndsInComment [] := by
  rintro ⟨before, body, h, -⟩
  exact List.append_ne_nil_of_right_ne_nil before (List.cons_ne_nil _ _) h.symm

theorem endsInComment_append_singleton {cs : List Char} {c : Char} :
    EndsInComment (cs ++ [c]) ↔ c ≠ '\n' ∧ (c = ';' ∨ EndsInComment cs) := by
  constructor
  · rintro ⟨before, body, h, hbody⟩
    -- the last character is the semicolon itself, or the last one of the comment
    cases body using List.reverseRecOn with
    | nil =>
        obtain ⟨-, hc⟩ := List.append_inj' h rfl
        cases hc
        exact ⟨by decide, .inl rfl⟩
    | append_singleton body c' =>
        rw [← List.cons_append, ← List.append_assoc] at h
        obtain ⟨rfl, hc⟩ := List.append_inj' h rfl
        cases hc
        rw [List.mem_append, not_or, List.mem_singleton] at hbody
        exact ⟨Ne.symm hbody.2, .inr ⟨before, body, rfl, hbody.1⟩⟩
  · rintro ⟨hc, rfl | ⟨before, body, rfl, hbody⟩⟩
    · exact ⟨cs, [], rfl, List.not_mem_nil⟩
    · exact ⟨before, body ++ [c], by simp, by simp [hbody, Ne.symm hc]⟩

theorem endsInComment_newline {cs ds : List Char} :
    EndsInComment (cs ++ '\n' :: ds) ↔ EndsInComment ds := by
  induction ds using List.reverseRecOn with
  | nil => simp [endsInComment_append_singleton, not_endsInComment_nil]
  | append_singleton ds d ih =>
      rw [← List.cons_append, ← List.append_assoc, endsInComment_append_singleton, ih,
        endsInComment_append_singleton]

theorem endsInComment_line {line : List Char} (hl : '\n' ∉ line) :
    EndsInComment line ↔ ';' ∈ line := by
  constructor
  · rintro ⟨before, body, rfl, -⟩
    exact List.mem_append_right before List.mem_cons_self
  · intro h
    obtain ⟨before, body, rfl⟩ := List.append_of_mem h
    exact ⟨before, body, rfl, fun hbody => hl (by simp [hbody])⟩

theorem endsInComment_iff {cs : List Char} :
    EndsInComment cs ↔ ';' ∈ cs.reverse.takeWhile (· ≠ '\n') := by
  induction cs using List.reverseRecOn with
  | nil => simp [not_endsInComment_nil]
  | append_singleton cs c ih =>
      rw [endsInComment_append_singleton, ih, List.reverse_append, List.reverse_singleton,
        List.singleton_append, List.takeWhile_cons]
      by_cases hc : c = '\n'
      · simp [hc]
      · simp [hc, eq_comm]

instance (cs : List Char) : Decidable (EndsInComment cs) :=
  decidable_of_iff _ endsInComment_iff.symm

/-- How often a character stands outside the comments of a text. A place is in a comment if the text
in front of it ends in one. -/
def countOutside (d : Char) (cs : List Char) : Nat :=
  (List.range cs.length).countP fun i => cs[i]? = some d ∧ ¬ EndsInComment (cs.take i)

theorem countOutside_append_singleton (d c : Char) (cs : List Char) :
    countOutside d (cs ++ [c]) =
      countOutside d cs + if c = d ∧ ¬ EndsInComment cs then 1 else 0 := by
  rw [countOutside, List.length_append, List.length_singleton, List.range_succ, List.countP_append,
    countOutside]
  congr 1
  -- whether a place is in a comment depends on the text in front of it alone
  · refine List.countP_congr fun i hi => ?_
    rw [List.mem_range] at hi
    rw [List.getElem?_append_left hi, List.take_append_of_le_length (Nat.le_of_lt hi)]
  · simp [List.countP_cons]

theorem countOutside_newline {d : Char} (hd : d ≠ '\n') (cs ds : List Char) :
    countOutside d (cs ++ '\n' :: ds) = countOutside d cs + countOutside d ds := by
  induction ds using List.reverseRecOn with
  | nil =>
      rw [countOutside_append_singleton, if_neg fun h => hd h.1.symm]
      rfl
  | append_singleton ds c ih =>
      rw [← List.cons_append, ← List.append_assoc, countOutside_append_singleton, ih,
        countOutside_append_singleton, Nat.add_assoc]
      simp only [endsInComment_newline]

theorem withoutComment_append_singleton (line : List Char) (c : Char) :
    withoutComment (line ++ [c]) =
      withoutComment line ++ if c = ';' ∨ ';' ∈ line then [] else [c] := by
  induction line with
  | nil => by_cases hc : c = ';' <;> simp [withoutComment, hc]
  | cons a line ih =>
      by_cases ha : a = ';'
      · simp [withoutComment, ha]
      · simpa [withoutComment, ha, Ne.symm ha] using ih

theorem countOutside_line {d : Char} (hd : d ≠ ';') {line : List Char} (hl : '\n' ∉ line) :
    countOutside d line = (withoutComment line).count d := by
  induction line using List.reverseRecOn with
  | nil => rfl
  | append_singleton line c ih =>
      have hline : '\n' ∉ line := fun h => hl (List.mem_append_left _ h)
      rw [countOutside_append_singleton, ih hline, withoutComment_append_singleton,
        List.count_append]
      simp only [endsInComment_line hline]
      congr 1
      by_cases h : ';' ∈ line
      · simp [h]
      · by_cases hc : c = ';'
        · simp [h, hc, Ne.symm hd]
        · simp [h, hc, List.count_singleton]

theorem countOutside_intercalate {d : Char} (hd : d ≠ ';') (hd' : d ≠ '\n')
    {ls : List (List Char)} (hls : ∀ l ∈ ls, '\n' ∉ l) :
    countOutside d (['\n'].intercalate ls) = (ls.flatMap withoutComment).count d := by
  induction ls with
  | nil => rfl
  | cons l ls ih =>
      obtain ⟨hl, hls⟩ := List.forall_mem_cons.1 hls
      cases ls with
      | nil => rw [List.intercalate_singleton, countOutside_line hd hl, List.flatMap_singleton]
      | cons k ls =>
          rw [List.intercalate_cons_cons, List.append_assoc, List.singleton_append,
            countOutside_newline hd', countOutside_line hd hl, ih hls, ← List.count_append]
          rfl

theorem countOutside_eq {d : Char} (hd : d ≠ ';') (hd' : d ≠ '\n') (cs : List Char) :
    countOutside d cs = ((Text.lines cs).flatMap withoutComment).count d := by
  have h : countOutside d (['\n'].intercalate (Text.lines cs)) = _ :=
    countOutside_intercalate hd hd' fun _ => Text.sep_notMem_of_mem_pieces
  rwa [Text.lines, Text.intercalate_pieces] at h

theorem parenBalance_outside (source : String) : parenBalance source =
    (countOutside '(' source.toList : Int) - (countOutside ')' source.toList : Int) := by
  rw [countOutside_eq (by decide) (by decide), countOutside_eq (by decide) (by decide)]
  rfl

theorem parenBalance_endedLines (source : String) :
    let cs := (endedLines '\n' '\r' source.toList).flatMap withoutComment
    parenBalance source = (cs.count '(' : Int) - (cs.count ')' : Int) := by
  intro cs
  have hlines : ∀ l ∈ endedLines '\n' '\r' source.toList, '\n' ∉ l :=
    fun _ => lineFeed_notMem_delivered
  rw [parenBalance_eq, lex_endedLines, balance, count_flatMap_lex (d := '(') rfl rfl hlines,
    count_flatMap_lex (d := ')') rfl rfl hlines]

theorem Nest.depth_deliver (os : List Opening) (fs : List Form) (f : Form) :
    depth (Scan.deliver os fs f).1 = depth os := by
  fun_induction Scan.deliver os fs f with
  | case1 os fs f ih => rw [ih, depth, depth, List.countP_cons_of_neg Bool.false_ne_true]
  | case2 => rfl

namespace Scan

variable {s t : Scan} {c : Char} {cs before : List Char}

theorem step_mode (h : s.step c = .ok t) :
    t.mode = .comment ↔ c ≠ '\n' ∧ (c = ';' ∨ s.mode = .comment) := by
  by_cases hm : s.mode = .comment
  · rw [step_comment hm] at h
    cases h
    by_cases hc : c = '\n' <;> simp [hc, hm]
  · rw [step_plain hm] at h
    by_cases hd : c ∈ Token.delimiters
    · obtain ⟨u, hu, -, hmode⟩ | ⟨⟨e, he⟩, -⟩ := read_delimiter hm hd
      · rw [hu] at h
        cases h
        by_cases hc : c = ';' <;> simp [hc, hm, hmode]
      · rw [he] at h
        cases h
    · have hc : c ≠ ';' := fun hc => hd (hc ▸ semicolon_mem)
      rw [read_atomChar hm hd] at h
      cases h
      simp [hc, hm]

theorem run_mode (h : run {} cs = .ok s) : s.mode = .comment ↔ EndsInComment cs := by
  induction cs using List.reverseRecOn generalizing s with
  | nil =>
      cases h
      exact iff_of_false nofun not_endsInComment_nil
  | append_singleton cs c ih =>
      rw [run_append] at h
      obtain ⟨u, hu, h⟩ := exists_of_bind_eq_ok h
      rw [run_cons] at h
      obtain ⟨t, ht, h⟩ := exists_of_bind_eq_ok h
      cases h
      rw [step_mode ht, ih hu, endsInComment_append_singleton]

theorem exists_run_of_prefix (h : run s cs = .ok t) (hp : before <+: cs) :
    ∃ u, run s before = .ok u := by
  obtain ⟨after, rfl⟩ := hp
  rw [run_append] at h
  obtain ⟨u, hu, -⟩ := exists_of_bind_eq_ok h
  exact ⟨u, hu⟩

theorem depth_endAtom (s : Scan) : Nest.depth s.endAtom.openings = Nest.depth s.openings := by
  rw [endAtom]
  cases s.mode with
  | gap | comment => rfl
  | atom latest => exact Nest.depth_deliver _ _ _

/-- A text that does not go wrong has as many parentheses open as the scan of it has lists. -/
theorem parenBalance_of_run (h : run {} cs = .ok s) :
    parenBalance (.ofList cs) = Nest.depth s.openings := by
  rw [parenBalance_eq, String.toList_ofList, ← tokens_of_run h, Nest.balance_tokens, depth_endAtom]

end Scan

/-- The count of parentheses is that of the places outside comments, whether or not the lines keep
the carriage returns at their ends. Where the scan of a text gets to its end, it stands in a comment
if the text ends in one, and the count is the number of the lists that are open. So the count is
zero for a text that can be read, and not negative for what such a text begins with; a text with a
positive count is refused for its nesting. -/
theorem parenBalance_spec (source : String) :
    let cs := source.toList
    let stripped := (endedLines '\n' '\r' cs).flatMap withoutComment
    parenBalance source = (countOutside '(' cs : Int) - (countOutside ')' cs : Int) ∧
    parenBalance source = (stripped.count '(' : Int) - (stripped.count ')' : Int) ∧
    (∀ s, Scan.run {} cs = .ok s →
      (s.mode = .comment ↔ EndsInComment cs) ∧ parenBalance source = Nest.depth s.openings) ∧
    (∀ ns, readAll source = .ok ns → parenBalance source = 0 ∧
      ∀ before, before <+: cs → 0 ≤ parenBalance (.ofList before)) ∧
    (0 < parenBalance source → ∃ p x, readAll source = .error (.unexpected p x)) := by
  intro cs stripped
  refine ⟨parenBalance_outside source, parenBalance_endedLines source,
    fun s hs => ⟨Scan.run_mode hs, ?_⟩, fun ns hns => ?_, fun hpos => ?_⟩
  · rw [← Scan.parenBalance_of_run hs, String.ofList_toList]
  · refine ⟨parenBalance_of_readAll hns, fun before hbefore => ?_⟩
    obtain ⟨fs, hfs, -⟩ := exists_of_bind_eq_ok hns
    obtain ⟨t, ht, -⟩ := exists_of_bind_eq_ok hfs
    obtain ⟨s, hs⟩ := Scan.exists_run_of_prefix ht hbefore
    rw [Scan.parenBalance_of_run hs]
    exact Int.natCast_nonneg _
  · refine readAll_unexpected_iff.2 fun ⟨fs, hfs⟩ => ?_
    rw [parenBalance_of_readForms (readForms_eq_ok_iff_parses.2 hfs)] at hpos
    exact absurd hpos (by decide)

theorem parenBalance_spec_comments :
    let source := "; (\r\n(a ;;)(\n 'b)\r;)"
    let unfinished := "(f (x);)\r;)"
    readAll source = .ok [.list [.symbol "a", .quoted (.symbol "b")]] ∧
      parenBalance source = 0 ∧ 0 ≤ parenBalance "; (\r\n(a ;;)(" ∧
    (∃ s, Scan.run {} unfinished.toList = .ok s ∧ EndsInComment unfinished.toList ∧
      parenBalance unfinished = Nest.depth s.openings ∧ 0 < Nest.depth s.openings) ∧
    ∃ p x, readAll unfinished = .error (.unexpected p x) := by
  intro source unfinished
  have hread : readAll source = .ok [.list [.symbol "a", .quoted (.symbol "b")]] := by
    decide +kernel
  have hprefix : "; (\r\n(a ;;)(".toList <+: source.toList := by decide +kernel
  obtain ⟨-, -, -, hbalanced, -⟩ := parenBalance_spec source
  obtain ⟨hzero, hnonneg⟩ := hbalanced _ hread
  obtain ⟨-, -, hscan, -, hpositive⟩ := parenBalance_spec unfinished
  have htext : unfinished.toList = ['(', 'f', ' ', '(', 'x', ')', ';', ')', '\r', ';', ')'] := by
    decide +kernel
  have hrun : Scan.run {} unfinished.toList = .ok ⟨⟨1, 12⟩, .comment, [.list []],
      [.list [.atom ['x']], .atom ['f']]⟩ := by
    rw [htext]
    rfl
  obtain ⟨hmode, hdepth⟩ := hscan _ hrun
  have hpos : 0 < parenBalance unfinished := by
    rw [hdepth]
    decide
  exact ⟨hread, hzero, hnonneg _ hprefix, ⟨_, hrun, hmode.1 rfl, hdepth, by decide⟩,
    hpositive hpos⟩

end SmallLisp
