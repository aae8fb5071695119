import SmallLisp.Proofs.Reader.Balance
import Mathlib.Data.List.Induction

namespace SmallLisp

def ReadError.OutOfRange (e : ReadError) : Prop :=
  ∃ token, e = .integerTooLarge token ∨ e = .integerTooSmall token

/-- A text that can be read, but for integers that may be out of range. -/
def WellFormed (source : String) : Prop :=
  (∃ ns, readAll source = .ok ns) ∨ ∃ e, readAll source = .error e ∧ e.OutOfRange

/-- The place behind `before`: its line is counted by line feeds, and its column by the characters
since the last of them. -/
structure Position.Ends (p : Position) (before : List Char) : Prop where
  line : p.line = 1 + before.count '\n'
  column : p.column = 1 + (before.reverse.takeWhile (· ≠ '\n')).length

theorem Position.ends_foldl (before : List Char) : (before.foldl next {}).Ends before := by
  induction before using List.reverseRecOn with
  | nil => exact ⟨rfl, rfl⟩
  | append_singleton before c ih =>
      obtain ⟨hline, hcolumn⟩ := ih
      rw [List.foldl_append]
      change (next _ c).Ends _
      rw [next]
      by_cases hc : c = '\n'
      · rw [if_pos hc]
        exact ⟨by simp [hline, hc]; omega, by simp [hc]⟩
      · rw [if_neg hc]
        exact ⟨by simp [hline, hc], by simp [hcolumn, hc]; omega⟩

theorem Position.Ends.eq_nil {p : Position} {before more : List Char} (h : p.Ends before)
    (h' : p.Ends (before ++ more)) : more = [] := by
  have hline := h.line.symm.trans h'.line
  have hcolumn := h.column.symm.trans h'.column
  rw [List.count_append] at hline
  have hnone : ∀ c ∈ more.reverse, decide (c ≠ '\n') := by
    have hcount : more.count '\n' = 0 := by omega
    intro c hc
    rw [decide_eq_true_eq]
    rintro rfl
    exact List.count_eq_zero.1 hcount (List.mem_reverse.1 hc)
  rw [List.reverse_append, List.takeWhile_append_of_pos hnone, List.length_append] at hcolumn
  exact List.length_eq_zero_iff.1 (by rw [← List.length_reverse]; omega)

theorem Position.Ends.unique {p : Position} {before before' cs : List Char} (h : p.Ends before)
    (h' : p.Ends before') (hp : before <+: cs) (hp' : before' <+: cs) : before = before' := by
  obtain ⟨more, rfl⟩ | ⟨more, rfl⟩ := List.prefix_or_prefix_of_prefix hp hp'
  · rw [h.eq_nil h', List.append_nil]
  · rw [h'.eq_nil h, List.append_nil]

theorem error_of_bind {ε α β : Type} {x : Except ε α} {f : α → Except ε β} {e : ε}
    (h : x >>= f = .error e) : x = .error e ∨ ∃ a, x = .ok a ∧ f a = .error e := by
  cases x with
  | error e' =>
      cases h
      exact .inl rfl
  | ok a => exact .inr ⟨a, rfl, h⟩

namespace Form

theorem error_of_atomNode {cs : List Char} {e : ReadError} (h : atomNode cs = .error e) :
    e.OutOfRange := by
  rw [atomNode] at h
  repeat' split at h
  all_goals cases h
  · exact ⟨_, .inr rfl⟩
  · exact ⟨_, .inl rfl⟩

mutual

theorem error_of_node : (f : Form) → {e : ReadError} → f.node = .error e → e.OutOfRange
  | .atom _, _, h => error_of_atomNode h
  | .list items, e, h => by
      obtain h | ⟨_, -, h⟩ := error_of_bind h
      · exact error_of_nodes items h
      · cases h
  | .quoted f, e, h => by
      obtain h | ⟨_, -, h⟩ := error_of_bind h
      · exact error_of_node f h
      · cases h

theorem error_of_nodes : (fs : List Form) → {e : ReadError} → nodes fs = .error e → e.OutOfRange
  | [], _, h => nomatch h
  | f :: fs, e, h => by
      obtain h | ⟨_, -, h⟩ := error_of_bind h
      · exact error_of_node f h
      · obtain h | ⟨_, -, h⟩ := error_of_bind h
        · exact error_of_nodes fs h
        · cases h

end

end Form

namespace Scan

variable {s t : Scan} {c : Char} {cs : List Char} {e : ReadError}

theorem endAtom_position (s : Scan) : s.endAtom.position = s.position := by
  rw [endAtom]
  cases s.mode <;> rfl

theorem step_position (h : s.step c = .ok t) : t.position = s.position.next c := by
  by_cases hm : s.mode = .comment
  · rw [step_comment hm] at h
    cases h
    rfl
  · rw [step_plain hm] at h
    cases hr : s.read c with
    | error e =>
        rw [hr] at h
        cases h
    | ok u =>
        rw [hr] at h
        cases h
        rfl

theorem run_position (h : s.run cs = .ok t) : t.position = cs.foldl Position.next s.position := by
  induction cs generalizing s with
  | nil =>
      cases h
      rfl
  | cons c cs ih =>
      cases hs : s.step c with
      | error e =>
          rw [run, List.foldlM_cons, hs] at h
          cases h
      | ok u =>
          rw [run, List.foldlM_cons, hs] at h
          rw [ih h, step_position hs, List.foldl_cons]

theorem closeList_error (h : s.closeList = .error e) : ∃ x, e = .unexpected s.position x := by
  rw [closeList] at h
  split at h <;> cases h
  · exact ⟨_, rfl⟩
  · exact ⟨_, rfl⟩

theorem read_error (h : s.read c = .error e) : c = ')' ∧ ∃ x, e = .unexpected s.position x := by
  by_cases hc : c = ')'
  · subst hc
    obtain ⟨x, hx⟩ := closeList_error (s := s.endAtom) h
    exact ⟨rfl, x, s.endAtom_position ▸ hx⟩
  · rw [read] at h
    repeat' split at h
    all_goals cases h

theorem step_error (h : s.step c = .error e) : c = ')' ∧ ∃ x, e = .unexpected s.position x := by
  by_cases hm : s.mode = .comment
  · rw [step_comment hm] at h
    cases h
  · rw [step_plain hm] at h
    cases hr : s.read c with
    | ok u =>
        rw [hr] at h
        cases h
    | error e' =>
        rw [hr] at h
        cases h
        exact read_error hr

theorem run_cons (s : Scan) (c : Char) (cs : List Char) :
    s.run (c :: cs) = s.step c >>= (run · cs) := rfl

theorem run_append (s : Scan) (cs ds : List Char) :
    s.run (cs ++ ds) = s.run cs >>= (run · ds) := List.foldlM_append

/-- A text that goes wrong does so at a parenthesis behind the longest beginning that does not. -/
theorem exists_closing (h : s.run cs = .error e) :
    ∃ before after t, cs = before ++ ')' :: after ∧ s.run before = .ok t ∧
      t.step ')' = .error e ∧ ∃ x, e = .unexpected t.position x := by
  induction cs generalizing s with
  | nil => cases h
  | cons c cs ih =>
      cases hs : s.step c with
      | error e' =>
          rw [run_cons, hs] at h
          cases h
          obtain ⟨rfl, hx⟩ := step_error hs
          exact ⟨[], cs, s, rfl, rfl, hs, hx⟩
      | ok u =>
          rw [run_cons, hs] at h
          obtain ⟨before, after, t, rfl, ht, herror⟩ := ih h
          refine ⟨c :: before, after, t, rfl, ?_, herror⟩
          rw [run_cons, hs]
          exact ht

end Scan

namespace Nest

theorem length_deliver (os : List Opening) (fs : List Form) (f : Form) :
    (Scan.deliver os fs f).1.length ≤ os.length := by
  fun_induction Scan.deliver os fs f with
  | case1 os fs f ih => exact Nat.le_succ_of_le ih
  | case2 => exact Nat.le_refl _

/-- Whatever has been begun can be finished. -/
theorem exists_completion (os : List Opening) (fs : List Form) :
    ∃ cs gs, feedAll (os, fs) (lex .gap cs) = some ([], gs) := by
  -- on the length, since a form that is finished may be the operand of several quotes
  induction hn : os.length using Nat.strongRecOn generalizing os fs with
  | ind n ih =>
      subst hn
      cases os with
      | nil => exact ⟨[], fs, rfl⟩
      | cons o os =>
          cases o with
          | quote =>
              have hlt := Nat.lt_succ_of_le (length_deliver os fs (.quoted (.list [])))
              obtain ⟨cs, gs, h⟩ := ih _ hlt _ _ rfl
              exact ⟨'(' :: ')' :: cs, gs, h⟩
          | list before =>
              have hlt := Nat.lt_succ_of_le (length_deliver os before (.list fs.reverse))
              obtain ⟨cs, gs, h⟩ := ih _ hlt _ _ rfl
              exact ⟨')' :: cs, gs, h⟩

end Nest

theorem Scan.exists_continuation {s t : Scan} {cs : List Char} (h : s.run cs = .ok t) :
    ∃ more fs, (s.run (cs ++ more) >>= finish) = .ok fs := by
  obtain ⟨more, fs, hmore⟩ := Nest.exists_completion t.endAtom.openings t.endAtom.forms
  refine ⟨'\n' :: more, fs.reverse, ?_⟩
  rw [run_append, h]
  change (t.run ('\n' :: more) >>= finish) = _
  have hlex : lex t.mode ('\n' :: more) = t.mode.pending ++ lex .gap more := lex_newline t.mode [] more
  rw [run_finish_eq_ok_iff, hlex, Nest.feedAll_append, feedAll_pending, Option.bind_some,
    List.reverse_reverse]
  exact hmore

theorem Scan.finish_error {s : Scan} {e : ReadError} (h : s.finish = .error e) :
    s.endAtom.openings ≠ [] ∧ e = .unexpected s.position .form := by
  rw [finish] at h
  split at h
  · cases h
  · next hos =>
      cases h
      exact ⟨fun hnil => hos (by rw [hnil]; rfl), by rw [s.endAtom_position]⟩

/-- A list is open, or a quote waits for its operand. -/
def Unfinished (cs : List Char) : Prop :=
  0 < balance (lex .gap cs) ∨ (lex .gap cs).getLast? = some .quote

theorem Scan.tokens_of_run {s : Scan} {cs : List Char} (h : run {} cs = .ok s) :
    Nest.tokens s.endAtom.openings s.endAtom.forms = lex .gap cs := by
  have hfeed : Nest.feedAll ([], []) (lex .gap cs) = some s.endAtom.nest := by
    rw [show Nest.feedAll ([], []) (lex .gap cs) = _ from feedAll_lex {} cs, h]
    rfl
  exact Nest.tokens_feedAll hfeed

theorem Scan.unfinished {s : Scan} {cs : List Char} (h : run {} cs = .ok s)
    (hos : s.endAtom.openings ≠ []) : Unfinished cs := by
  rw [Unfinished, ← tokens_of_run h]
  -- the innermost opening is a quote, which came last, or a list, which counts for the balance
  cases ho : s.endAtom.openings with
  | nil => exact absurd ho hos
  | cons o os =>
      cases o with
      | quote => exact .inr (by rw [Nest.tokens, List.getLast?_concat])
      | list before =>
          rw [Nest.balance_tokens, Nest.depth, List.countP_cons_of_pos rfl]
          exact .inl (Int.natCast_pos.2 (Nat.succ_pos _))

/-- The beginning of a text up to where it goes wrong, and the scan of it. -/
structure GoesWrong (before after : List Char) (s : Scan) (e : ReadError) : Prop where
  scan : Scan.run {} before = .ok s
  place : ∃ x, e = .unexpected s.position x
  closing : ∀ c rest, after = c :: rest → c = ')' ∧ s.step ')' = .error e
  unfinished : after = [] → Unfinished before

theorem goesWrong_of_error {source : String} {e : ReadError} (h : readForms source = .error e) :
    ∃ before after s, source.toList = before ++ after ∧ GoesWrong before after s e := by
  change Scan.run {} source.toList >>= Scan.finish = .error e at h
  cases hrun : Scan.run {} source.toList with
  | error e' =>
      rw [hrun] at h
      cases h
      obtain ⟨before, after, s, htext, hs, hstep, hx⟩ := Scan.exists_closing hrun
      refine ⟨before, ')' :: after, s, htext, hs, hx, ?_, nofun⟩
      rintro _ _ ⟨⟩
      exact ⟨rfl, hstep⟩
  | ok s =>
      rw [hrun] at h
      obtain ⟨hos, he⟩ := Scan.finish_error h
      exact ⟨source.toList, [], s, (List.append_nil _).symm, hrun, ⟨_, he⟩, nofun,
        fun _ => Scan.unfinished hrun hos⟩

theorem wellFormed_iff {source : String} : WellFormed source ↔ ∃ fs, readForms source = .ok fs := by
  cases h : readForms source with
  | ok fs =>
      have hread : readAll source = Form.nodes fs := by rw [readAll, h]; rfl
      refine ⟨fun _ => ⟨fs, rfl⟩, fun _ => ?_⟩
      rw [WellFormed, hread]
      cases hns : Form.nodes fs with
      | ok ns => exact .inl ⟨ns, rfl⟩
      | error e => exact .inr ⟨e, rfl, Form.error_of_nodes fs hns⟩
  | error e =>
      have hread : readAll source = .error e := by rw [readAll, h]; rfl
      obtain ⟨before, after, s, -, -, ⟨x, rfl⟩, -, -⟩ := goesWrong_of_error h
      constructor
      · rintro (⟨ns, hns⟩ | ⟨e, he, token, ht | ht⟩)
        · rw [hread] at hns
          cases hns
        · rw [hread, ht] at he
          cases he
        · rw [hread, ht] at he
          cases he
      · rintro ⟨fs, hfs⟩
        cases hfs

theorem GoesWrong.exists_wellFormed {before after : List Char} {s : Scan} {e : ReadError}
    (h : GoesWrong before after s e) : ∃ more, WellFormed (.ofList (before ++ more)) := by
  obtain ⟨more, fs, hfs⟩ := Scan.exists_continuation h.scan
  refine ⟨more, wellFormed_iff.2 ⟨fs, ?_⟩⟩
  rw [readForms, String.toList_ofList]
  exact hfs

theorem GoesWrong.not_wellFormed {before rest : List Char} {c : Char} {s : Scan} {e : ReadError}
    (h : GoesWrong before (c :: rest) s e) (more : List Char) :
    ¬ WellFormed (.ofList (before ++ c :: more)) := by
  obtain ⟨rfl, hstep⟩ := h.closing c rest rfl
  rw [wellFormed_iff, readForms, String.toList_ofList, Scan.run_append, h.scan]
  rintro ⟨fs, hfs⟩
  change (s.run (')' :: more) >>= Scan.finish) = .ok fs at hfs
  rw [Scan.run_cons, hstep] at hfs
  cases hfs

/-- A text that is not well formed goes wrong at the end of its longest beginning that a well-formed
text goes on from. The next character, if there is one, is a closing parenthesis, with which no
well-formed text goes on. -/
theorem position_of_error {source : String} (h : ¬ WellFormed source) :
    ∃ p x, readAll source = .error (.unexpected p x) ∧
      (∃ before, before <+: source.toList ∧ p.Ends before) ∧
      ∀ before after, source.toList = before ++ after → p.Ends before →
        (∃ more, WellFormed (.ofList (before ++ more))) ∧
        (∀ c rest, after = c :: rest →
          c = ')' ∧ ∀ more, ¬ WellFormed (.ofList (before ++ c :: more))) ∧
        (after = [] → Unfinished source.toList) := by
  cases hforms : readForms source with
  | ok fs => exact absurd (wellFormed_iff.2 ⟨fs, hforms⟩) h
  | error e =>
      obtain ⟨before, after, s, htext, hwrong⟩ := goesWrong_of_error hforms
      obtain ⟨x, rfl⟩ := hwrong.place
      have hends : s.position.Ends before := by
        rw [Scan.run_position hwrong.scan]
        exact Position.ends_foldl before
      have hprefix : before <+: source.toList := ⟨after, htext.symm⟩
      refine ⟨s.position, x, by rw [readAll, hforms]; rfl, ⟨before, hprefix, hends⟩, ?_⟩
      intro before' after' htext' hends'
      obtain rfl : before = before' := hends.unique hends' hprefix ⟨after', htext'.symm⟩
      obtain rfl : after = after' := List.append_cancel_left (htext.symm.trans htext')
      refine ⟨hwrong.exists_wellFormed, ?_, fun hnil => ?_⟩
      · rintro c rest rfl
        exact ⟨(hwrong.closing c rest rfl).1, hwrong.not_wellFormed⟩
      · rw [htext, hnil, List.append_nil]
        exact hwrong.unfinished hnil

theorem position_of_error_quote :
    let source := "(é ; (\n ')"
    let before := "(é ; (\n '".toList
    ¬ WellFormed source ∧ readAll source = .error (.unexpected ⟨2, 3⟩ .form) ∧
      (∃ more, WellFormed (.ofList (before ++ more))) ∧
      ∀ more, ¬ WellFormed (.ofList (before ++ ')' :: more)) := by
  intro source before
  have hread : readAll source = .error (.unexpected ⟨2, 3⟩ .form) := by decide +kernel
  have h : ¬ WellFormed source := by
    rintro (⟨ns, hns⟩ | ⟨e, he, token, ht | ht⟩)
    · rw [hread] at hns
      cases hns
    · rw [hread, ht] at he
      cases he
    · rw [hread, ht] at he
      cases he
  obtain ⟨p, x, hp, -, hall⟩ := position_of_error h
  rw [hread] at hp
  cases hp
  obtain ⟨hmore, hclosing, -⟩ := hall before [')'] (by decide +kernel) ⟨by decide, by decide⟩
  exact ⟨h, hread, hmore, (hclosing ')' [] rfl).2⟩

end SmallLisp
