import SmallLisp.Proofs.Reader.Balance
import Mathlib.Data.List.Induction

namespace SmallLisp

/-- A line ends where a quote outside all parentheses waits for its operand. -/
def SplitQuote (cs : List Char) : Prop :=
  ∃ before after, cs = before ++ '\n' :: after ∧ balance (lex .gap before) = 0 ∧
    (lex .gap before).getLast? = some .quote

theorem splitQuote_iff {cs : List Char} :
    SplitQuote cs ↔ ∃ i < cs.length, cs[i]? = some '\n' ∧ balance (lex .gap (cs.take i)) = 0 ∧
      (lex .gap (cs.take i)).getLast? = some .quote := by
  constructor
  · rintro ⟨before, after, rfl, hb, hq⟩
    exact ⟨before.length, by simp, by simp, by simpa using hb, by simpa using hq⟩
  · rintro ⟨i, hi, hc, hb, hq⟩
    refine ⟨cs.take i, cs.drop (i + 1), ?_, hb, hq⟩
    rw [← (List.getElem?_eq_some_iff.1 hc).2, List.getElem_cons_drop, List.take_append_drop]

instance (cs : List Char) : Decidable (SplitQuote cs) := decidable_of_iff _ splitQuote_iff.symm

theorem SplitQuote.newline {cs rest : List Char} (h : SplitQuote rest)
    (hb : balance (lex .gap cs) = 0) : SplitQuote (cs ++ '\n' :: rest) := by
  obtain ⟨before, after, rfl, hbefore, hquote⟩ := h
  refine ⟨cs ++ '\n' :: before, after, by simp, ?_, ?_⟩
  · rw [lex_newline, balance_append, hb, hbefore]
    rfl
  · rw [lex_newline, List.getLast?_append, hquote]
    rfl

theorem lex_of_separators {cs : List Char} (h : ∀ c ∈ cs, isSeparator c) : lex .gap cs = [] := by
  have hskip : Skipped cs := by
    induction cs with
    | nil => exact .nil
    | cons c cs ih =>
        obtain ⟨hc, hcs⟩ := List.forall_mem_cons.1 h
        exact .separator (isSeparator_iff.1 hc) (ih hcs)
  exact lex_trailing (.skipped hskip)

theorem intercalate_joined (p l : List Char) (ls : List (List Char)) :
    ['\n'].intercalate ((p ++ '\n' :: l) :: ls) = ['\n'].intercalate (p :: l :: ls) := by
  cases ls with
  | nil => simp
  | cons k ls => simp [List.intercalate_cons_cons]

inductive BufferStep where
  | push (line : String)
  | discard

namespace InputBuffer

def after (b : InputBuffer) (steps : List BufferStep) : InputBuffer :=
  steps.foldl (fun b step => match step with | .push line => (b.push line).2 | .discard => b.discard) b

/-- `lines` are the last steps, and the buffer has not been empty since the first of them. -/
def Collected (steps : List BufferStep) (lines : List String) : Prop :=
  ∃ before, steps = before ++ lines.map .push ∧ (after {} before).isEmpty ∧
    ∀ l₁ l₂, lines = l₁ ++ l₂ → l₁ ≠ [] → ¬ (after {} (before ++ l₁.map .push)).isEmpty

/-- The inputs that are handed out as lines are pushed, and the buffer after them. -/
def pushAll (b : InputBuffer) : List String → List String × InputBuffer
  | [] => ([], b)
  | line :: lines =>
      let (input, b) := b.push line
      let (inputs, b) := b.pushAll lines
      (input.toList ++ inputs, b)

def text (b : InputBuffer) (lines : List (List Char)) : List Char :=
  ['\n'].intercalate (if b.isEmpty then lines else b.pending.toList :: lines)

theorem isEmpty_iff (b : InputBuffer) : b.isEmpty ↔ b.pending = "" := by
  rw [isEmpty, String.isEmpty_iff]

theorem push_of_pos {b : InputBuffer} {line : String} (h : 0 < parenBalance (b.joined line)) :
    b.push line = (none, ⟨b.joined line⟩) := by
  rw [push, if_pos h]

theorem push_of_not_pos {b : InputBuffer} {line : String} (h : ¬ 0 < parenBalance (b.joined line)) :
    b.push line = (if isBlankText (b.joined line) then none else some (b.joined line), {}) := by
  rw [push, if_neg h]

theorem ne_empty_of_pos {text : String} (h : 0 < parenBalance text) : text ≠ "" := by
  rintro rfl
  exact absurd h (by decide)

theorem after_append (steps : List BufferStep) (step : BufferStep) :
    after {} (steps ++ [step]) = after (after {} steps) [step] := by
  rw [after, List.foldl_append]
  rfl

theorem Collected.single {steps : List BufferStep} (h : (after {} steps).isEmpty) {line : String}
    (hne : ¬ (after {} (steps ++ [.push line])).isEmpty) :
    Collected (steps ++ [.push line]) [line] := by
  refine ⟨steps, rfl, h, fun l₁ l₂ hl hl₁ => ?_⟩
  obtain ⟨rfl, -⟩ | ⟨rfl, -⟩ := List.singleton_eq_append_iff.1 hl
  · exact absurd rfl hl₁
  · exact hne

theorem Collected.push {steps : List BufferStep} {lines : List String} (h : Collected steps lines)
    {line : String} (hne : ¬ (after {} (steps ++ [.push line])).isEmpty) :
    Collected (steps ++ [.push line]) (lines ++ [line]) := by
  obtain ⟨before, rfl, hempty, hlines⟩ := h
  refine ⟨before, by simp, hempty, fun l₁ l₂ hl hl₁ => ?_⟩
  cases l₂ using List.reverseRecOn with
  | nil =>
      rw [List.append_nil] at hl
      subst hl
      simpa using hne
  | append_singleton l₂ _ =>
      rw [← List.append_assoc] at hl
      exact hlines l₁ l₂ (List.append_inj' hl rfl).1 hl₁

theorem pending_after (steps : List BufferStep) :
    (after {} steps).pending = "" ∨
      ∃ lines, Collected steps lines ∧ (after {} steps).pending = "\n".intercalate lines ∧
        0 < parenBalance (after {} steps).pending := by
  induction steps using List.reverseRecOn with
  | nil => exact .inl rfl
  | append_singleton steps step ih =>
      cases step with
      | discard => exact .inl (by rw [after_append]; rfl)
      | push line =>
          have hpush : after {} (steps ++ [.push line]) = ((after {} steps).push line).2 :=
            after_append steps _
          by_cases hb : 0 < parenBalance ((after {} steps).joined line)
          · rw [push_of_pos hb] at hpush
            have hne : ¬ (after {} (steps ++ [.push line])).isEmpty := by
              rw [isEmpty_iff, hpush]
              exact ne_empty_of_pos hb
            right
            by_cases hempty : (after {} steps).isEmpty
            · rw [joined, if_pos hempty] at hpush hb
              exact ⟨[line], .single hempty hne, by rw [hpush, String.intercalate_singleton],
                by rwa [hpush]⟩
            · rw [joined, if_neg hempty] at hpush hb
              obtain hnil | ⟨lines, hlines, htext, -⟩ := ih
              · exact absurd ((isEmpty_iff _).2 hnil) hempty
              · have hne' : lines ≠ [] := by
                  rintro rfl
                  exact hempty ((isEmpty_iff _).2 htext)
                refine ⟨lines ++ [line], hlines.push hne, ?_, by rwa [hpush]⟩
                rw [hpush, String.intercalate_append_of_ne_nil hne' (List.cons_ne_nil line []), ← htext,
                  String.intercalate_singleton]
          · rw [push_of_not_pos hb] at hpush
            exact .inl (by rw [hpush])

theorem joined_toList (b : InputBuffer) (l : List Char) :
    (b.joined (String.ofList l)).toList =
      if b.isEmpty then l else b.pending.toList ++ '\n' :: l := by
  by_cases hb : b.isEmpty
  · rw [joined, if_pos hb, if_pos hb, String.toList_ofList]
  · rw [joined, if_neg hb, if_neg hb]
    simp

theorem text_cons (b : InputBuffer) (l : List Char) (ls : List (List Char)) :
    b.text (l :: ls) = ['\n'].intercalate ((b.joined (String.ofList l)).toList :: ls) := by
  rw [text, joined_toList]
  by_cases hb : b.isEmpty
  · rw [if_pos hb, if_pos hb]
  · rw [if_neg hb, if_neg hb, intercalate_joined]

theorem text_of_ne {t : String} (h : t ≠ "") (ls : List (List Char)) :
    text ⟨t⟩ ls = ['\n'].intercalate (t.toList :: ls) := by
  rw [text, if_neg]
  rwa [isEmpty_iff]

theorem exists_cut_of_lines {t : List Char} {ls : List (List Char)} {fs : List Form}
    (hlex : lex .gap (['\n'].intercalate (t :: ls)) = Form.tokensAll fs)
    (hquote : ¬ SplitQuote (['\n'].intercalate (t :: ls))) (hb : ¬ 0 < balance (lex .gap t)) :
    ∃ gs hs, fs = gs ++ hs ∧ lex .gap t = Form.tokensAll gs ∧
      lex .gap (['\n'].intercalate ls) = Form.tokensAll hs ∧
      ¬ SplitQuote (['\n'].intercalate ls) := by
  cases ls with
  | nil =>
      rw [List.intercalate_singleton] at hlex
      refine ⟨fs, [], (List.append_nil fs).symm, hlex, rfl, ?_⟩
      rintro ⟨before, after, h, -⟩
      exact List.append_ne_nil_of_right_ne_nil _ (List.cons_ne_nil _ _) h.symm
  | cons l ls =>
      rw [List.intercalate_cons_cons, List.append_assoc, List.singleton_append] at hlex hquote
      rw [lex_newline] at hlex
      have hzero : balance (lex .gap t) = 0 := by
        have hnonneg := Nest.balance_nonneg hlex.symm
        omega
      have hlast : (lex .gap t).getLast? ≠ some .quote := fun h => hquote ⟨t, _, rfl, hzero, h⟩
      obtain ⟨gs, hs, hfs, hgs, hhs⟩ := Form.exists_cut hlex.symm hzero hlast
      exact ⟨gs, hs, hfs, hgs, hhs, fun h => hquote (h.newline hzero)⟩

theorem forall_mem_of_intercalate_cons {p : Char → Prop} {t : List Char} {ls : List (List Char)}
    (h : ∀ c ∈ ['\n'].intercalate (t :: ls), p c) :
    (∀ c ∈ t, p c) ∧ ∀ c ∈ ['\n'].intercalate ls, p c := by
  cases ls with
  | nil => simpa using h
  | cons l ls =>
      rw [List.intercalate_cons_cons, List.forall_mem_append, List.forall_mem_append] at h
      exact ⟨h.1.1, h.2⟩

/-- The inputs that are handed out for lines have the forms of the text. -/
theorem pushAll_lines {ls : List (List Char)} {b : InputBuffer} {fs : List Form}
    (hb : b.isEmpty ∨ 0 < parenBalance b.pending)
    (hlex : lex .gap (b.text ls) = Form.tokensAll fs) (hquote : ¬ SplitQuote (b.text ls))
    (hblank : ∀ c ∈ b.text ls, Text.isBlank c → isSeparator c) :
    (b.pushAll (ls.map String.ofList)).2 = {} ∧
      ∃ parts, List.Forall₂ (fun input gs => readForms input = .ok gs)
        (b.pushAll (ls.map String.ofList)).1 parts ∧ parts.flatten = fs := by
  induction ls generalizing b fs with
  | nil =>
      obtain hb | hb := hb
      · rw [text, if_pos hb] at hlex
        cases fs with
        | nil => exact ⟨congrArg mk ((isEmpty_iff b).1 hb), [], .nil, rfl⟩
        | cons f fs =>
            exact absurd hlex.symm (List.append_ne_nil_of_left_ne_nil f.tokens_ne_nil _)
      · have htext : b.text [] = b.pending.toList := by
          rw [text_of_ne (ne_empty_of_pos hb), List.intercalate_singleton]
        rw [parenBalance_eq, ← htext, hlex, Form.balance_tokensAll] at hb
        exact absurd hb (by decide)
  | cons l ls ih =>
      rw [text_cons] at hlex hquote hblank
      rw [List.map_cons, pushAll]
      by_cases hpos : 0 < parenBalance (b.joined (String.ofList l))
      · rw [← text_of_ne (ne_empty_of_pos hpos)] at hlex hquote hblank
        rw [push_of_pos hpos]
        exact ih (.inr hpos) hlex hquote hblank
      · rw [push_of_not_pos hpos]
        rw [parenBalance_eq] at hpos
        -- the lines so far have forms of their own, or none where they are blank
        obtain ⟨gs, hs, rfl, hgs, hhs, hquote⟩ := exists_cut_of_lines hlex hquote hpos
        obtain ⟨hblank, hrest⟩ := forall_mem_of_intercalate_cons hblank
        obtain ⟨hend, parts, hparts, rfl⟩ := ih (b := {}) (.inl rfl) hhs hquote hrest
        by_cases htext : isBlankText (b.joined (String.ofList l))
        · have hnil : lex .gap (b.joined (String.ofList l)).toList = [] :=
            lex_of_separators fun c hc => hblank c hc (List.all_eq_true.1 htext c hc)
          rw [hnil] at hgs
          cases gs with
          | nil =>
              rw [if_pos htext]
              exact ⟨hend, parts, hparts, rfl⟩
          | cons g gs =>
              exact absurd hgs.symm (List.append_ne_nil_of_left_ne_nil g.tokens_ne_nil _)
        · rw [if_neg htext]
          exact ⟨hend, gs :: parts, .cons (readForms_eq_ok_iff.2 hgs) hparts, rfl⟩

theorem exists_readings {inputs : List String} {parts : List (List Form)} {ns : List Node}
    (h : List.Forall₂ (fun input gs => readForms input = .ok gs) inputs parts)
    (hns : Form.nodes parts.flatten = .ok ns) :
    ∃ readings, List.Forall₂ (fun input ms => readAll input = .ok ms) inputs readings ∧
      readings.flatten = ns := by
  induction h generalizing ns with
  | nil =>
      cases hns
      exact ⟨[], .nil, rfl⟩
  | cons h _ ih =>
      rw [List.flatten_cons] at hns
      obtain ⟨ms, ks, hms, hks, rfl⟩ := Form.nodes_append_eq_ok_iff.1 hns
      obtain ⟨readings, hreadings, rfl⟩ := ih hks
      exact ⟨ms :: readings, .cons (readAll_iff_forms.2 ⟨_, h, hms⟩) hreadings, rfl⟩

end InputBuffer

/-- The text that a buffer holds is that of the lines pushed since it was last empty, and has a
parenthesis open, so it cannot be read. Pushing the lines of a text that can be read hands out inputs
that are read, one after the other, as the text is, if the text has no white space but separators and
no line of it ends behind a quote that waits, outside all parentheses, for its operand. -/
theorem buffer_reads :
    (∀ steps, let pending := (InputBuffer.after {} steps).pending
      pending = "" ∨
        (∃ lines, InputBuffer.Collected steps lines ∧ pending = "\n".intercalate lines) ∧
        0 < parenBalance pending ∧ ∀ ns, readAll pending ≠ .ok ns) ∧
    (∀ source ns, readAll source = .ok ns →
      (∀ c ∈ source.toList, Text.isBlank c → c ∈ [' ', '\t', '\r', '\n']) →
      ¬ SplitQuote source.toList →
      let pushed := InputBuffer.pushAll {} ((Text.lines source.toList).map String.ofList)
      pushed.2 = {} ∧
        ∃ readings, List.Forall₂ (fun input ms => readAll input = .ok ms) pushed.1 readings ∧
          readings.flatten = ns) := by
  constructor
  · intro steps
    obtain hnil | ⟨lines, hlines, htext, hpos⟩ := InputBuffer.pending_after steps
    · exact .inl hnil
    · refine .inr ⟨⟨lines, hlines, htext⟩, hpos, fun ns hns => ?_⟩
      rw [parenBalance_of_readAll hns] at hpos
      exact absurd hpos (by decide)
  · intro source ns h hblank hquote
    obtain ⟨fs, hfs, hns⟩ := readAll_iff_forms.1 h
    have htext : InputBuffer.text {} (Text.lines source.toList) = source.toList :=
      Text.intercalate_pieces '\n' source.toList
    have hseparator : ∀ c ∈ source.toList, Text.isBlank c → isSeparator c := by
      intro c hc hb
      simpa [isSeparator, or_assoc] using hblank c hc hb
    rw [readForms_eq_ok_iff] at hfs
    rw [← htext] at hfs hquote hseparator
    obtain ⟨hend, parts, hparts, rfl⟩ := InputBuffer.pushAll_lines (.inl rfl) hfs hquote hseparator
    exact ⟨hend, InputBuffer.exists_readings hparts hns⟩

theorem buffer_reads_two_forms :
    let source := "; (\r\n('\n a) 'b (\nc ;)\n)\n"
    let ns : List Node := [.list [.quoted (.symbol "a")], .quoted (.symbol "b"), .list [.symbol "c"]]
    readAll source = .ok ns ∧ ¬ SplitQuote source.toList ∧
      InputBuffer.pushAll {} ((Text.lines source.toList).map String.ofList) =
        (["; (\r", "('\n a) 'b (\nc ;)\n)"], {}) ∧
      ∃ readings, List.Forall₂ (fun input ms => readAll input = .ok ms)
        ["; (\r", "('\n a) 'b (\nc ;)\n)"] readings ∧ readings.flatten = ns := by
  intro source ns
  have h : readAll source = .ok ns := by decide +kernel
  have hall : source.toList.all fun c => Text.isBlank c → c ∈ [' ', '\t', '\r', '\n'] := by
    decide +kernel
  have hblank : ∀ c ∈ source.toList, Text.isBlank c → c ∈ [' ', '\t', '\r', '\n'] :=
    fun c hc => of_decide_eq_true (List.all_eq_true.1 hall c hc)
  have hquote : ¬ SplitQuote source.toList := by decide +kernel
  have hpush : InputBuffer.pushAll {} ((Text.lines source.toList).map String.ofList) =
      (["; (\r", "('\n a) 'b (\nc ;)\n)"], {}) := by decide +kernel
  obtain ⟨-, hreads⟩ := buffer_reads.2 source ns h hblank hquote
  rw [hpush] at hreads
  exact ⟨h, hquote, hpush, hreads⟩

end SmallLisp
