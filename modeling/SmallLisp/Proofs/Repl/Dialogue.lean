import SmallLisp.Proofs.CommandLine
import SmallLisp.Proofs.Repl.Lines
import SmallLisp.Proofs.Session

namespace SmallLisp

def isControl (c : Char) : Bool := c.toNat < 0x20 || (0x7f ≤ c.toNat && c.toNat < 0xa0)

/-- A line begins with a colon, but for white space, where no parenthesis is open. -/
def HasCommand (cs : List Char) : Prop :=
  ∃ before line after, Text.lines cs = before ++ line :: after ∧
    balance (before.flatMap (lex .gap)) = 0 ∧ (Text.trim line).head? = some ':'

theorem hasCommand_iff {cs : List Char} :
    HasCommand cs ↔ ∃ i < (Text.lines cs).length,
      balance (((Text.lines cs).take i).flatMap (lex .gap)) = 0 ∧
        (Text.lines cs)[i]?.bind (fun line => (Text.trim line).head?) = some ':' := by
  constructor
  · rintro ⟨before, line, after, hlines, hb, hhead⟩
    rw [hlines]
    exact ⟨before.length, by simp, by simpa using hb, by simpa using hhead⟩
  · rintro ⟨i, hi, hb, hhead⟩
    rw [List.getElem?_eq_getElem hi] at hhead
    refine ⟨(Text.lines cs).take i, (Text.lines cs)[i], (Text.lines cs).drop (i + 1), ?_, hb, hhead⟩
    rw [List.getElem_cons_drop, List.take_append_drop]

instance (cs : List Char) : Decidable (HasCommand cs) := decidable_of_iff _ hasCommand_iff.symm

def greenLine (text : String) : String := "\x1b[32m" ++ text ++ "\x1b[0m\n"

def emptyLine : String := "\x1b[31mParse error: Empty input: expected an expression\x1b[0m\n"

/-- The line that is shown for an input: an error only if it holds nothing but comments. -/
inductive Shows (input : String) : String → Prop
  | comments (h : Trailing input.toList) : Shows input emptyLine
  | value (h : ¬ Trailing input.toList) (text : String) : Shows input (greenLine text)

def Reply.ofResult : Except SessionError Value → Reply
  | .ok v => .value v.text
  | .error e => .failure e.message

def Session.answers (s : Session) : List String → List Reply
  | [] => []
  | input :: inputs => .ofResult (s.interpret input).1 :: (s.interpret input).2.answers inputs

theorem Reply.ofResult_ne (x : Except SessionError Value) :
    ofResult x ≠ .silence ∧ ofResult x ≠ .farewell := by
  cases x <;> exact ⟨nofun, nofun⟩

theorem Reply.join_text (replies : List Reply) :
    String.join (replies.map text) = String.join ((replies.filter (· ≠ .silence)).map text) := by
  induction replies with
  | nil => rfl
  | cons reply replies ih =>
      rw [List.map_cons, String.join_cons, ih]
      by_cases h : reply = .silence
      · rw [List.filter_cons_of_neg (by simpa using h), h]
        exact String.empty_append
      · rw [List.filter_cons_of_pos (by simpa using h), List.map_cons, String.join_cons]

theorem Reply.text_value (text : String) : (Reply.value text).text = greenLine text := by
  rw [greenLine, show "\x1b[0m\n" = "\x1b[0m" ++ "\n" by decide, ← String.append_assoc]
  rfl

theorem Reply.text_empty : (Reply.failure (SessionError.read .empty).message).text = emptyLine := by
  decide

namespace Repl

theorem feed_of_none {r : Repl} {line : String} {b : InputBuffer}
    (hcommand : r.buffer.isEmpty → (Text.trim line.toList).head? ≠ some ':')
    (hpush : r.buffer.push line = (none, b)) : r.feed line = (.silence, ⟨r.session, b⟩) := by
  have hif : ¬ (r.buffer.isEmpty && (Text.trim line.toList).head? = some ':') := by
    simpa using hcommand
  rw [feed, if_neg hif, hpush]

theorem feed_of_some {r : Repl} {line input : String} {b : InputBuffer}
    (hcommand : r.buffer.isEmpty → (Text.trim line.toList).head? ≠ some ':')
    (hpush : r.buffer.push line = (some input, b)) :
    r.feed line = (.ofResult (r.session.interpret input).1, ⟨(r.session.interpret input).2, b⟩) := by
  have hif : ¬ (r.buffer.isEmpty && (Text.trim line.toList).head? = some ':') := by
    simpa using hcommand
  rw [feed, if_neg hif, hpush]
  rcases hinput : r.session.interpret input with ⟨_ | _, s⟩ <;> simp only [hinput, Reply.ofResult]

theorem replies_cons {r r' : Repl} {line : String} {reply : Reply}
    (h : r.feed line = (reply, r')) (hne : reply ≠ .farewell)
    (rest : List (Except FileError String)) :
    r.replies (.ok line :: rest) = (reply :: (r'.replies rest).1, (r'.replies rest).2) := by
  simp only [replies, h]

/-- Lines of which none is a command are answered as the inputs that the buffer hands out for
them. -/
theorem replies_of_lines {r : Repl} {lines : List String}
    (hcommand : ∀ before line after, lines = before ++ line :: after →
      (r.buffer.pushAll before).2.isEmpty → (Text.trim line.toList).head? ≠ some ':') :
    (r.replies (lines.map .ok)).2 = none ∧
      (r.replies (lines.map .ok)).1.filter (· ≠ .silence) =
        r.session.answers (r.buffer.pushAll lines).1 ++ [.farewell] := by
  induction lines generalizing r with
  | nil => exact ⟨rfl, rfl⟩
  | cons line lines ih =>
      have hfirst := hcommand [] line lines rfl
      have hrest {b : InputBuffer} {x : Option String} (hpush : r.buffer.push line = (x, b)) :
          ∀ before line' after, lines = before ++ line' :: after →
            (b.pushAll before).2.isEmpty → (Text.trim line'.toList).head? ≠ some ':' := by
        rintro before line' after rfl hb
        refine hcommand (line :: before) line' after rfl ?_
        rw [InputBuffer.pushAll, hpush]
        exact hb
      rw [List.map_cons]
      rcases hpush : r.buffer.push line with ⟨_ | input, b⟩
      · obtain ⟨hnone, hanswers⟩ := ih (r := ⟨r.session, b⟩) (hrest hpush)
        rw [replies_cons (feed_of_none hfirst hpush) (by decide), InputBuffer.pushAll, hpush]
        exact ⟨hnone, hanswers⟩
      · obtain ⟨hnone, hanswers⟩ := ih (r := ⟨(r.session.interpret input).2, b⟩) (hrest hpush)
        obtain ⟨hne, hne'⟩ := Reply.ofResult_ne (r.session.interpret input).1
        rw [replies_cons (feed_of_some hfirst hpush) hne', InputBuffer.pushAll, hpush]
        refine ⟨hnone, ?_⟩
        rw [List.filter_cons_of_pos (by simpa using hne), hanswers]
        rfl

end Repl

theorem readAll_eq_nil_iff {source : String} : readAll source = .ok [] ↔ Trailing source.toList := by
  rw [readAll_iff_forms]
  constructor
  · rintro ⟨fs, hfs, hns⟩
    cases fs with
    | nil =>
        rw [readForms_eq_ok_iff] at hfs
        cases (lex_eq_iff.1 hfs).1 with
        | done h => exact h
    | cons f fs =>
        obtain ⟨n, ns, -, -, hnil⟩ := Form.nodes_cons_eq_ok_iff.1 hns
        cases hnil
  · intro h
    exact ⟨[], readForms_eq_ok_iff.2 (lex_trailing h), rfl⟩

namespace Session

theorem interpret_nil {s : Session} {input : String} (h : readAll input = .ok []) :
    s.interpret input = (.error (.read .empty), s) := by
  rw [s.interpret_of_readAll h]
  rfl

theorem interpret_cons {s t : Session} {last : Option Value} {input : String} {ns ms : List Node}
    {v : Option Value} (h : readAll input = .ok ns) (hne : ns ≠ [])
    (heval : s.evaluateAll last (ns ++ ms) = (.ok v, t)) :
    ∃ w u, s.interpret input = (.ok w, u) ∧ u.evaluateAll (some w) ms = (.ok v, t) := by
  rw [evaluateAll_append, s.evaluateAll_last last hne] at heval
  rw [s.interpret_of_readAll h, interpretNodes]
  rcases hns : s.evaluateAll none ns with ⟨e | _ | w, u⟩
  · rw [hns] at heval
    cases heval
  · exact absurd (congrArg Prod.fst hns) (s.evaluateAll_ne_none hne)
  · rw [hns] at heval
    exact ⟨w, u, rfl, heval⟩

/-- The inputs that a text falls into are answered with what their forms come to. The last line in
green is what the text comes to, or else there is none and the text comes to what was there before. -/
theorem answers_of_readings {inputs : List String} {readings : List (List Node)}
    (h : List.Forall₂ (fun input ns => readAll input = .ok ns) inputs readings) {s t : Session}
    {last : Option Value} {v : Value}
    (heval : s.evaluateAll last readings.flatten = (.ok (some v), t)) :
    let shown := (s.answers inputs).map Reply.text
    List.Forall₂ Shows inputs shown ∧
      (last = some v ∧ (∀ line ∈ shown, line = emptyLine) ∨
        ∃ before after, shown = before ++ greenLine v.text :: after ∧
          ∀ line ∈ after, line = emptyLine) := by
  induction h generalizing s last with
  | nil =>
      cases heval
      exact ⟨.nil, .inl ⟨rfl, nofun⟩⟩
  | @cons input ns inputs readings h _ ih =>
      rw [List.flatten_cons] at heval
      simp only [answers, List.map_cons]
      -- an input without forms is the red line, and the value before it stays the last one
      by_cases hne : ns = []
      · subst hne
        obtain ⟨hall, hlast⟩ := ih heval
        simp only [interpret_nil h, Reply.ofResult, Reply.text_empty]
        refine ⟨.cons (.comments (readAll_eq_nil_iff.1 h)) hall, hlast.imp ?_ ?_⟩
        · rintro ⟨hv, hempty⟩
          exact ⟨hv, List.forall_mem_cons.2 ⟨rfl, hempty⟩⟩
        · rintro ⟨before, after, hshown, hempty⟩
          exact ⟨emptyLine :: before, after, by rw [hshown]; rfl, hempty⟩
      · obtain ⟨w, u, hinput, heval⟩ := interpret_cons h hne heval
        obtain ⟨hall, hlast⟩ := ih heval
        have hforms : ¬ Trailing input.toList := fun htrailing => hne <| by
          rw [readAll_eq_nil_iff.2 htrailing] at h
          exact (Except.ok.inj h).symm
        simp only [hinput, Reply.ofResult, Reply.text_value]
        refine ⟨.cons (.value hforms w.text) hall, .inr ?_⟩
        rcases hlast with ⟨hv, hempty⟩ | ⟨before, after, hshown, hempty⟩
        · cases hv
          exact ⟨[], _, rfl, hempty⟩
        · exact ⟨greenLine w.text :: before, after, by rw [hshown]; rfl, hempty⟩

end Session

namespace InputBuffer

theorem balance_joined (b : InputBuffer) (l : List Char) :
    parenBalance (b.joined (String.ofList l)) =
      parenBalance b.pending + balance (lex .gap l) := by
  rw [parenBalance_eq, parenBalance_eq, joined_toList]
  by_cases hb : b.isEmpty
  · rw [if_pos hb, (isEmpty_iff b).1 hb]
    exact (Int.zero_add _).symm
  · rw [if_neg hb, lex_newline, balance_append]

theorem balance_of_isEmpty {b : InputBuffer} {ls : List (List Char)}
    (h : (b.pushAll (ls.map String.ofList)).2.isEmpty) :
    parenBalance b.pending + balance (ls.flatMap (lex .gap)) ≤ 0 := by
  induction ls generalizing b with
  | nil =>
      rw [(isEmpty_iff b).1 h]
      decide
  | cons l ls ih =>
      rw [List.map_cons, pushAll] at h
      rw [List.flatMap_cons, balance_append, ← Int.add_assoc, ← balance_joined]
      by_cases hpos : 0 < parenBalance (b.joined (String.ofList l))
      · rw [push_of_pos hpos] at h
        exact ih h
      · rw [push_of_not_pos hpos] at h
        have hrest := ih h
        change 0 + _ ≤ _ at hrest
        omega

end InputBuffer

theorem not_command_of_isEmpty {cs : List Char} {fs : List Form}
    (hlex : lex .gap cs = Form.tokensAll fs) (hcommand : ¬ HasCommand cs)
    {before after : List String} {line : String}
    (h : (endedLines '\n' '\r' cs).map String.ofList = before ++ line :: after)
    (hempty : (InputBuffer.pushAll {} before).2.isEmpty) :
    (Text.trim line.toList).head? ≠ some ':' := by
  obtain ⟨ls, ks, hcut, rfl, hks⟩ := List.map_eq_append_iff.1 h
  obtain ⟨l, ks, rfl, rfl, -⟩ := List.map_eq_cons_iff.1 hks
  obtain ⟨before', after', rest, hlines, hbefore, hafter⟩ := exists_cut_delivers hcut
  rw [List.cons_append] at hafter
  obtain ⟨l', after', hl, -, rfl⟩ := List.forall₂_cons_right_iff.1 hafter
  have hle := InputBuffer.balance_of_isEmpty hempty
  have hge : 0 ≤ balance (before'.flatMap (lex .gap)) := by
    rw [lex_lines, hlines, List.flatMap_append] at hlex
    exact Nest.balance_nonneg hlex.symm
  rw [← Delivers.flatMap_lex hbefore] at hle
  change 0 + _ ≤ _ at hle
  rw [String.toList_ofList, ← hl.trim]
  exact fun hhead => hcommand ⟨before', l', after', hlines, by omega, hhead⟩

theorem inputLines_toUTF8 {source : String} (h : '\x08' ∉ source.toList) :
    inputLines source.toUTF8 =
      ((endedLines '\n' '\r' source.toList).map String.ofList).map .ok := by
  rw [inputLines, decodeText_toUTF8, List.map_map]
  refine List.map_congr_left fun line hline => ?_
  have hfree : '\x08' ∉ (String.ofList line).toList := by
    rw [String.toList_ofList]
    exact fun hmem =>
      h (forall_mem_delivered (P := (· ∈ source.toList)) (fun _ hc => hc) hline _ hmem)
  rw [eraseBackspaces, if_neg hfree]
  rfl

namespace Session

theorem exists_readAll_of_interpret {s t : Session} {source : String} {v : Value}
    (h : s.interpret source = (.ok v, t)) :
    ∃ ns, readAll source = .ok ns ∧ s.evaluateAll none ns = (.ok (some v), t) := by
  rw [interpret] at h
  split at h
  · next ns hns =>
      refine ⟨ns, hns, ?_⟩
      rw [interpretNodes] at h
      split at h
      · next heval => cases h; exact heval
      · cases h
      · cases h
  · cases h

/-- A session in which a text is evaluated answers the inputs that the delivered lines of the text make
up. -/
theorem answers_of_interpret {s t : Session} {source : String} {v : Value}
    (h : s.interpret source = (.ok v, t)) (hquote : ¬ SplitQuote source.toList)
    (hcommand : ¬ HasCommand source.toList)
    (hblank : ∀ c ∈ source.toList, Text.isBlank c → isSeparator c) :
    let lines := (endedLines '\n' '\r' source.toList).map String.ofList
    let inputs := (InputBuffer.pushAll {} lines).1
    (Repl.replies { session := s } (lines.map .ok)).2 = none ∧
      (Repl.replies { session := s } (lines.map .ok)).1.filter (· ≠ .silence) =
        s.answers inputs ++ [.farewell] ∧
      List.Forall₂ Shows inputs ((s.answers inputs).map Reply.text) ∧
      ∃ before after, (s.answers inputs).map Reply.text = before ++ greenLine v.text :: after ∧
        ∀ line ∈ after, line = emptyLine := by
  intro lines inputs
  obtain ⟨ns, hns, heval⟩ := exists_readAll_of_interpret h
  obtain ⟨fs, hfs, hnodes⟩ := readAll_iff_forms.1 hns
  rw [readForms_eq_ok_iff] at hfs
  have htext : InputBuffer.text {} (endedLines '\n' '\r' source.toList) =
      deliveredText source.toList := rfl
  have hlex := (lex_deliveredText source.toList).trans hfs
  have hquote' : ¬ SplitQuote (deliveredText source.toList) :=
    fun h => hquote (splitQuote_of_deliveredText h)
  have hblank' := forall_mem_deliveredText hblank (fun _ => rfl)
  rw [← htext] at hlex hquote' hblank'
  obtain ⟨-, parts, hparts, rfl⟩ := InputBuffer.pushAll_lines (.inl rfl) hlex hquote' hblank'
  obtain ⟨readings, hreadings, rfl⟩ := InputBuffer.exists_readings hparts hnodes
  have hline : ∀ before line after, lines = before ++ line :: after →
      (InputBuffer.pushAll {} before).2.isEmpty → (Text.trim line.toList).head? ≠ some ':' :=
    fun _ _ _ => not_command_of_isEmpty hfs hcommand
  obtain ⟨hnone, hreplies⟩ := Repl.replies_of_lines (r := { session := s }) hline
  obtain ⟨hshows, hlast⟩ := answers_of_readings hreadings heval
  exact ⟨hnone, hreplies, hshows, hlast.resolve_left fun h => nomatch h.1⟩

end Session

/-- The dialogue with a text of which a run succeeds. Of the lines that it shows for its inputs, the
last green one is what the run prints, and the red ones say that an input has nothing but comments.
The text has no white space but separators and no control characters, no line that ends behind a quote
outside all parentheses, and none that is a command. -/
theorem dialogue_agrees (files : String → Except FileError String)
    (filter? : Option (Notice → Bool)) (render : List Notice → String) (o : Options)
    {source : String}
    (hblank : ∀ c ∈ source.toList, Text.isBlank c ∨ isControl c → c ∈ [' ', '\t', '\r', '\n'])
    (hquote : ¬ SplitQuote source.toList) (hcommand : ¬ HasCommand source.toList)
    (h : (World.run ⟨files, source.toUTF8, filter?⟩ render
      { o with input := .pipe, dumpAst := false }).status = 0) :
    let lines := (endedLines '\n' '\r' source.toList).map String.ofList
    let w : World := ⟨files, source.toUTF8, filter?⟩
    let batch := w.run render { o with input := .pipe, dumpAst := false }
    let dialogue := w.run render { o with input := .interactive }
    ∃ (printed : String) (shown before after : List String),
      batch.stdout = printed ++ "\n" ∧ dialogue.status = 0 ∧
      dialogue.stdout = "\x1b[1mDIY Lisp REPL\x1b[0m\n" ++
        "Type :help for commands, :quit or Ctrl-D to exit.\n\n" ++ String.join shown ++ "Bye!\n" ∧
      List.Forall₂ Shows (InputBuffer.pushAll {} lines).1 shown ∧
      shown = before ++ greenLine printed :: after ∧ ∀ line ∈ after, line = emptyLine := by
  intro lines w batch dialogue
  have hfree : '\x08' ∉ source.toList := fun hmem =>
    absurd (hblank _ hmem (.inr (by decide))) (by decide)
  have hseparator : ∀ c ∈ source.toList, Text.isBlank c → isSeparator c := by
    intro c hc hb
    simpa [isSeparator, or_assoc] using hblank c hc (.inl hb)
  obtain ⟨s, session, v, t, notices, hs, hsession, hv, hprinted⟩ :=
    CommandLine.exists_of_run_pipe (decodeText_toUTF8 source) rfl rfl h
  obtain ⟨hnone, hreplies, hshows, before, after, hlast, hempty⟩ :=
    Session.answers_of_interpret hv hquote hcommand hseparator
  have hdialogue : dialogue = _ := World.run_eq
    (CommandLine.noted_interactive (o := { o with input := .interactive }) hs hsession rfl) render
  have hreport : Repl.report { session } w.stdin = .success (Repl.banner ++
      String.join ((Repl.replies { session } (lines.map .ok)).1.map Reply.text)) := by
    rw [Repl.report, inputLines_toUTF8 hfree]
    simp only [hnone, Report.ofReplies, lines]
  refine ⟨v.text, _, before, after, hprinted, ?_, ?_, hshows, hlast, hempty⟩
  · rw [hdialogue, hreport]
    rfl
  · rw [hdialogue, hreport, Reply.join_text, hreplies, List.map_append, String.join_append,
      ← String.append_assoc]
    rfl

theorem dialogue_agrees_comment :
    let source := "; one\r\n(if #t '(\n:env) 2)\r\n\n 'b ; two"
    let w : World := { files := fun _ => .error .missing, stdin := source.toUTF8 }
    let o : Options := { noPrelude := true }
    let dialogue := w.run (fun _ => "") o
    (w.run (fun _ => "") { o with input := .pipe }).status = 0 ∧
    (w.run (fun _ => "") { o with input := .pipe }).stdout = "b\n" ∧
    ∃ (shown before after : List String),
      dialogue.status = 0 ∧
      dialogue.stdout = "\x1b[1mDIY Lisp REPL\x1b[0m\n" ++
        "Type :help for commands, :quit or Ctrl-D to exit.\n\n" ++ String.join shown ++ "Bye!\n" ∧
      List.Forall₂ Shows ["; one", "(if #t '(\n:env) 2)", " 'b ; two"] shown ∧
      shown = before ++ "\x1b[32mb\x1b[0m\n" :: after ∧ ∀ line ∈ after, line = emptyLine := by
  intro source w o dialogue
  have hall : source.toList.all fun c =>
      Text.isBlank c ∨ isControl c → c ∈ [' ', '\t', '\r', '\n'] := by
    decide +kernel
  have hblank : ∀ c ∈ source.toList, Text.isBlank c ∨ isControl c → c ∈ [' ', '\t', '\r', '\n'] :=
    fun c hc => of_decide_eq_true (List.all_eq_true.1 hall c hc)
  have hrun : w.run (fun _ => "") { o with input := .pipe } = ⟨0, "b\n", ""⟩ := by decide +kernel
  have hinputs : (InputBuffer.pushAll {}
      ((endedLines '\n' '\r' source.toList).map String.ofList)).1 =
        ["; one", "(if #t '(\n:env) 2)", " 'b ; two"] := by
    decide +kernel
  obtain ⟨printed, shown, before, after, hprinted, hstatus, hstdout, hshows, hlast, hempty⟩ :=
    dialogue_agrees w.files none (fun _ => "") o hblank (by decide +kernel) (by decide +kernel)
      (congrArg Report.status hrun)
  have hb : printed = "b" :=
    (String.append_left_inj "\n").1 (hprinted.symm.trans (congrArg Report.stdout hrun))
  have hgreen : greenLine printed = "\x1b[32mb\x1b[0m\n" := hb ▸ by decide
  rw [hinputs] at hshows
  exact ⟨congrArg Report.status hrun, congrArg Report.stdout hrun, shown, before, after, hstatus,
    hstdout, hshows, hgreen ▸ hlast, hempty⟩

end SmallLisp
