import SmallLisp.Proofs.Repl.Buffer

namespace SmallLisp

namespace Text

theorem separator_of_isBlank {c : Char} (hb : isBlank c) (hc : c ∈ Token.delimiters) :
    isSeparator c := by
  simp only [Token.delimiters, List.mem_cons, List.not_mem_nil, or_false] at hc
  rcases hc with rfl | rfl | rfl | rfl | rfl | rfl | rfl | rfl <;> revert hb <;> decide

theorem not_isDigit_of_isBlank {c : Char} (hb : isBlank c) : ¬ c.isDigit := by
  rw [isBlank, List.contains_iff_mem] at hb
  rw [Char.isDigit_iff_toNat]
  revert hb
  generalize c.toNat = n
  revert n
  decide

end Text

theorem lex_blank {cs : List Char} (h : ∀ c ∈ cs, Text.isBlank c) {m : Mode} (hm : m ≠ .comment) :
    ∃ words : List (List Char), lex m cs = words.map .atom ∧
      words.flatten = m.latest.reverse ++ cs.filter fun c => !isSeparator c := by
  induction cs generalizing m with
  | nil =>
      cases m with
      | gap => exact ⟨[], rfl, rfl⟩
      | comment => exact absurd rfl hm
      | atom latest => exact ⟨[latest.reverse], rfl, rfl⟩
  | cons c cs ih =>
      obtain ⟨hc, hcs⟩ := List.forall_mem_cons.1 h
      by_cases hd : c ∈ Token.delimiters
      · have hs := Text.separator_of_isBlank hc hd
        obtain ⟨-, htoken, hne⟩ := separator_spec (isSeparator_iff.1 hs)
        obtain ⟨words, hlex, hflat⟩ := ih hcs Mode.gap_ne
        rw [lex_delimiter hm hd, htoken, if_neg hne, hlex, List.filter_cons_of_neg (by simpa using hs)]
        cases m with
        | gap => exact ⟨words, rfl, hflat⟩
        | comment => exact absurd rfl hm
        | atom latest => exact ⟨latest.reverse :: words, rfl, congrArg (latest.reverse ++ ·) hflat⟩
      · have hs : ¬ isSeparator c := fun hs => hd (separator_spec (isSeparator_iff.1 hs)).1
        obtain ⟨words, hlex, hflat⟩ := ih hcs (Mode.atom_ne (c :: m.latest))
        rw [lex_atomChar hm hd, hlex, List.filter_cons_of_pos (by simpa using hs)]
        exact ⟨words, rfl, by simpa [Mode.latest] using hflat⟩

theorem isReadable_of_blank {cs : List Char} (hw : Token.IsWord cs) (h : ∀ c ∈ cs, Text.isBlank c) :
    IsReadable cs := by
  have hdigits {ds : List Char} (hds : IsDigits ds) (hmem : ∀ d ∈ ds, d ∈ cs) : False := by
    obtain ⟨d, ds, rfl⟩ := List.exists_cons_of_ne_nil hds.1
    exact Text.not_isDigit_of_isBlank (h d (hmem d List.mem_cons_self)) (hds.2 d List.mem_cons_self)
  refine ⟨hw, ?_, ?_, fun n hn => ?_⟩
  · rintro rfl
    exact absurd (h '#' List.mem_cons_self) (by decide)
  · rintro rfl
    exact absurd (h '#' List.mem_cons_self) (by decide)
  · cases hn with
    | plain hds => exact hdigits hds fun _ => id
    | plus hds | minus hds => exact hdigits hds fun _ => List.mem_cons_of_mem _

theorem Node.writesAll_symbols (names : List String) :
    WritesAll (names.map .symbol) (names.map fun name => .atom name.toList) := by
  induction names with
  | nil => exact .nil
  | cons name names ih => exact .cons (.symbol name) ih

theorem Node.symbolsAll_symbols (names : List String) :
    symbolsAll (names.map .symbol) = names := by
  induction names with
  | nil => rfl
  | cons name names ih => rw [List.map_cons, symbolsAll, ih]; rfl

theorem readAll_blank {source : String} (h : ∀ c ∈ source.toList, Text.isBlank c) :
    ∃ names : List String, readAll source = .ok (names.map .symbol) ∧ (∀ name ∈ names, name ≠ "") ∧
      names.flatMap String.toList = source.toList.filter fun c => !isSeparator c := by
  obtain ⟨words, hlex, hflat⟩ := lex_blank h Mode.gap_ne
  change words.flatten = source.toList.filter _ at hflat
  have hvalid : ∀ t ∈ lex .gap source.toList, t.Valid := valid_of_mem_lex nofun
  have hword : ∀ w ∈ words, IsReadable w := by
    intro w hw
    have hmem : .atom w ∈ lex .gap source.toList := hlex ▸ List.mem_map_of_mem hw
    refine isReadable_of_blank (hvalid _ hmem) fun c hc => h c ?_
    have hfilter : c ∈ source.toList.filter _ := hflat ▸ List.mem_flatten_of_mem hw hc
    exact (List.mem_filter.1 hfilter).1
  have hlist : (words.map String.ofList).map String.toList = words := by simp
  have hname : ∀ name ∈ words.map String.ofList, IsReadable name.toList := by
    intro name hmem
    exact hword _ (hlist ▸ List.mem_map_of_mem hmem)
  refine ⟨words.map String.ofList, readAll_eq_ok_iff.2 ⟨⟨_, Node.writesAll_symbols _, ?_⟩, ?_⟩, ?_, ?_⟩
  · refine (lex_eq_iff.1 ?_).1
    rw [hlex, ← hlist]
    simp
  · rw [Node.symbolsAll_symbols]
    exact hname
  · rintro name hmem rfl
    exact (hname "" hmem).isWord.1 rfl
  · rw [List.flatMap_def, hlist, hflat]

theorem isBlankText_iff {s : String} : isBlankText s ↔ ∀ c ∈ s.toList, Text.isBlank c :=
  List.all_eq_true

theorem InputBuffer.push_drops_iff (b : InputBuffer) (line : String) :
    ((b.push line).1 = none ∧ (b.push line).2.isEmpty) ↔
      ∀ c ∈ (b.joined line).toList, Text.isBlank c := by
  rw [← isBlankText_iff]
  by_cases hpos : 0 < parenBalance (b.joined line)
  · rw [push_of_pos hpos, isEmpty_iff]
    refine iff_of_false (fun h => ne_empty_of_pos hpos h.2) fun hblank => ?_
    obtain ⟨names, hread, -⟩ := readAll_blank (isBlankText_iff.1 hblank)
    rw [parenBalance_of_readAll hread] at hpos
    exact absurd hpos (by decide)
  · rw [push_of_not_pos hpos]
    by_cases hblank : isBlankText (b.joined line)
    · rw [if_pos hblank]
      exact iff_of_true ⟨rfl, rfl⟩ hblank
    · rw [if_neg hblank]
      exact iff_of_false (fun h => nomatch h.1) hblank

/-- What a buffer drops is the blank text. It holds no form if it is made up of separators; all its
other characters belong to symbols, which are lost. -/
theorem dropped_blank (b : InputBuffer) (line : String) :
    let text := b.joined line
    let dropped := (b.push line).1 = none ∧ (b.push line).2.isEmpty
    (dropped ↔ ∀ c ∈ text.toList, Text.isBlank c) ∧
    (dropped → ∃ names : List String, readAll text = .ok (names.map .symbol) ∧
      (∀ name ∈ names, name ≠ "") ∧
      names.flatMap String.toList = text.toList.filter (· ∉ [' ', '\t', '\r', '\n'])) ∧
    (dropped → (readAll text = .ok [] ↔ ∀ c ∈ text.toList, c ∈ [' ', '\t', '\r', '\n'])) := by
  intro text dropped
  have hdropped : dropped ↔ ∀ c ∈ text.toList, Text.isBlank c := b.push_drops_iff line
  have hfilter : text.toList.filter (fun c => !isSeparator c) =
      text.toList.filter (· ∉ [' ', '\t', '\r', '\n']) := by
    refine List.filter_congr fun c _ => ?_
    rw [Bool.eq_iff_iff, Bool.not_eq_true', ← Bool.not_eq_true, isSeparator_iff, decide_eq_true_iff]
  refine ⟨hdropped, fun h => ?_, fun h => ?_⟩
  · rw [← hfilter]
    exact readAll_blank (hdropped.1 h)
  · obtain ⟨names, hread, hne, hflat⟩ := readAll_blank (hdropped.1 h)
    have hnil : names = [] ↔ names.flatMap String.toList = [] := by
      rw [List.flatMap_eq_nil_iff, List.eq_nil_iff_forall_not_mem]
      refine forall₂_congr fun name hmem => ?_
      simpa using hne name hmem
    rw [hread, Except.ok.injEq, List.map_eq_nil_iff, hnil, hflat, hfilter, List.filter_eq_nil_iff]
    simp only [decide_eq_true_eq, not_not]

theorem dropped_blank_spaces :
    let text := "\u2003\t \u00a0\u3000"
    InputBuffer.push {} text = (none, {}) ∧ readAll text ≠ .ok [] ∧
      ∃ names : List String, readAll text = .ok (names.map .symbol) ∧
        names.flatMap String.toList = ['\u2003', '\u00a0', '\u3000'] := by
  intro text
  have hpush : InputBuffer.push {} text = (none, {}) := by decide +kernel
  have hdropped : (InputBuffer.push {} text).1 = none ∧ (InputBuffer.push {} text).2.isEmpty := by
    rw [hpush]
    exact ⟨rfl, rfl⟩
  have hjoined : InputBuffer.joined {} text = text := rfl
  have hmem : '\u2003' ∈ text.toList := by decide +kernel
  have hspace : ¬ ∀ c ∈ text.toList, c ∈ [' ', '\t', '\r', '\n'] :=
    fun h => absurd (h _ hmem) (by decide)
  obtain ⟨-, hnames, hnil⟩ := dropped_blank {} text
  rw [hjoined] at hnames hnil
  obtain ⟨names, hread, -, hflat⟩ := hnames hdropped
  refine ⟨hpush, fun h => hspace ((hnil hdropped).1 h), names, hread, hflat.trans ?_⟩
  decide +kernel

theorem push_noBreakSpace :
    InputBuffer.push {} "\u00a0" = (none, {}) ∧ readAll "\u00a0" = .ok [.symbol "\u00a0"] := by
  exact ⟨by decide +kernel, by decide +kernel⟩

end SmallLisp
