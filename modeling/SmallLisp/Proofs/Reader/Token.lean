import SmallLisp.Reader.Scan

namespace SmallLisp

inductive Token where
  | opening
  | closing
  | quote
  | atom (chars : List Char)
  deriving DecidableEq

namespace Token

def chars : Token → List Char
  | opening => ['(']
  | closing => [')']
  | quote => ['\'']
  | atom cs => cs

def isAtom : Token → Bool
  | atom _ => true
  | _ => false

def delimiters : List Char := [' ', '\t', '\r', '\n', '(', ')', '\'', ';']

def IsWord (cs : List Char) : Prop := cs ≠ [] ∧ ∀ c ∈ cs, c ∉ delimiters

instance (cs : List Char) : Decidable (IsWord cs) :=
  decidable_of_iff (cs ≠ [] ∧ cs.all (· ∉ delimiters)) (by simp [IsWord])

def Valid : Token → Prop
  | atom cs => IsWord cs
  | _ => True

end Token

/-- Text without meaning: separators, and comments with the line feeds that end them. -/
inductive Skipped : List Char → Prop
  | nil : Skipped []
  | separator {c : Char} {cs : List Char} (hc : c ∈ [' ', '\t', '\r', '\n']) (h : Skipped cs) :
      Skipped (c :: cs)
  | comment {body cs : List Char} (hb : '\n' ∉ body) (h : Skipped cs) :
      Skipped (';' :: (body ++ '\n' :: cs))

inductive Trailing : List Char → Prop
  | skipped {cs : List Char} (h : Skipped cs) : Trailing cs
  | comment {gap body : List Char} (h : Skipped gap) (hb : '\n' ∉ body) :
      Trailing (gap ++ ';' :: body)

/-- `Layout touching ts cs` if `cs` is the tokens `ts` in order with skipped text before, between and
after them. `touching` says that an atom stands in front of `cs`, so the next token may be an atom
only behind a gap. -/
inductive Layout : Bool → List Token → List Char → Prop
  | done {touching : Bool} {cs : List Char} (h : Trailing cs) : Layout touching [] cs
  | token {touching : Bool} {gap cs : List Char} {t : Token} {ts : List Token} (hg : Skipped gap)
      (hapart : touching → t.isAtom → gap ≠ []) (h : Layout t.isAtom ts cs) :
      Layout touching (t :: ts) (gap ++ (t.chars ++ cs))

theorem isAtomChar_iff {c : Char} : isAtomChar c ↔ c ∉ Token.delimiters := by
  simp only [isAtomChar, isSeparator, Token.delimiters, List.mem_cons, List.not_mem_nil, or_false,
    Bool.not_eq_true', Bool.or_eq_false_iff, decide_eq_false_iff_not, not_or, and_assoc]

theorem isSeparator_iff {c : Char} : isSeparator c ↔ c ∈ [' ', '\t', '\r', '\n'] := by
  simp [isSeparator, or_assoc]

theorem Skipped.append {g g' : List Char} (h : Skipped g) (h' : Skipped g') :
    Skipped (g ++ g') := by
  induction h with
  | nil => exact h'
  | separator hc _ ih => exact .separator hc ih
  | @comment body cs hb _ ih =>
      rw [List.cons_append, List.append_assoc, List.cons_append]
      exact .comment hb ih

theorem Trailing.skip {g cs : List Char} (h : Skipped g) (h' : Trailing cs) :
    Trailing (g ++ cs) := by
  cases h' with
  | skipped h' => exact .skipped (h.append h')
  | comment h' hb =>
      rw [← List.append_assoc]
      exact .comment (h.append h') hb

theorem Layout.skip {touching : Bool} {ts : List Token} {g cs : List Char} (h : Skipped g)
    (hne : g ≠ []) (h' : Layout false ts cs) : Layout touching ts (g ++ cs) := by
  cases h' with
  | done h' => exact .done (h'.skip h)
  | token hg _ hl =>
      rw [← List.append_assoc]
      exact .token (h.append hg) (fun _ _ => List.append_ne_nil_of_left_ne_nil hne _) hl

namespace Mode

def pending : Mode → List Token
  | atom latest => [.atom latest.reverse]
  | _ => []

def latest : Mode → List Char
  | atom latest => latest
  | _ => []

theorem gap_ne : gap ≠ comment := nofun

theorem atom_ne (latest : List Char) : atom latest ≠ comment := nofun

end Mode

def delimiterToken : Char → List Token
  | '(' => [.opening]
  | ')' => [.closing]
  | '\'' => [.quote]
  | _ => []

def lex (m : Mode) : List Char → List Token
  | [] => m.pending
  | c :: cs =>
      match m with
      | .comment => lex (if c = '\n' then .gap else .comment) cs
      | m =>
          if isAtomChar c then lex (.atom (c :: m.latest)) cs
          else m.pending ++ delimiterToken c ++ lex (if c = ';' then .comment else .gap) cs

theorem lex_comment (c : Char) (cs : List Char) :
    lex .comment (c :: cs) = lex (if c = '\n' then .gap else .comment) cs := rfl

theorem lex_atomChar {m : Mode} {c : Char} (hm : m ≠ .comment) (hc : c ∉ Token.delimiters)
    (cs : List Char) : lex m (c :: cs) = lex (.atom (c :: m.latest)) cs := by
  cases m with
  | comment => exact absurd rfl hm
  | gap | atom => exact if_pos (isAtomChar_iff.2 hc)

theorem lex_delimiter {m : Mode} {c : Char} (hm : m ≠ .comment) (hc : c ∈ Token.delimiters)
    (cs : List Char) : lex m (c :: cs) =
      m.pending ++ delimiterToken c ++ lex (if c = ';' then .comment else .gap) cs := by
  have hc' : ¬ isAtomChar c := fun h => isAtomChar_iff.1 h hc
  cases m with
  | comment => exact absurd rfl hm
  | gap | atom => exact if_neg hc'

theorem lex_body {body : List Char} (hb : '\n' ∉ body) (cs : List Char) :
    lex .comment (body ++ cs) = lex .comment cs := by
  induction body with
  | nil => rfl
  | cons c body ih =>
      rw [List.mem_cons, not_or] at hb
      rw [List.cons_append, lex_comment, if_neg (Ne.symm hb.1), ih hb.2]

theorem semicolon_mem : ';' ∈ Token.delimiters := by decide

theorem separator_spec {c : Char} (hc : c ∈ [' ', '\t', '\r', '\n']) :
    c ∈ Token.delimiters ∧ delimiterToken c = [] ∧ c ≠ ';' := by
  simp only [List.mem_cons, List.not_mem_nil, or_false] at hc
  rcases hc with rfl | rfl | rfl | rfl <;> decide

theorem lex_skipped {g : List Char} (hg : Skipped g) (cs : List Char) :
    lex .gap (g ++ cs) = lex .gap cs := by
  induction hg with
  | nil => rfl
  | @separator c g hc _ ih =>
      obtain ⟨hd, ht, hne⟩ := separator_spec hc
      rw [List.cons_append, lex_delimiter Mode.gap_ne hd, ht, if_neg hne, ih]
      rfl
  | @comment body g hb _ ih =>
      rw [List.cons_append, List.append_assoc, lex_delimiter Mode.gap_ne semicolon_mem, if_pos rfl,
        lex_body hb, List.cons_append, lex_comment, if_pos rfl, ih]
      rfl

theorem lex_trailing {cs : List Char} (h : Trailing cs) : lex .gap cs = [] := by
  cases h with
  | skipped h =>
      have hlex := lex_skipped h []
      rwa [List.append_nil] at hlex
  | @comment gap body h hb =>
      have hlex := lex_body hb []
      rw [List.append_nil] at hlex
      rw [lex_skipped h, lex_delimiter Mode.gap_ne semicolon_mem, if_pos rfl, hlex]
      rfl

theorem lex_word {w : List Char} (hw : ∀ c ∈ w, c ∉ Token.delimiters) (latest cs : List Char) :
    lex (.atom latest) (w ++ cs) = lex (.atom (w.reverse ++ latest)) cs := by
  induction w generalizing latest with
  | nil => rfl
  | cons c w ih =>
      rw [List.cons_append, lex_atomChar (Mode.atom_ne latest) (hw c List.mem_cons_self),
        ih fun d hd => hw d (List.mem_cons_of_mem c hd)]
      simp [Mode.latest]

theorem lex_pending {m : Mode} (hm : m ≠ .comment) {c : Char} (hc : c ∈ Token.delimiters)
    (cs : List Char) : lex m (c :: cs) = m.pending ++ lex .gap (c :: cs) := by
  rw [lex_delimiter hm hc, lex_delimiter Mode.gap_ne hc, List.append_assoc]
  rfl

theorem Skipped.head_mem {c : Char} {g : List Char} (h : Skipped (c :: g)) :
    c ∈ Token.delimiters := by
  cases h with
  | separator hc _ => exact (separator_spec hc).1
  | comment => exact semicolon_mem

theorem Trailing.head_mem {c : Char} {cs : List Char} (h : Trailing (c :: cs)) :
    c ∈ Token.delimiters := by
  generalize hx : c :: cs = x at h
  cases h with
  | skipped h => exact (hx ▸ h).head_mem
  | @comment gap body h hb =>
      cases gap with
      | nil =>
          cases hx
          exact semicolon_mem
      | cons d gap =>
          cases hx
          exact h.head_mem

theorem Token.eq_delimiter {t : Token} (h : t.isAtom = false) :
    ∃ d, t.chars = [d] ∧ d ∈ delimiters ∧ delimiterToken d = [t] ∧ d ≠ ';' := by
  cases t with
  | atom w => cases h
  | opening => exact ⟨'(', rfl, by decide⟩
  | closing => exact ⟨')', rfl, by decide⟩
  | quote => exact ⟨'\'', rfl, by decide⟩

theorem lex_gap {touching : Bool} {t : Token} {gap : List Char} (hg : Skipped gap)
    (hapart : touching → t.isAtom → gap ≠ []) {m : Mode} (hm : m ≠ .comment)
    (hgap : touching = false → m = .gap) (cs : List Char) :
    lex m (gap ++ (t.chars ++ cs)) = m.pending ++ lex .gap (t.chars ++ cs) := by
  cases gap with
  | cons c gap => rw [List.cons_append, lex_pending hm hg.head_mem, ← List.cons_append, lex_skipped hg]
  | nil =>
      cases ha : t.isAtom with
      | false =>
          obtain ⟨d, hd, hmem, -⟩ := t.eq_delimiter ha
          rw [hd]
          exact lex_pending hm hmem cs
      | true =>
          cases touching with
          | true => exact absurd rfl (hapart rfl ha)
          | false =>
              rw [hgap rfl]
              rfl

theorem lex_layout {touching : Bool} {ts : List Token} {cs : List Char} (h : Layout touching ts cs)
    (hv : ∀ t ∈ ts, t.Valid) {m : Mode} (hm : m ≠ .comment) (hgap : touching = false → m = .gap) :
    lex m cs = m.pending ++ ts := by
  induction h generalizing m with
  | @done touching cs h =>
      cases cs with
      | nil => exact (List.append_nil m.pending).symm
      | cons c cs => rw [lex_pending hm h.head_mem, lex_trailing h]
  | @token touching gap cs t ts hg hapart h ih =>
      rw [lex_gap hg hapart hm hgap]
      congr 1
      have ht : t.Valid := hv t List.mem_cons_self
      have hts : ∀ u ∈ ts, u.Valid := fun u hu => hv u (List.mem_cons_of_mem t hu)
      cases ha : t.isAtom with
      | false =>
          obtain ⟨d, hd, hmem, hdt, hne⟩ := t.eq_delimiter ha
          rw [hd, List.cons_append, List.nil_append, lex_delimiter Mode.gap_ne hmem, hdt, if_neg hne,
            ih hts Mode.gap_ne fun _ => rfl]
          rfl
      | true =>
          cases t with
          | opening | closing | quote => cases ha
          | atom w =>
              obtain ⟨hw, hmem⟩ := ht
              obtain ⟨c, w, rfl⟩ := List.exists_cons_of_ne_nil hw
              have hc : c ∉ Token.delimiters := hmem c List.mem_cons_self
              have hrest : ∀ d ∈ w, d ∉ Token.delimiters := fun d hd => hmem d (List.mem_cons_of_mem c hd)
              rw [Token.chars, List.cons_append, lex_atomChar Mode.gap_ne hc, lex_word hrest,
                ih hts (Mode.atom_ne _) nofun, Mode.pending, List.reverse_append, List.reverse_reverse]
              rfl

theorem delimiter_cases {c : Char} (hc : c ∈ Token.delimiters) :
    c ∈ [' ', '\t', '\r', '\n'] ∨ c = ';' ∨
      ∃ t, t.isAtom = false ∧ t.chars = [c] ∧ delimiterToken c = [t] ∧ c ≠ ';' := by
  simp only [Token.delimiters, List.mem_cons, List.not_mem_nil, or_false] at hc
  rcases hc with rfl | rfl | rfl | rfl | rfl | rfl | rfl | rfl
  · exact .inl (by decide)
  · exact .inl (by decide)
  · exact .inl (by decide)
  · exact .inl (by decide)
  · exact .inr (.inr ⟨.opening, by decide⟩)
  · exact .inr (.inr ⟨.closing, by decide⟩)
  · exact .inr (.inr ⟨.quote, by decide⟩)
  · exact .inr (.inl rfl)

theorem layout_delimiter {c : Char} (hc : c ∈ Token.delimiters) {cs : List Char}
    (hgap : Layout false (lex .gap cs) cs)
    (hcomment : ∀ touching, Layout touching (lex .comment cs) (';' :: cs)) (touching : Bool) :
    Layout touching (delimiterToken c ++ lex (if c = ';' then .comment else .gap) cs) (c :: cs) := by
  obtain hs | rfl | ⟨t, ha, ht, hd, hne⟩ := delimiter_cases hc
  · obtain ⟨-, hd, hne⟩ := separator_spec hs
    rw [hd, if_neg hne]
    exact hgap.skip (.separator hs .nil) (List.cons_ne_nil c [])
  · exact hcomment touching
  · rw [hd, if_neg hne, ← List.singleton_append (l := cs), ← ht]
    have hapart : touching → t.isAtom → [] ≠ ([] : List Char) := by
      intro _ h
      rw [ha] at h
      cases h
    exact .token .nil hapart (by rwa [ha])

/-- A text lays out the tokens that it is cut into. In a comment and in an atom, what has been read
of them belongs to the text. -/
theorem layout_lex (cs : List Char) :
    Layout false (lex .gap cs) cs ∧
    (∀ body, '\n' ∉ body → ∀ touching, Layout touching (lex .comment cs) (';' :: (body ++ cs))) ∧
    ∀ latest, Layout false (lex (.atom latest) cs) (latest.reverse ++ cs) := by
  induction cs with
  | nil =>
      refine ⟨.done (.skipped .nil), fun body hb touching => ?_, fun latest => ?_⟩
      · rw [List.append_nil]
        exact .done (.comment .nil hb)
      · exact .token (t := .atom latest.reverse) .nil nofun (.done (.skipped .nil))
  | cons c cs ih =>
      obtain ⟨hgap, hcomment, hatom⟩ := ih
      refine ⟨?_, fun body hb touching => ?_, fun latest => ?_⟩
      · by_cases hc : c ∈ Token.delimiters
        · rw [lex_delimiter Mode.gap_ne hc]
          exact layout_delimiter hc hgap (hcomment [] nofun) false
        · rw [lex_atomChar Mode.gap_ne hc]
          exact hatom [c]
      · rw [lex_comment]
        by_cases hc : c = '\n'
        · subst hc
          have hskip : Layout touching _ _ := hgap.skip (.comment hb .nil) (List.cons_ne_nil _ _)
          simpa using hskip
        · have hbody : '\n' ∉ body ++ [c] := by simp [hb, Ne.symm hc]
          rw [if_neg hc]
          simpa using hcomment (body ++ [c]) hbody touching
      · by_cases hc : c ∈ Token.delimiters
        · rw [lex_delimiter (Mode.atom_ne latest) hc, List.append_assoc]
          have hapart : false → (Token.atom latest.reverse).isAtom → [] ≠ ([] : List Char) := nofun
          exact .token .nil hapart (layout_delimiter hc hgap (hcomment [] nofun) true)
        · rw [lex_atomChar (Mode.atom_ne latest) hc]
          simpa [Mode.latest] using hatom (c :: latest)

theorem valid_of_mem_lex {cs : List Char} {m : Mode} (hm : ∀ t ∈ m.pending, t.Valid) :
    ∀ t ∈ lex m cs, t.Valid := by
  induction cs generalizing m with
  | nil => exact hm
  | cons c cs ih =>
      by_cases hcomment : m = .comment
      · subst hcomment
        rw [lex_comment]
        by_cases hc : c = '\n'
        · rw [if_pos hc]
          exact ih nofun
        · rw [if_neg hc]
          exact ih nofun
      · by_cases hc : c ∈ Token.delimiters
        · have htoken : ∀ t ∈ delimiterToken c, t.Valid := by
            intro t ht
            rw [delimiterToken.eq_def] at ht
            split at ht <;> cases ht <;> trivial
          have hrest : ∀ t ∈ lex (if c = ';' then .comment else .gap) cs, t.Valid := by
            by_cases hs : c = ';'
            · rw [if_pos hs]
              exact ih nofun
            · rw [if_neg hs]
              exact ih nofun
          rw [lex_delimiter hcomment hc]
          intro t ht
          rw [List.mem_append, List.mem_append] at ht
          obtain (ht | ht) | ht := ht
          · exact hm t ht
          · exact htoken t ht
          · exact hrest t ht
        · rw [lex_atomChar hcomment hc]
          refine ih fun t ht => ?_
          rw [List.mem_singleton.1 ht, List.reverse_cons]
          refine ⟨by simp, fun d hd => ?_⟩
          rw [List.mem_append, List.mem_singleton] at hd
          obtain hd | rfl := hd
          · cases m with
            | gap => cases hd
            | comment => exact absurd rfl hcomment
            | atom latest => exact (hm _ List.mem_cons_self).2 d hd
          · exact hc

theorem lex_eq_iff {ts : List Token} {cs : List Char} :
    lex .gap cs = ts ↔ Layout false ts cs ∧ ∀ t ∈ ts, t.Valid := by
  constructor
  · rintro rfl
    exact ⟨(layout_lex cs).1, valid_of_mem_lex nofun⟩
  · rintro ⟨h, hv⟩
    exact lex_layout h hv Mode.gap_ne fun _ => rfl

end SmallLisp
