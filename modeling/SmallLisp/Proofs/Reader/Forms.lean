import SmallLisp.Proofs.Reader.Token
import SmallLisp.Reader

namespace SmallLisp

namespace Form

mutual

def tokens : Form → List Token
  | atom cs => [.atom cs]
  | list items => .opening :: (tokensAll items ++ [.closing])
  | quoted f => .quote :: tokens f

def tokensAll : List Form → List Token
  | [] => []
  | f :: fs => tokens f ++ tokensAll fs

end

theorem tokensAll_append (fs gs : List Form) :
    tokensAll (fs ++ gs) = tokensAll fs ++ tokensAll gs := by
  induction fs with
  | nil => rfl
  | cons f fs ih => rw [List.cons_append, tokensAll, ih, tokensAll, List.append_assoc]

end Form

/-- The openings and the forms of a scan. -/
abbrev Nest := List Opening × List Form

namespace Nest

def feed : Nest → Token → Option Nest
  | (os, fs), .atom cs => some (Scan.deliver os fs (.atom cs))
  | (os, fs), .opening => some (.list fs :: os, [])
  | (os, fs), .quote => some (.quote :: os, fs)
  | (.list before :: os, fs), .closing => some (Scan.deliver os before (.list fs.reverse))
  | _, .closing => none

def feedAll (x : Nest) (ts : List Token) : Option Nest := ts.foldlM feed x

theorem feedAll_cons (x : Nest) (t : Token) (ts : List Token) :
    feedAll x (t :: ts) = (feed x t).bind (feedAll · ts) := rfl

theorem feedAll_append (x : Nest) (ts us : List Token) :
    feedAll x (ts ++ us) = (feedAll x ts).bind (feedAll · us) := by
  rw [feedAll, List.foldlM_append]
  rfl

/-- The tokens that lead to a nest. -/
def tokens : List Opening → List Form → List Token
  | [], fs => Form.tokensAll fs.reverse
  | .quote :: os, fs => tokens os fs ++ [.quote]
  | .list before :: os, fs => tokens os before ++ .opening :: Form.tokensAll fs.reverse

theorem tokens_deliver (os : List Opening) (fs : List Form) (f : Form) :
    tokens (Scan.deliver os fs f).1 (Scan.deliver os fs f).2 = tokens os fs ++ f.tokens := by
  fun_induction Scan.deliver os fs f with
  | case1 os fs f ih =>
      rw [ih, Form.tokens, tokens, List.append_assoc]
      rfl
  | case2 os fs f hos =>
      cases os with
      | nil => simp [tokens, Form.tokensAll_append, Form.tokensAll]
      | cons o os =>
          cases o with
          | quote => exact (hos os rfl).elim
          | list before => simp [tokens, Form.tokensAll_append, Form.tokensAll]

theorem tokens_feed {x y : Nest} {t : Token} (h : feed x t = some y) :
    tokens y.1 y.2 = tokens x.1 x.2 ++ [t] := by
  obtain ⟨os, fs⟩ := x
  cases t with
  | atom cs =>
      cases h
      exact tokens_deliver os fs (.atom cs)
  | opening =>
      cases h
      rfl
  | quote =>
      cases h
      rfl
  | closing =>
      cases os with
      | nil => cases h
      | cons o os =>
          cases o with
          | quote => cases h
          | list before =>
              cases h
              rw [tokens_deliver, Form.tokens, tokens]
              simp

theorem tokens_feedAll {x y : Nest} {ts : List Token} (h : feedAll x ts = some y) :
    tokens y.1 y.2 = tokens x.1 x.2 ++ ts := by
  induction ts generalizing x with
  | nil =>
      cases h
      rw [List.append_nil]
  | cons t ts ih =>
      rw [feedAll_cons] at h
      obtain ⟨z, hz, h⟩ := Option.bind_eq_some_iff.1 h
      rw [ih h, tokens_feed hz, List.append_assoc, List.singleton_append]

theorem deliver_of_ne {os : List Opening} (hos : ∀ os', os ≠ .quote :: os') (fs : List Form)
    (f : Form) : Scan.deliver os fs f = (os, f :: fs) := by
  cases os with
  | nil => rfl
  | cons o os =>
      cases o with
      | quote => exact absurd rfl (hos os)
      | list before => rfl

mutual

theorem feedAll_tokens (os : List Opening) (fs : List Form) :
    (f : Form) → feedAll (os, fs) f.tokens = some (Scan.deliver os fs f)
  | .atom cs => rfl
  | .quoted f => feedAll_tokens (.quote :: os) fs f
  | .list items => by
      have hitems := feedAll_tokensAll (.list fs :: os) [] nofun items
      rw [Form.tokens, feedAll_cons]
      change feedAll (.list fs :: os, []) (Form.tokensAll items ++ [.closing]) = _
      rw [feedAll_append, hitems, List.append_nil]
      change some (Scan.deliver os fs (.list items.reverse.reverse)) = _
      rw [List.reverse_reverse]

theorem feedAll_tokensAll (os : List Opening) (fs : List Form)
    (hos : ∀ os', os ≠ .quote :: os') : (gs : List Form) →
      feedAll (os, fs) (Form.tokensAll gs) = some (os, gs.reverse ++ fs)
  | [] => rfl
  | g :: gs => by
      rw [Form.tokensAll, feedAll_append, feedAll_tokens os fs g, deliver_of_ne hos, Option.bind_some,
        feedAll_tokensAll os (g :: fs) hos gs, List.reverse_cons, List.append_assoc,
        List.singleton_append]

end

theorem feedAll_eq_some_iff {ts : List Token} {fs : List Form} :
    feedAll ([], []) ts = some ([], fs.reverse) ↔ ts = Form.tokensAll fs := by
  constructor
  · intro h
    have htokens := tokens_feedAll h
    simpa [tokens, Form.tokensAll] using htokens.symm
  · rintro rfl
    rw [feedAll_tokensAll [] [] nofun fs, List.append_nil]

end Nest

namespace Scan

def nest (s : Scan) : Nest := (s.openings, s.forms)

theorem feedAll_pending (s : Scan) : Nest.feedAll s.nest s.mode.pending = some s.endAtom.nest := by
  rw [endAtom]
  cases hm : s.mode with
  | gap | comment => rfl
  | atom latest => rfl

theorem endAtom_mode {s : Scan} (hm : s.mode ≠ .comment) : s.endAtom.mode = .gap := by
  rw [endAtom]
  cases h : s.mode with
  | gap => exact h
  | comment => exact absurd h hm
  | atom latest => rfl

theorem step_comment {s : Scan} (hm : s.mode = .comment) (c : Char) :
    step s c = .ok { s with
      mode := if c = '\n' then .gap else .comment, position := s.position.next c } := by
  rw [step, hm]
  by_cases hc : c = '\n'
  · rw [if_pos hc, if_pos hc]
    rfl
  · rw [if_neg hc, if_neg hc]
    change Except.ok { s with position := _ } = _
    rw [← hm]

theorem step_plain {s : Scan} (hm : s.mode ≠ .comment) (c : Char) :
    step s c = (s.read c).map fun t => { t with position := s.position.next c } := by
  rw [step]
  split
  · next h => exact absurd h hm
  · rfl

theorem read_atomChar {s : Scan} (hm : s.mode ≠ .comment) {c : Char} (hc : c ∉ Token.delimiters) :
    s.read c = .ok { s with mode := .atom (c :: s.mode.latest) } := by
  have hs : ¬ isSeparator c := by
    simp only [Token.delimiters, List.mem_cons, List.not_mem_nil, or_false, not_or] at hc
    simp [isSeparator, hc]
  simp only [Token.delimiters, List.mem_cons, List.not_mem_nil, or_false, not_or] at hc
  obtain ⟨-, -, -, -, hopen, hclose, hquote, hcomment⟩ := hc
  rw [read, if_neg hs, if_neg hcomment, if_neg hopen, if_neg hclose, if_neg hquote]
  cases h : s.mode with
  | gap | atom => rfl
  | comment => exact absurd h hm

theorem closeList_cases (s : Scan) :
    (∃ t, s.closeList = .ok t ∧ Nest.feedAll s.nest [.closing] = some t.nest ∧ t.mode = .gap) ∨
    (∃ e, s.closeList = .error e) ∧ Nest.feedAll s.nest [.closing] = none := by
  obtain ⟨position, mode, os, fs⟩ := s
  cases os with
  | nil => exact .inr ⟨⟨_, rfl⟩, rfl⟩
  | cons o os =>
      cases o with
      | quote => exact .inr ⟨⟨_, rfl⟩, rfl⟩
      | list before => exact .inl ⟨_, rfl, rfl, rfl⟩

theorem read_delimiter {s : Scan} (hm : s.mode ≠ .comment) {c : Char} (hc : c ∈ Token.delimiters) :
    (∃ t, s.read c = .ok t ∧ Nest.feedAll s.endAtom.nest (delimiterToken c) = some t.nest ∧
      t.mode = if c = ';' then .comment else .gap) ∨
    (∃ e, s.read c = .error e) ∧ Nest.feedAll s.endAtom.nest (delimiterToken c) = none := by
  have hmode := endAtom_mode hm
  simp only [Token.delimiters, List.mem_cons, List.not_mem_nil, or_false] at hc
  rcases hc with rfl | rfl | rfl | rfl | rfl | rfl | rfl | rfl
  case inr.inr.inr.inr.inr.inl =>
    exact closeList_cases s.endAtom
  · exact .inl ⟨s.endAtom, rfl, rfl, hmode⟩
  · exact .inl ⟨s.endAtom, rfl, rfl, hmode⟩
  · exact .inl ⟨s.endAtom, rfl, rfl, hmode⟩
  · exact .inl ⟨s.endAtom, rfl, rfl, hmode⟩
  · exact .inl ⟨s.endAtom.openList, rfl, rfl, hmode⟩
  · exact .inl ⟨s.endAtom.openQuote, rfl, rfl, hmode⟩
  · exact .inl ⟨{ s.endAtom with mode := .comment }, rfl, rfl, rfl⟩

theorem finish_eq_ok_iff {s : Scan} {fs : List Form} :
    s.finish = .ok fs ↔ Nest.feedAll s.nest s.mode.pending = some ([], fs.reverse) := by
  rw [feedAll_pending]
  change (if s.endAtom.openings.isEmpty then Except.ok s.endAtom.forms.reverse
    else .error (ReadError.unexpected s.endAtom.position .form)) = .ok fs ↔ some s.endAtom.nest = _
  cases ho : s.endAtom.openings with
  | nil => simp [nest, ho, List.reverse_eq_iff]
  | cons o os => simp [nest, ho]

theorem feedAll_lex (s : Scan) (cs : List Char) :
    Nest.feedAll s.nest (lex s.mode cs) = (run s cs).toOption.map (·.endAtom.nest) := by
  induction cs generalizing s with
  | nil => exact feedAll_pending s
  | cons c cs ih =>
      have hrun : run s (c :: cs) = step s c >>= (run · cs) := rfl
      rw [hrun]
      by_cases hm : s.mode = .comment
      · rw [step_comment hm, hm, lex_comment]
        exact ih { s with
          mode := if c = '\n' then .gap else .comment, position := s.position.next c }
      · rw [step_plain hm]
        by_cases hc : c ∈ Token.delimiters
        · rw [lex_delimiter hm hc, Nest.feedAll_append, Nest.feedAll_append, feedAll_pending,
            Option.bind_some]
          obtain ⟨t, ht, hfeed, hmode⟩ | ⟨⟨e, he⟩, hfeed⟩ := read_delimiter hm hc
          · rw [ht, hfeed, ← hmode]
            exact ih { t with position := s.position.next c }
          · rw [he, hfeed]
            rfl
        · rw [lex_atomChar hm hc, read_atomChar hm hc]
          exact ih { s with mode := .atom (c :: s.mode.latest), position := s.position.next c }

theorem run_finish_eq_ok_iff {s : Scan} {cs : List Char} {fs : List Form} :
    (run s cs >>= finish) = .ok fs ↔
      Nest.feedAll s.nest (lex s.mode cs) = some ([], fs.reverse) := by
  rw [feedAll_lex]
  cases run s cs with
  | error e => exact ⟨nofun, nofun⟩
  | ok t =>
      change t.finish = .ok fs ↔ some t.endAtom.nest = some ([], fs.reverse)
      rw [finish_eq_ok_iff, feedAll_pending]

end Scan

/-- A text is read as the forms whose tokens it is cut into. -/
theorem readForms_eq_ok_iff {source : String} {fs : List Form} :
    readForms source = .ok fs ↔ lex .gap source.toList = Form.tokensAll fs :=
  Scan.run_finish_eq_ok_iff.trans Nest.feedAll_eq_some_iff

end SmallLisp
