import SmallLisp.Proofs.Reader.Rendering
import SmallLisp.Repl.Buffer

namespace SmallLisp

/-- Opening minus closing parentheses. -/
def balance (ts : List Token) : Int := (ts.count .opening : Int) - (ts.count .closing : Int)

theorem balance_append (ts us : List Token) : balance (ts ++ us) = balance ts + balance us := by
  simp only [balance, List.count_append, Int.natCast_add]
  omega

theorem lex_newline (m : Mode) (cs ds : List Char) :
    lex m (cs ++ '\n' :: ds) = lex m cs ++ lex .gap ds := by
  induction cs generalizing m with
  | nil =>
      cases m with
      | comment => rfl
      | gap => rfl
      | atom latest => rw [List.nil_append, lex_delimiter (Mode.atom_ne latest) (by decide)]; rfl
  | cons c cs ih =>
      by_cases hm : m = .comment
      · subst hm
        rw [List.cons_append, lex_comment, ih, lex_comment]
      · by_cases hc : c ∈ Token.delimiters
        · simp only [List.cons_append, lex_delimiter hm hc, ih, List.append_assoc]
        · rw [List.cons_append, lex_atomChar hm hc, ih, lex_atomChar hm hc]

theorem lex_intercalate {ls : List (List Char)} (h : ls ≠ []) :
    lex .gap (['\n'].intercalate ls) = ls.flatMap (lex .gap) := by
  induction ls with
  | nil => exact absurd rfl h
  | cons l ls ih =>
      cases ls with
      | nil => simp
      | cons k ls =>
          rw [List.intercalate_cons_cons, List.append_assoc, List.singleton_append, lex_newline,
            ih (List.cons_ne_nil k ls)]
          rfl

theorem lex_lines (cs : List Char) : lex .gap cs = (Text.lines cs).flatMap (lex .gap) := by
  have h := lex_intercalate (Text.pieces_ne_nil '\n' cs)
  rwa [Text.intercalate_pieces] at h

/-- Texts with a line feed between them are read as the nodes of the one and then of the other. -/
theorem readAll_newline {a b : String} {ns ms : List Node} (ha : readAll a = .ok ns)
    (hb : readAll b = .ok ms) : readAll (a ++ "\n" ++ b) = .ok (ns ++ ms) := by
  obtain ⟨fs, hfs, hns⟩ := readAll_iff_forms.1 ha
  obtain ⟨gs, hgs, hms⟩ := readAll_iff_forms.1 hb
  rw [readForms_eq_ok_iff] at hfs hgs
  have htext : (a ++ "\n" ++ b).toList = a.toList ++ '\n' :: b.toList := by simp
  have hlex : lex .gap (a ++ "\n" ++ b).toList = Form.tokensAll (fs ++ gs) := by
    rw [htext, lex_newline, hfs, hgs, Form.tokensAll_append]
  exact readAll_iff_forms.2 ⟨fs ++ gs, readForms_eq_ok_iff.2 hlex,
    Form.nodes_append_eq_ok_iff.2 ⟨ns, ms, hns, hms, rfl⟩⟩

theorem count_delimiterToken {t : Token} {d : Char} (ht : t.isAtom = false) (hd : t.chars = [d])
    {c : Char} (hc : c ∈ Token.delimiters) : (delimiterToken c).count t = [c].count d := by
  cases t with
  | atom => cases ht
  | opening | closing | quote =>
      cases hd
      simp only [Token.delimiters, List.mem_cons, List.not_mem_nil, or_false] at hc
      rcases hc with rfl | rfl | rfl | rfl | rfl | rfl | rfl | rfl <;> decide

theorem count_pending (m : Mode) {t : Token} (ht : t.isAtom = false) : m.pending.count t = 0 := by
  cases m with
  | gap | comment => rfl
  | atom latest =>
      rw [Mode.pending, List.count_singleton, if_neg]
      intro h
      rw [← eq_of_beq h] at ht
      cases ht

theorem count_lex_line {t : Token} {d : Char} (ht : t.isAtom = false) (hd : t.chars = [d])
    {m : Mode} (hm : m ≠ .comment) {line : List Char} (hl : '\n' ∉ line) :
    (lex m line).count t = (withoutComment line).count d := by
  induction line generalizing m with
  | nil => exact count_pending m ht
  | cons c cs ih =>
      rw [List.mem_cons, not_or] at hl
      obtain ⟨e, hde, hmem, -, hne⟩ := Token.eq_delimiter ht
      obtain rfl : d = e := List.singleton_inj.1 (hd.symm.trans hde)
      by_cases hc : c ∈ Token.delimiters
      · rw [lex_delimiter hm hc, List.count_append, List.count_append, count_pending m ht,
          count_delimiterToken ht hd hc]
        by_cases hs : c = ';'
        · subst hs
          have hcomment := lex_body hl.2 []
          rw [List.append_nil] at hcomment
          rw [if_pos rfl, hcomment]
          simp [withoutComment, lex, Mode.pending, hne.symm]
        · rw [if_neg hs, ih Mode.gap_ne hl.2]
          simp only [withoutComment, List.takeWhile_cons, ne_eq, hs, not_false_eq_true, decide_true,
            if_true, List.count_cons, List.count_nil]
          omega
      · have hs : c ≠ ';' := fun h => hc (h ▸ semicolon_mem)
        have hcd : c ≠ d := fun h => hc (h ▸ hmem)
        rw [lex_atomChar hm hc, ih (Mode.atom_ne _) hl.2]
        simp [withoutComment, hs, hcd]

theorem count_flatMap_lex {t : Token} {d : Char} (ht : t.isAtom = false) (hd : t.chars = [d])
    {ls : List (List Char)} (h : ∀ l ∈ ls, '\n' ∉ l) :
    (ls.flatMap (lex .gap)).count t = (ls.flatMap withoutComment).count d := by
  rw [List.count_flatMap, List.count_flatMap]
  refine congrArg List.sum (List.map_congr_left fun line hline => ?_)
  exact count_lex_line ht hd Mode.gap_ne (h line hline)

theorem count_lex {t : Token} {d : Char} (ht : t.isAtom = false) (hd : t.chars = [d])
    (cs : List Char) :
    (lex .gap cs).count t = ((Text.lines cs).flatMap withoutComment).count d := by
  rw [lex_lines]
  exact count_flatMap_lex ht hd fun _ => Text.sep_notMem_of_mem_pieces

theorem parenBalance_eq (source : String) :
    parenBalance source = balance (lex .gap source.toList) := by
  rw [balance, count_lex (d := '(') rfl rfl, count_lex (d := ')') rfl rfl]
  rfl

namespace Form

mutual

theorem balance_tokens : (f : Form) → balance f.tokens = 0
  | .atom cs => by simp [tokens, balance]
  | .quoted f => by
      have h := balance_tokens f
      rw [tokens, ← List.singleton_append, balance_append, h]
      rfl
  | .list items => by
      have h := balance_tokensAll items
      rw [tokens, ← List.singleton_append, balance_append, balance_append, h]
      rfl

theorem balance_tokensAll : (fs : List Form) → balance (tokensAll fs) = 0
  | [] => rfl
  | f :: fs => by rw [tokensAll, balance_append, balance_tokens f, balance_tokensAll fs]; rfl

end

theorem tokens_ne_nil (f : Form) : f.tokens ≠ [] := by
  cases f <;> exact List.cons_ne_nil _ _

theorem closing_not_head (f : Form) (ts us : List Token) : f.tokens ++ ts ≠ .closing :: us := by
  cases f <;> exact nofun

mutual

theorem tokens_append_inj : (f g : Form) → {ts us : List Token} →
    f.tokens ++ ts = g.tokens ++ us → f = g ∧ ts = us
  | .atom cs, .atom ds, ts, us, h => by
      obtain ⟨hc, ht⟩ := List.cons.inj h
      cases hc
      exact ⟨rfl, ht⟩
  | .quoted f, .quoted g, ts, us, h => by
      obtain ⟨rfl, ht⟩ := tokens_append_inj f g (List.cons.inj h).2
      exact ⟨rfl, ht⟩
  | .list fs, .list gs, ts, us, h => by
      simp only [tokens, List.cons_append, List.append_assoc, List.cons.injEq, true_and] at h
      obtain ⟨rfl, ht⟩ := tokensAll_closing_inj fs gs h
      exact ⟨rfl, ht⟩
  | .atom _, .quoted _, _, _, h | .atom _, .list _, _, _, h
  | .quoted _, .atom _, _, _, h | .quoted _, .list _, _, _, h
  | .list _, .atom _, _, _, h | .list _, .quoted _, _, _, h => nomatch (List.cons.inj h).1

theorem tokensAll_closing_inj : (fs gs : List Form) → {ts us : List Token} →
    tokensAll fs ++ .closing :: ts = tokensAll gs ++ .closing :: us → fs = gs ∧ ts = us
  | [], [], _, _, h => ⟨rfl, (List.cons.inj h).2⟩
  | [], g :: gs, ts, us, h => by
      simp only [tokensAll, List.nil_append, List.append_assoc] at h
      exact absurd h.symm (closing_not_head g _ _)
  | f :: fs, [], ts, us, h => by
      simp only [tokensAll, List.nil_append, List.append_assoc] at h
      exact absurd h (closing_not_head f _ _)
  | f :: fs, g :: gs, ts, us, h => by
      rw [tokensAll, tokensAll, List.append_assoc, List.append_assoc] at h
      obtain ⟨rfl, htail⟩ := tokens_append_inj f g h
      obtain ⟨rfl, ht⟩ := tokensAll_closing_inj fs gs htail
      exact ⟨rfl, ht⟩

end

theorem exists_of_tokensAll_eq_append {fs gs : List Form} {us : List Token}
    (h : tokensAll fs = tokensAll gs ++ us) : ∃ hs, fs = gs ++ hs ∧ us = tokensAll hs := by
  induction gs generalizing fs with
  | nil => exact ⟨fs, rfl, h.symm⟩
  | cons g gs ih =>
      rw [tokensAll, List.append_assoc] at h
      cases fs with
      | nil => exact absurd h.symm (List.append_ne_nil_of_left_ne_nil (tokens_ne_nil g) _)
      | cons f fs =>
          obtain ⟨rfl, htail⟩ := tokens_append_inj f g h
          obtain ⟨hs, rfl, hu⟩ := ih htail
          exact ⟨hs, rfl, hu⟩

end Form

namespace Nest

def depth (os : List Opening) : Nat := os.countP fun | .list _ => true | .quote => false

theorem balance_tokens (os : List Opening) (fs : List Form) :
    balance (tokens os fs) = depth os := by
  induction os generalizing fs with
  | nil => exact Form.balance_tokensAll _
  | cons o os ih =>
      cases o with
      | quote =>
          rw [tokens, balance_append, ih]
          rfl
      | list before =>
          rw [tokens, ← List.singleton_append, balance_append, balance_append, ih,
            Form.balance_tokensAll, depth, depth, List.countP_cons_of_pos rfl]
          rfl

theorem balance_nonneg {fs : List Form} {ts us : List Token} (h : Form.tokensAll fs = ts ++ us) :
    0 ≤ balance ts := by
  have hfeed := feedAll_eq_some_iff.2 h.symm
  rw [feedAll_append] at hfeed
  obtain ⟨x, hx, -⟩ := Option.bind_eq_some_iff.1 hfeed
  have htokens := tokens_feedAll hx
  rw [← List.nil_append ts, ← show tokens [] [] = [] from rfl, ← htokens, balance_tokens]
  exact Int.natCast_nonneg _

end Nest

/-- Forms can be cut where the parentheses are balanced and no quote waits for its operand. -/
theorem Form.exists_cut {fs : List Form} {ts us : List Token} (h : tokensAll fs = ts ++ us)
    (hb : balance ts = 0) (hq : ts.getLast? ≠ some .quote) :
    ∃ gs hs, fs = gs ++ hs ∧ ts = tokensAll gs ∧ us = tokensAll hs := by
  have hfeed := Nest.feedAll_eq_some_iff.2 h.symm
  rw [Nest.feedAll_append] at hfeed
  obtain ⟨⟨os, gs⟩, hx, -⟩ := Option.bind_eq_some_iff.1 hfeed
  have hts : Nest.tokens os gs = ts := Nest.tokens_feedAll hx
  -- the innermost opening is a list, which counts for the balance, or a quote, which comes last
  have hos : os = [] := by
    cases os with
    | nil => rfl
    | cons o os =>
        cases o with
        | quote => exact absurd (by rw [← hts, Nest.tokens, List.getLast?_concat]) hq
        | list before =>
            rw [← hts, Nest.balance_tokens, Nest.depth, List.countP_cons_of_pos rfl] at hb
            omega
  subst hos
  obtain ⟨hs, hfs, hus⟩ := exists_of_tokensAll_eq_append (hts.symm ▸ h)
  exact ⟨gs.reverse, hs, hfs, hts.symm, hus⟩

theorem parenBalance_of_readForms {source : String} {fs : List Form}
    (h : readForms source = .ok fs) : parenBalance source = 0 := by
  rw [parenBalance_eq, readForms_eq_ok_iff.1 h, Form.balance_tokensAll]

theorem parenBalance_of_readAll {source : String} {ns : List Node} (h : readAll source = .ok ns) :
    parenBalance source = 0 := by
  obtain ⟨fs, hfs, -⟩ := readAll_iff_forms.1 h
  exact parenBalance_of_readForms hfs

end SmallLisp
