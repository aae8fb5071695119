import SmallLisp.Proofs.Repl.Buffer
import SmallLisp.Repl
import Mathlib.Data.List.Forall2

namespace SmallLisp

namespace Text

variable {α : Type} {sep : α}

theorem intercalate_append {xs ys : List (List α)} (hxs : xs ≠ []) (hys : ys ≠ []) :
    [sep].intercalate (xs ++ ys) = [sep].intercalate xs ++ sep :: [sep].intercalate ys := by
  obtain ⟨y, ys, rfl⟩ := List.exists_cons_of_ne_nil hys
  induction xs with
  | nil => exact absurd rfl hxs
  | cons x xs ih =>
      cases xs with
      | nil => simp
      | cons x' xs =>
          have ih := ih (List.cons_ne_nil _ _)
          rw [List.cons_append] at ih
          rw [List.cons_append, List.cons_append, List.intercalate_cons_cons, ih,
            List.intercalate_cons_cons]
          simp

theorem mem_intercalate {ls : List (List α)} {a : α} (h : a ∈ [sep].intercalate ls) :
    a = sep ∨ ∃ l ∈ ls, a ∈ l := by
  induction ls with
  | nil => cases h
  | cons l ls ih =>
      cases ls with
      | nil => exact .inr ⟨l, List.mem_cons_self, by simpa using h⟩
      | cons k ls =>
          rw [List.intercalate_cons_cons, List.mem_append, List.mem_append, List.mem_singleton] at h
          obtain (h | h) | h := h
          · exact .inr ⟨l, List.mem_cons_self, h⟩
          · exact .inl h
          · exact (ih h).imp_right fun ⟨m, hm, ha⟩ => ⟨m, List.mem_cons_of_mem _ hm, ha⟩

theorem mem_intercalate_of_mem {ls : List (List α)} {l : List α} {a : α} (hl : l ∈ ls)
    (ha : a ∈ l) : a ∈ [sep].intercalate ls := by
  induction ls with
  | nil => cases hl
  | cons k ls ih =>
      cases ls with
      | nil => simpa [List.mem_singleton.1 hl] using ha
      | cons m ls =>
          rw [List.intercalate_cons_cons, List.mem_append]
          obtain rfl | hl := List.mem_cons.1 hl
          · exact .inl (List.mem_append_left _ ha)
          · exact .inr (ih hl)

variable [DecidableEq α]

theorem mem_of_mem_pieces {as p : List α} {a : α} (hp : p ∈ pieces sep as) (ha : a ∈ p) :
    a ∈ as := by
  rw [← intercalate_pieces sep as]
  exact mem_intercalate_of_mem hp ha

theorem pieces_append (as bs : List α) :
    pieces sep (as ++ sep :: bs) = pieces sep as ++ pieces sep bs := by
  induction as with
  | nil => simp only [List.nil_append, pieces, if_true, List.singleton_append]
  | cons a as ih =>
      obtain ⟨p, ps, hp⟩ := List.exists_cons_of_ne_nil (pieces_ne_nil sep as)
      rw [hp] at ih
      by_cases ha : a = sep
      · simp only [List.cons_append, pieces, if_pos ha, ih, hp]
      · simp only [List.cons_append, pieces, if_neg ha, ih, hp]

theorem pieces_of_notMem {as : List α} (h : sep ∉ as) : pieces sep as = [as] := by
  induction as with
  | nil => rfl
  | cons a as ih =>
      rw [List.mem_cons, not_or] at h
      rw [pieces, if_neg (Ne.symm h.1), ih h.2]

theorem pieces_intercalate {ls : List (List α)} (hne : ls ≠ []) (h : ∀ l ∈ ls, sep ∉ l) :
    pieces sep ([sep].intercalate ls) = ls := by
  induction ls with
  | nil => exact absurd rfl hne
  | cons l ls ih =>
      obtain ⟨hl, hls⟩ := List.forall_mem_cons.1 h
      cases ls with
      | nil => rw [List.intercalate_singleton, pieces_of_notMem hl]
      | cons k ls =>
          rw [List.intercalate_cons_cons, List.append_assoc, List.singleton_append, pieces_append,
            pieces_of_notMem hl, ih (List.cons_ne_nil _ _) hls, List.singleton_append]

end Text

/-- The line that `piece` is, without the carriage return that it may end with. -/
def Delivers (piece line : List Char) : Prop := piece = line ∨ piece = line ++ ['\r']

theorem lex_carriageReturn (m : Mode) (cs : List Char) : lex m (cs ++ ['\r']) = lex m cs := by
  induction cs generalizing m with
  | nil =>
      cases m with
      | comment | gap => rfl
      | atom latest => rw [List.nil_append, lex_delimiter (Mode.atom_ne latest) (by decide)]; rfl
  | cons c cs ih =>
      by_cases hm : m = .comment
      · subst hm
        rw [List.cons_append, lex_comment, ih, lex_comment]
      · by_cases hc : c ∈ Token.delimiters
        · rw [List.cons_append, lex_delimiter hm hc, ih, lex_delimiter hm hc]
        · rw [List.cons_append, lex_atomChar hm hc, ih, lex_atomChar hm hc]

theorem Text.trim_carriageReturn (cs : List Char) : trim (cs ++ ['\r']) = trim cs := by
  rw [trim, trim, List.dropWhile_append]
  cases hcs : cs.dropWhile isBlank with
  | nil => rfl
  | cons c rest =>
      rw [if_neg (by simp), List.reverse_append]
      rfl

namespace Delivers

variable {piece line : List Char}

theorem lex (h : Delivers piece line) : lex .gap piece = lex .gap line := by
  obtain rfl | rfl := h
  · rfl
  · exact lex_carriageReturn _ _

theorem trim (h : Delivers piece line) : Text.trim piece = Text.trim line := by
  obtain rfl | rfl := h
  · rfl
  · exact Text.trim_carriageReturn _

theorem subset (h : Delivers piece line) : line ⊆ piece := by
  obtain rfl | rfl := h
  · exact List.Subset.refl _
  · exact List.subset_append_left _ _

theorem flatMap_lex {pieces lines : List (List Char)} (h : List.Forall₂ Delivers pieces lines) :
    pieces.flatMap (SmallLisp.lex .gap) = lines.flatMap (SmallLisp.lex .gap) := by
  induction h with
  | nil => rfl
  | cons h _ ih => rw [List.flatMap_cons, List.flatMap_cons, h.lex, ih]

theorem forall_mem {P : Char → Prop} {pieces lines : List (List Char)}
    (h : List.Forall₂ Delivers pieces lines) (hP : ∀ p ∈ pieces, ∀ c ∈ p, P c) :
    ∀ l ∈ lines, ∀ c ∈ l, P c := by
  induction h with
  | nil => exact nofun
  | cons h _ ih =>
      obtain ⟨hp, hps⟩ := List.forall_mem_cons.1 hP
      exact List.forall_mem_cons.2 ⟨fun c hc => hp c (h.subset hc), ih hps⟩

end Delivers

theorem delivers_ended (line : List Char) :
    Delivers line (if line.getLast? = some '\r' then line.dropLast else line) := by
  split
  · next h => exact .inr (List.dropLast_append_getLast? _ h).symm
  · exact .inl rfl

theorem exists_delivers (cs : List Char) : ∃ rest : List (List Char), (∀ l ∈ rest, l = []) ∧
    List.Forall₂ Delivers (Text.lines cs) (endedLines '\n' '\r' cs ++ rest) := by
  obtain ⟨init, last, hpieces⟩ : ∃ init last, Text.lines cs = init ++ [last] :=
    ⟨_, _, (List.dropLast_append_getLast (Text.pieces_ne_nil '\n' cs)).symm⟩
  have hinit : List.Forall₂ Delivers init (init.map fun line =>
      if line.getLast? = some '\r' then line.dropLast else line) :=
    List.forall₂_map_right_iff.2 (List.forall₂_same.2 fun line _ => delivers_ended line)
  have hended : endedLines '\n' '\r' cs = init.map (fun line =>
      if line.getLast? = some '\r' then line.dropLast else line) ++
        (if last = [] then [] else [last]) := by
    change Text.pieces '\n' cs = _ at hpieces
    rw [endedLines, hpieces, List.dropLast_concat, List.getLast?_concat]
    cases last <;> rfl
  rw [hpieces, hended]
  by_cases hlast : last = []
  · rw [if_pos hlast, List.append_nil]
    refine ⟨[[]], by simp, List.rel_append hinit (.cons (.inl hlast) .nil)⟩
  · rw [if_neg hlast]
    exact ⟨[], by simp, by simpa using List.rel_append hinit (.cons (.inl rfl) .nil)⟩

theorem exists_cut_delivers {cs : List Char} {before after : List (List Char)}
    (h : endedLines '\n' '\r' cs = before ++ after) :
    ∃ before' after' rest : List (List Char), Text.lines cs = before' ++ after' ∧
      List.Forall₂ Delivers before' before ∧ List.Forall₂ Delivers after' (after ++ rest) := by
  obtain ⟨rest, -, hall⟩ := exists_delivers cs
  rw [h, List.append_assoc] at hall
  exact ⟨_, _, rest, (List.take_append_drop before.length _).symm,
    List.forall₂_take_append _ _ _ hall, List.forall₂_drop_append _ _ _ hall⟩

def deliveredText (cs : List Char) : List Char := ['\n'].intercalate (endedLines '\n' '\r' cs)

theorem lex_endedLines (cs : List Char) :
    lex .gap cs = (endedLines '\n' '\r' cs).flatMap (lex .gap) := by
  obtain ⟨rest, hrest, hall⟩ := exists_delivers cs
  have hnil : rest.flatMap (lex .gap) = [] :=
    List.flatMap_eq_nil_iff.2 fun l hl => by rw [hrest l hl]; rfl
  rw [lex_lines, Delivers.flatMap_lex hall, List.flatMap_append, hnil, List.append_nil]

theorem lex_deliveredText (cs : List Char) : lex .gap (deliveredText cs) = lex .gap cs := by
  rw [lex_endedLines cs, deliveredText]
  by_cases hne : endedLines '\n' '\r' cs = []
  · rw [hne]
    rfl
  · exact lex_intercalate hne

theorem forall_mem_delivered {P : Char → Prop} {cs l : List Char} (hP : ∀ c ∈ cs, P c)
    (hl : l ∈ endedLines '\n' '\r' cs) : ∀ c ∈ l, P c := by
  obtain ⟨rest, -, hall⟩ := exists_delivers cs
  refine Delivers.forall_mem hall (fun p hp c hc => hP c ?_) l (List.mem_append_left _ hl)
  exact Text.mem_of_mem_pieces hp hc

theorem forall_mem_deliveredText {P : Char → Prop} {cs : List Char} (hP : ∀ c ∈ cs, P c)
    (hlf : P '\n') : ∀ c ∈ deliveredText cs, P c := by
  intro c hc
  obtain rfl | ⟨l, hl, hc⟩ := Text.mem_intercalate hc
  · exact hlf
  · exact forall_mem_delivered hP hl c hc

theorem lineFeed_notMem_delivered {cs l : List Char} (hl : l ∈ endedLines '\n' '\r' cs) :
    '\n' ∉ l := by
  obtain ⟨rest, -, hall⟩ := exists_delivers cs
  have hfree := Delivers.forall_mem (P := (· ≠ '\n')) hall fun p hp c hc he =>
    Text.sep_notMem_of_mem_pieces hp (he ▸ hc)
  exact fun hmem => hfree l (List.mem_append_left _ hl) _ hmem rfl

theorem splitQuote_of_deliveredText {cs : List Char} (h : SplitQuote (deliveredText cs)) :
    SplitQuote cs := by
  obtain ⟨before, after, htext, hb, hq⟩ := h
  have hne : endedLines '\n' '\r' cs ≠ [] := by
    intro hnil
    rw [deliveredText, hnil] at htext
    exact List.append_ne_nil_of_right_ne_nil _ (List.cons_ne_nil _ _) htext.symm
  have hcut : endedLines '\n' '\r' cs = Text.pieces '\n' before ++ Text.pieces '\n' after := by
    rw [← Text.pieces_append, ← htext]
    exact (Text.pieces_intercalate hne fun l hl => lineFeed_notMem_delivered hl).symm
  obtain ⟨before', after', rest, hlines, hbefore, hafter⟩ := exists_cut_delivers hcut
  have hne₁ : before' ≠ [] := by
    rintro rfl
    exact Text.pieces_ne_nil _ _ (List.forall₂_nil_left_iff.1 hbefore)
  have hne₂ : after' ≠ [] := by
    rintro rfl
    exact Text.pieces_ne_nil _ _ (List.append_eq_nil_iff.1 (List.forall₂_nil_left_iff.1 hafter)).1
  have hlex : lex .gap (['\n'].intercalate before') = lex .gap before := by
    rw [lex_intercalate hne₁, Delivers.flatMap_lex hbefore]
    exact (lex_lines before).symm
  refine ⟨['\n'].intercalate before', ['\n'].intercalate after', ?_, by rwa [hlex], by rwa [hlex]⟩
  rw [← Text.intercalate_append hne₁ hne₂, ← hlines]
  exact (Text.intercalate_pieces '\n' cs).symm

end SmallLisp
