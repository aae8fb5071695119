import Mathlib.Tactic.SplitIfs
import SmallLisp.Json.Text
import SmallLisp.Json.Token

namespace SmallLisp.Json

variable {c : Char} {word rest latest : List Char} {v : Json}

def Ends (cs : List Char) : Prop := ∀ c ∈ cs.head?, isSpace c ∨ isDelimiter c

structure IsPlain (c : Char) : Prop where
  space : isSpace c = false
  delimiter : isDelimiter c = false
  quote : c ≠ '"'

instance (c : Char) : Decidable (IsPlain c) :=
  decidable_of_iff (isSpace c = false ∧ isDelimiter c = false ∧ c ≠ '"')
    ⟨fun ⟨hs, hd, hq⟩ => ⟨hs, hd, hq⟩, fun h => ⟨h.space, h.delimiter, h.quote⟩⟩

theorem ends_delimiter (h : isDelimiter c) (cs : List Char) : Ends (c :: cs) := by
  rintro _ ⟨⟩
  exact .inr h

theorem ends_newlineOnto (level : Nat) (cs : List Char) : Ends (newlineOnto level cs) := by
  rintro _ ⟨⟩
  exact .inl rfl

theorem isSpace_of_isDelimiter (h : isDelimiter c) : isSpace c = false := by
  simp only [isDelimiter, Bool.or_eq_true, decide_eq_true_eq] at h
  rcases h with ((((rfl | rfl) | rfl) | rfl) | rfl) | rfl <;> rfl

theorem toNat?_unit {n : Nat} (h : n < 256) :
    Hex.toNat? ['0', '0', (n / 16).digitChar, (n % 16).digitChar] = some n := by
  have hhigh := Hex.digitValue?_digitChar (show n / 16 < 16 by omega)
  have hlow := Hex.digitValue?_digitChar (show n % 16 < 16 by omega)
  have hzero : Hex.digitValue? '0' = some 0 := rfl
  simp [Hex.toNat?, hzero, hhigh, hlow]
  omega

namespace Cut

variable {s t : Cut}

theorem tokens?_of_step {ts : List Token} (h : s.step c = some (t, ts)) (cs : List Char) :
    s.tokens? (c :: cs) = (t.tokens? cs).map (ts ++ ·) := by
  rw [tokens?, h]

theorem tokens?_of_quiet (h : s.step c = some (t, [])) (cs : List Char) :
    s.tokens? (c :: cs) = t.tokens? cs := by
  rw [tokens?_of_step h]
  exact Option.map_id'

theorem tokens?_space (h : isSpace c) (cs : List Char) :
    gap.tokens? (c :: cs) = gap.tokens? cs := by
  have hstep : gap.step c = some (gap, []) := by simp [step, h]
  exact tokens?_of_quiet hstep cs

theorem tokens?_append_space (h : isSpace c) {cs : List Char} {ts : List Token}
    (hts : s.tokens? cs = some ts) : s.tokens? (cs ++ [c]) = some ts := by
  induction cs generalizing s ts with
  | nil =>
      cases s with
      | gap =>
          cases hts
          exact tokens?_space h []
      | bare latest =>
          obtain ⟨v, hv, rfl⟩ := Option.map_eq_some_iff.1 hts
          have hstep : (bare latest).step c = some (gap, [.scalar v]) := by simp [step, h, hv]
          exact tokens?_of_step hstep []
      | string | escape | unit => cases hts
  | cons d cs ih =>
      rw [tokens?] at hts
      cases hstep : s.step d with
      | none =>
          rw [hstep] at hts
          cases hts
      | some r =>
          rw [hstep] at hts
          obtain ⟨us, hus, rfl⟩ := Option.map_eq_some_iff.1 hts
          rw [List.cons_append, tokens?_of_step hstep, ih hus]
          rfl

theorem tokens?_delimiter (h : isDelimiter c) (cs : List Char) :
    gap.tokens? (c :: cs) = (gap.tokens? cs).map (delimiter c :: ·) := by
  have hstep : gap.step c = some (gap, [delimiter c]) := by
    simp [step, h, isSpace_of_isDelimiter h]
  exact tokens?_of_step hstep cs

/-- The token of a word is complete only when the next character is seen. -/
theorem tokens?_bare (hends : Ends rest) (hv : bareValue? latest.reverse = some v) :
    (bare latest).tokens? rest = (gap.tokens? rest).map (.scalar v :: ·) := by
  cases rest with
  | nil => simp [tokens?, finish, hv]
  | cons c rest =>
      obtain hc | hc := hends c rfl
      · have hstep : (bare latest).step c = some (gap, [.scalar v]) := by simp [step, hc, hv]
        rw [tokens?_of_step hstep, tokens?_space hc]
        rfl
      · have hstep : (bare latest).step c = some (gap, [.scalar v, delimiter c]) := by
          simp [step, hc, hv, isSpace_of_isDelimiter hc]
        rw [tokens?_of_step hstep, tokens?_delimiter hc, Option.map_map]
        rfl

theorem tokens?_plain (hword : ∀ c ∈ word, IsPlain c) (latest rest : List Char) :
    (bare latest).tokens? (word ++ rest) = (bare (word.reverse ++ latest)).tokens? rest := by
  induction word generalizing latest with
  | nil => rfl
  | cons c word ih =>
      obtain ⟨hc, hword⟩ := List.forall_mem_cons.1 hword
      have hstep : (bare latest).step c = some (bare (c :: latest), []) := by
        simp [step, hc.space, hc.delimiter, hc.quote]
      rw [List.cons_append, tokens?_of_quiet hstep, ih hword, List.reverse_cons, List.append_assoc]
      rfl

theorem tokens?_word (hne : word ≠ []) (hword : ∀ c ∈ word, IsPlain c) (hends : Ends rest)
    (hv : bareValue? word = some v) :
    gap.tokens? (word ++ rest) = (gap.tokens? rest).map (.scalar v :: ·) := by
  obtain ⟨c, word, rfl⟩ := List.exists_cons_of_ne_nil hne
  obtain ⟨hc, hword⟩ := List.forall_mem_cons.1 hword
  have hstep : gap.step c = some (bare [c], []) := by
    simp [step, hc.space, hc.delimiter, hc.quote]
  rw [List.cons_append, tokens?_of_quiet hstep, tokens?_plain hword]
  exact tokens?_bare hends (by simpa using hv)

theorem tokens?_escape (c : Char) (latest rest : List Char) :
    (string latest none).tokens? (Json.escape c ++ rest) =
      (string (c :: latest) none).tokens? rest := by
  have hletter {d : Char} (hne : d ≠ 'u') (hd : unescape? d = some c) :
      (string latest none).tokens? ('\\' :: d :: rest) = (string (c :: latest) none).tokens? rest := by
    have hstep : (Cut.escape latest none).step d = some (string (c :: latest) none, []) := by
      simp [step, hne, hd]
    rw [tokens?_of_quiet (t := .escape latest none) rfl, tokens?_of_quiet hstep]
  unfold Json.escape
  split_ifs with hquote hbackslash hnewline hreturn htab hbackspace hfeed hcontrol
  · exact hletter (by decide) (by rw [hquote]; rfl)
  · exact hletter (by decide) (by rw [hbackslash]; rfl)
  · exact hletter (by decide) (by rw [hnewline]; rfl)
  · exact hletter (by decide) (by rw [hreturn]; rfl)
  · exact hletter (by decide) (by rw [htab]; rfl)
  · exact hletter (by decide) (by rw [← Char.ofNat_toNat c, hbackspace]; rfl)
  · exact hletter (by decide) (by rw [← Char.ofNat_toNat c, hfeed]; rfl)
  · have hvalid : c.toNat.isValidChar := .inl (by omega)
    have hunit : addUnit latest none c.toNat = some (string (c :: latest) none) := by
      have hsurrogate : ¬ (0xD800 ≤ c.toNat ∧ c.toNat < 0xDC00) := by omega
      rw [addUnit, if_neg hsurrogate, Hex.scalar?, if_pos hvalid, Char.ofNat_toNat]
      rfl
    have hhigh := Hex.digitValue?_digitChar (show c.toNat / 16 < 16 by omega)
    have hlast : (unit latest none ['0', '0', (c.toNat / 16).digitChar]).step
        (c.toNat % 16).digitChar = some (string (c :: latest) none, []) := by
      simp [step, toNat?_unit (show c.toNat < 256 by omega), hunit]
    simp only [List.cons_append, List.nil_append]
    rw [tokens?_of_quiet (t := .escape latest none) rfl,
      tokens?_of_quiet (t := .unit latest none []) rfl,
      tokens?_of_quiet (t := .unit latest none ['0']) rfl,
      tokens?_of_quiet (t := .unit latest none ['0', '0']) rfl,
      tokens?_of_quiet (t := .unit latest none ['0', '0', (c.toNat / 16).digitChar])
        (by simp [step, hhigh]), tokens?_of_quiet hlast]
  · have hstep : (string latest none).step c = some (string (c :: latest) none, []) := by
      simp [step, hquote, hbackslash, hcontrol]
    exact tokens?_of_quiet hstep rest

theorem tokens?_escapes (cs latest rest : List Char) :
    (string latest none).tokens? (cs.flatMap Json.escape ++ rest) =
      (string (cs.reverse ++ latest) none).tokens? rest := by
  induction cs generalizing latest with
  | nil => rfl
  | cons c cs ih =>
      rw [List.flatMap_cons, List.append_assoc, tokens?_escape, ih, List.reverse_cons,
        List.append_assoc]
      rfl

/-- A string in quotes is one token, whatever follows it. -/
theorem tokens?_quoteOnto (s : String) (rest : List Char) :
    gap.tokens? (quoteOnto s rest) = (gap.tokens? rest).map (.scalar (.string s) :: ·) := by
  have hopen : gap.step '"' = some (string [] none, []) := rfl
  have hclose : (string s.toList.reverse none).step '"' = some (gap, [.scalar (.string s)]) := by
    simp [step]
  rw [quoteOnto, tokens?_of_quiet hopen, tokens?_escapes, List.append_nil, tokens?_of_step hclose]
  rfl

end Cut

end SmallLisp.Json
