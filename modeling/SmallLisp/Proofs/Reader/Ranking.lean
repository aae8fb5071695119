import SmallLisp.Proofs.Operation
import SmallLisp.Proofs.Reader.Position
import SmallLisp.Proofs.Reader.Printing

namespace SmallLisp

namespace Token

def OutOfRange (t : Token) : Prop := ∃ n, Numeral t.chars n ∧ ¬ (-2 ^ 63 ≤ n ∧ n < 2 ^ 63)

def refusal (t : Token) : ReadError :=
  if t.chars.head? = some '-' then .integerTooSmall (.ofList t.chars)
  else .integerTooLarge (.ofList t.chars)

theorem outOfRange_iff {t : Token} :
    t.OutOfRange ↔ ∃ n, Decimal.toInt? t.chars = some n ∧ ¬ Integer.Fits n := by
  simp only [OutOfRange, toInt?_eq_some_iff, Integer.fits_iff_bounds]

instance (t : Token) : Decidable t.OutOfRange :=
  match h : Decimal.toInt? t.chars with
  | none => isFalse (by simp [outOfRange_iff, h])
  | some n => decidable_of_iff (¬ Integer.Fits n) (by simp [outOfRange_iff, h])

theorem not_outOfRange {t : Token} (h : t.isAtom = false) : ¬ t.OutOfRange := by
  rw [outOfRange_iff]
  cases t with
  | atom => cases h
  | opening | closing | quote =>
      rintro ⟨n, hn, -⟩
      cases hn

theorem neg_iff_of_not_fits {cs : List Char} {n : Int} (h : Numeral cs n) (hn : ¬ Integer.Fits n) :
    n < 0 ↔ cs.head? = some '-' := by
  rw [Integer.fits_iff_bounds] at hn
  cases h with
  | @plain ds hds =>
      obtain ⟨d, ds, rfl⟩ := List.exists_cons_of_ne_nil hds.1
      have hd : d ≠ '-' := by
        rintro rfl
        exact absurd (hds.2 '-' List.mem_cons_self) (by decide)
      exact iff_of_false (Int.not_lt.2 (Int.natCast_nonneg _)) (by simpa using hd)
  | plus hds => simp
  | minus hds =>
      refine iff_of_true ?_ rfl
      omega

end Token

/-- What reading comes to, given the first token that is out of range. -/
inductive Refused {α : Type} : Option Token → Except ReadError α → Prop
  | read (a : α) : Refused none (.ok a)
  | refused (t : Token) : Refused (some t) (.error t.refusal)

theorem Refused.bind {α β : Type} {o o' : Option Token} {x : Except ReadError α}
    {f : α → Except ReadError β} (h : Refused o x) (hf : ∀ a, Refused o' (f a)) :
    Refused (o.or o') (x >>= f) := by
  cases h with
  | read a => exact hf a
  | refused t => exact .refused t

namespace Form

def firstOutOfRange (ts : List Token) : Option Token := ts.find? (·.OutOfRange)

theorem firstOutOfRange_append (ts us : List Token) :
    firstOutOfRange (ts ++ us) = (firstOutOfRange ts).or (firstOutOfRange us) :=
  List.find?_append

theorem firstOutOfRange_cons {t : Token} (h : t.isAtom = false) (ts : List Token) :
    firstOutOfRange (t :: ts) = firstOutOfRange ts :=
  List.find?_cons_of_neg (by simpa using Token.not_outOfRange h)

theorem firstOutOfRange_eq_none {ts : List Token} :
    firstOutOfRange ts = none ↔ ∀ t ∈ ts, ¬ t.OutOfRange := by
  simp [firstOutOfRange]

theorem firstOutOfRange_eq_some {before after : List Token} {t : Token}
    (h : ∀ u ∈ before, ¬ u.OutOfRange) (ht : t.OutOfRange) :
    firstOutOfRange (before ++ t :: after) = some t := by
  rw [firstOutOfRange_append, firstOutOfRange_eq_none.2 h, Option.none_or]
  exact List.find?_cons_of_pos (by simpa using ht)

theorem refused_atomNode (cs : List Char) : Refused (firstOutOfRange [.atom cs]) (atomNode cs) := by
  by_cases h : (Token.atom cs).OutOfRange
  · obtain ⟨n, hn, hfits⟩ := Token.outOfRange_iff.1 h
    have hnum : Numeral cs n := toInt?_eq_some_iff.1 hn
    obtain ⟨ht, hf⟩ := hnum.ne_boolean
    have hfirst : firstOutOfRange [.atom cs] = some (.atom cs) := by
      simp [firstOutOfRange, h]
    have hatom : atomNode cs = .error (Token.atom cs).refusal := by
      rw [atomNode, if_neg ht, if_neg hf, toInt?_eq_some_iff.2 hnum]
      simp only [Integer.ofInt?_eq_none.2 hfits, Token.neg_iff_of_not_fits hnum hfits]
      rw [Token.refusal]
      rfl
    rw [hfirst, hatom]
    exact .refused _
  · have hfirst : firstOutOfRange [.atom cs] = none := by simp [firstOutOfRange, h]
    have hfits {n : Int} (hn : Decimal.toInt? cs = some n) : Integer.ofInt? n ≠ none := fun hnone =>
      h (Token.outOfRange_iff.2 ⟨n, hn, Integer.ofInt?_eq_none.1 hnone⟩)
    rw [hfirst, atomNode]
    split
    · exact .read _
    · split
      · exact .read _
      · split
        · exact .read _
        · next n hn =>
            split
            · exact .read _
            · next hnone => exact absurd hnone (hfits hn)

mutual

theorem refused_node : (f : Form) → Refused (firstOutOfRange f.tokens) f.node
  | .atom cs => refused_atomNode cs
  | .list items => by
      rw [tokens, firstOutOfRange_cons rfl, firstOutOfRange_append, firstOutOfRange_cons rfl]
      exact (refused_nodes items).bind fun ns => .read (Node.list ns)
  | .quoted f => by
      rw [tokens, firstOutOfRange_cons rfl, ← Option.or_none (o := firstOutOfRange f.tokens)]
      exact (refused_node f).bind fun n => .read n.quoted

theorem refused_nodes : (fs : List Form) → Refused (firstOutOfRange (tokensAll fs)) (nodes fs)
  | [] => .read []
  | f :: fs => by
      rw [tokensAll, firstOutOfRange_append, ← Option.or_none (o := firstOutOfRange (tokensAll fs))]
      exact (refused_node f).bind fun n => (refused_nodes fs).bind fun ns => .read (n :: ns)

end

end Form

/-- The forms that a text is written with, whatever its integers are. -/
structure Parses (source : String) (fs : List Form) : Prop where
  layout : Layout false (Form.tokensAll fs) source.toList
  valid : ∀ t ∈ Form.tokensAll fs, t.Valid

theorem readForms_eq_ok_iff_parses {source : String} {fs : List Form} :
    readForms source = .ok fs ↔ Parses source fs :=
  readForms_eq_ok_iff.trans <| lex_eq_iff.trans ⟨fun h => ⟨h.1, h.2⟩, fun h => ⟨h.1, h.2⟩⟩

theorem Parses.refused {source : String} {fs : List Form} (h : Parses source fs) :
    Refused (Form.firstOutOfRange (Form.tokensAll fs)) (readAll source) := by
  rw [readAll, readForms_eq_ok_iff_parses.2 h]
  exact Form.refused_nodes fs

theorem readAll_unexpected_iff {source : String} :
    (∃ p x, readAll source = .error (.unexpected p x)) ↔ ¬ ∃ fs, Parses source fs := by
  simp only [← readForms_eq_ok_iff_parses]
  cases h : readForms source with
  | ok fs =>
      refine iff_of_false ?_ fun hno => hno ⟨fs, rfl⟩
      rintro ⟨p, x, hx⟩
      rw [readAll, h] at hx
      obtain ⟨token, ht | ht⟩ := Form.error_of_nodes fs hx <;> cases ht
  | error e =>
      obtain ⟨before, after, s, -, hwrong⟩ := goesWrong_of_error h
      obtain ⟨x, rfl⟩ := hwrong.place
      refine iff_of_true ⟨_, x, by rw [readAll, h]; rfl⟩ ?_
      rintro ⟨fs, ⟨⟩⟩

theorem error_of_readAll {source : String} {e : ReadError} (h : readAll source = .error e) :
    e.OutOfRange ∨ ∃ p x, e = .unexpected p x := by
  obtain hforms | ⟨fs, -, hnodes⟩ := error_of_bind h
  · obtain ⟨before, after, s, -, hwrong⟩ := goesWrong_of_error hforms
    obtain ⟨x, hx⟩ := hwrong.place
    exact .inr ⟨_, x, hx⟩
  · exact .inl (Form.error_of_nodes fs hnodes)

inductive Single : Except ReadError (List Node) → Except ReadError Node → Prop
  | error {e : ReadError} (h : e.OutOfRange ∨ ∃ p x, e = .unexpected p x) : Single (.error e) (.error e)
  | empty : Single (.ok []) (.error .empty)
  | one (n : Node) : Single (.ok [n]) (.ok n)
  | trailing (n m : Node) (ns : List Node) :
      Single (.ok (n :: m :: ns)) (.error (.trailing (m :: ns).length))

theorem single_readOne (source : String) : Single (readAll source) (readOne source) := by
  rw [readOne]
  cases h : readAll source with
  | error e => exact .error (error_of_readAll h)
  | ok ns =>
      cases ns with
      | nil => exact .empty
      | cons n ns =>
          cases ns with
          | nil => exact .one n
          | cons m ns => exact .trailing n m ns

/-- Reading all forms fails where no forms are written, and else with the first integer that is out
of range. Reading one form fails with the same errors, and if there are no forms or too many. -/
theorem error_ranking (source : String) :
    (∀ fs, Parses source fs →
      ((∃ ns, readAll source = .ok ns) ↔ ∀ t ∈ Form.tokensAll fs, ¬ t.OutOfRange) ∧
      ∀ before t after, Form.tokensAll fs = before ++ t :: after →
        (∀ u ∈ before, ¬ u.OutOfRange) → t.OutOfRange →
        readAll source = .error
          (if t.chars.head? = some '-' then .integerTooSmall (.ofList t.chars)
            else .integerTooLarge (.ofList t.chars))) ∧
    ((∃ p x, readAll source = .error (.unexpected p x)) ↔ ¬ ∃ fs, Parses source fs) ∧
    (∀ e, readAll source = .error e → readOne source = .error e) ∧
    (∀ n, readOne source = .ok n ↔ readAll source = .ok [n]) ∧
    (readOne source = .error .empty ↔ readAll source = .ok []) ∧
    ∀ extra, readOne source = .error (.trailing extra) ↔
      0 < extra ∧ ∃ ns, readAll source = .ok ns ∧ ns.length = extra + 1 := by
  refine ⟨fun fs hfs => ?_, readAll_unexpected_iff, ?_⟩
  · have hrefused := hfs.refused
    refine ⟨?_, fun before t after hsplit hbefore ht => ?_⟩
    · rw [← Form.firstOutOfRange_eq_none]
      generalize readAll source = x, Form.firstOutOfRange _ = o at hrefused
      cases hrefused with
      | read ns => simp
      | refused t => simp
    · rw [hsplit, Form.firstOutOfRange_eq_some hbefore ht] at hrefused
      generalize readAll source = x at hrefused
      cases hrefused
      rfl
  · have hsingle := single_readOne source
    generalize readAll source = x, readOne source = y at hsingle
    cases hsingle with
    | empty => simp
    | one n => simpa using fun _ => Nat.ne_of_gt
    | trailing n m ns => simp
    | error he => obtain ⟨token, rfl | rfl⟩ | ⟨p, x, rfl⟩ := he <;> simp

theorem error_ranking_nested :
    let source := "('(a -09223372036854775809) 99999999999999999999 #t)"
    let fs : List Form := [.list [.quoted (.list [.atom ['a'], .atom "-09223372036854775809".toList]),
      .atom "99999999999999999999".toList, .atom ['#', 't']]]
    Parses source fs ∧
    readAll source = .error (.integerTooSmall "-09223372036854775809") ∧
    readOne source = .error (.integerTooSmall "-09223372036854775809") ∧
    (∃ ns, readAll "+009223372036854775807 (x) ;" = .ok ns) ∧
    readOne "+009223372036854775807 (x) ;" = .error (.trailing 1) := by
  intro source fs
  have hfs : Parses source fs := readForms_eq_ok_iff_parses.1 (readForms_eq_ok_iff.2 (by decide +kernel))
  obtain ⟨hparses, -, herror, -⟩ := error_ranking source
  have hread := (hparses fs hfs).2 [.opening, .quote, .opening, .atom ['a']]
    (.atom "-09223372036854775809".toList)
    [.closing, .atom "99999999999999999999".toList, .atom ['#', 't'], .closing] (by decide +kernel)
    (by decide +kernel) (by decide +kernel)
  obtain ⟨hparses', -, -, -, -, htrailing⟩ := error_ranking "+009223372036854775807 (x) ;"
  have hfs' : Parses "+009223372036854775807 (x) ;"
      [.atom "+009223372036854775807".toList, .list [.atom ['x']]] :=
    readForms_eq_ok_iff_parses.1 (readForms_eq_ok_iff.2 (by decide +kernel))
  have hok := (hparses' _ hfs').1.2 (by decide +kernel)
  refine ⟨hfs, hread, herror _ hread, hok, (htrailing 1).2 ⟨Nat.one_pos, ?_⟩⟩
  exact ⟨[.integer 9223372036854775807, .list [.symbol "x"]], by decide +kernel, rfl⟩

end SmallLisp
