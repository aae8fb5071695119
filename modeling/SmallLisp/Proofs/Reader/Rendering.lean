import SmallLisp.Proofs.Reader.Forms

namespace SmallLisp

def IsDigits (ds : List Char) : Prop := ds ≠ [] ∧ ∀ d ∈ ds, d.isDigit

inductive Numeral : List Char → Int → Prop
  | plain {ds : List Char} (h : IsDigits ds) : Numeral ds (Nat.ofDigitChars 10 ds 0)
  | plus {ds : List Char} (h : IsDigits ds) : Numeral ('+' :: ds) (Nat.ofDigitChars 10 ds 0)
  | minus {ds : List Char} (h : IsDigits ds) : Numeral ('-' :: ds) (-Nat.ofDigitChars 10 ds 0)

/-- The tokens that can stand for symbols. -/
structure IsReadable (cs : List Char) : Prop where
  isWord : Token.IsWord cs
  ne_true : cs ≠ ['#', 't']
  ne_false : cs ≠ ['#', 'f']
  not_numeral : ∀ n, ¬ Numeral cs n

namespace Node

mutual

def symbols : Node → List String
  | boolean _ | integer _ => []
  | symbol name => [name]
  | list items => symbolsAll items

def symbolsAll : List Node → List String
  | [] => []
  | n :: ns => symbols n ++ symbolsAll ns

end

theorem mem_symbolsAll {name : String} {ns : List Node} :
    name ∈ symbolsAll ns ↔ ∃ n ∈ ns, name ∈ n.symbols := by
  induction ns with
  | nil => simp [symbolsAll]
  | cons n ns ih => simp [symbolsAll, ih]

end Node

mutual

/-- The tokens that a node may be written with. -/
inductive Writes : Node → List Token → Prop
  | yes : Writes (.boolean true) [.atom ['#', 't']]
  | no : Writes (.boolean false) [.atom ['#', 'f']]
  | integer {n : Int64} {cs : List Char} (h : Numeral cs n.toInt) : Writes (.integer n) [.atom cs]
  | symbol (name : String) : Writes (.symbol name) [.atom name.toList]
  | list {ns : List Node} {ts : List Token} (h : WritesAll ns ts) :
      Writes (.list ns) (.opening :: (ts ++ [.closing]))
  | quoted {n : Node} {ts : List Token} (h : Writes n ts) : Writes n.quoted (.quote :: ts)

inductive WritesAll : List Node → List Token → Prop
  | nil : WritesAll [] []
  | cons {n : Node} {ns : List Node} {ts us : List Token} (h : Writes n ts) (hs : WritesAll ns us) :
      WritesAll (n :: ns) (ts ++ us)

end

/-- A text that writes nodes, with separators and comments around the tokens. -/
def Renders (ns : List Node) (cs : List Char) : Prop :=
  ∃ ts, WritesAll ns ts ∧ Layout false ts cs

theorem toNat?_of_isDigits {cs : List Char} (h : IsDigits cs) :
    Decimal.toNat? cs = some (Nat.ofDigitChars 10 cs 0) := by
  have hall : cs.all Char.isDigit = true := List.all_eq_true.2 h.2
  have hne : cs.isEmpty = false := List.isEmpty_eq_false_iff.2 h.1
  simp [Decimal.toNat?, hall, hne]

theorem isDigits_of_toNat? {cs : List Char} {n : Nat} (h : Decimal.toNat? cs = some n) :
    IsDigits cs ∧ Nat.ofDigitChars 10 cs 0 = n := by
  rw [Decimal.toNat?] at h
  split at h
  · cases h
  · next hcs =>
      simp only [Bool.or_eq_true, Bool.not_eq_true', not_or, Bool.not_eq_true,
        Bool.not_eq_false, List.isEmpty_eq_false_iff, List.all_eq_true] at hcs
      exact ⟨hcs, Option.some.inj h⟩

theorem toInt?_eq_some_iff {cs : List Char} {n : Int} :
    Decimal.toInt? cs = some n ↔ Numeral cs n := by
  constructor
  · intro h
    rw [Decimal.toInt?.eq_def] at h
    split at h
    · obtain ⟨k, hk, rfl⟩ := Option.map_eq_some_iff.1 h
      obtain ⟨m, hm, hmk⟩ := Option.bind_eq_some_iff.1 hk
      cases hmk
      obtain ⟨hds, rfl⟩ := isDigits_of_toNat? hm
      exact .minus hds
    · obtain ⟨k, hk, rfl⟩ := Option.map_eq_some_iff.1 h
      obtain ⟨hds, rfl⟩ := isDigits_of_toNat? hk
      exact .plus hds
    · obtain ⟨k, hk, rfl⟩ := Option.map_eq_some_iff.1 h
      obtain ⟨hds, rfl⟩ := isDigits_of_toNat? hk
      exact .plain hds
  · intro h
    cases h with
    | plus h | minus h => simp [Decimal.toInt?, toNat?_of_isDigits h]
    | plain h =>
        obtain ⟨d, ds, rfl⟩ := List.exists_cons_of_ne_nil h.1
        rw [Decimal.toInt?_of_isDigit (h.2 d List.mem_cons_self), toNat?_of_isDigits h]
        rfl

theorem toInt?_eq_none_iff {cs : List Char} : Decimal.toInt? cs = none ↔ ∀ n, ¬ Numeral cs n := by
  simp only [← toInt?_eq_some_iff, Option.eq_none_iff_forall_ne_some, ne_eq]

theorem Numeral.isWord {cs : List Char} {n : Int} (h : Numeral cs n) : Token.IsWord cs := by
  have hdigits {ds : List Char} (h : IsDigits ds) : Token.IsWord ds := by
    refine ⟨h.1, fun d hd hmem => ?_⟩
    have hdigit := h.2 d hd
    simp only [Token.delimiters, List.mem_cons, List.not_mem_nil, or_false] at hmem
    rcases hmem with rfl | rfl | rfl | rfl | rfl | rfl | rfl | rfl <;> revert hdigit <;> decide
  have hsign {c : Char} {ds : List Char} (hc : c ∉ Token.delimiters) (h : IsDigits ds) :
      Token.IsWord (c :: ds) := by
    refine ⟨List.cons_ne_nil c ds, fun d hd => ?_⟩
    rw [List.mem_cons] at hd
    obtain rfl | hd := hd
    · exact hc
    · exact (hdigits h).2 d hd
  cases h with
  | plain h => exact hdigits h
  | plus h | minus h => exact hsign (by decide) h

theorem Numeral.ne_boolean {cs : List Char} {n : Int} (h : Numeral cs n) :
    cs ≠ ['#', 't'] ∧ cs ≠ ['#', 'f'] := by
  constructor <;> rintro rfl <;> cases h with
  | plain h => exact absurd (h.2 '#' List.mem_cons_self) (by decide)

theorem isReadable_iff {cs : List Char} : IsReadable cs ↔
    Token.IsWord cs ∧ cs ≠ ['#', 't'] ∧ cs ≠ ['#', 'f'] ∧ Decimal.toInt? cs = none := by
  rw [toInt?_eq_none_iff]
  exact ⟨fun ⟨hw, ht, hf, hn⟩ => ⟨hw, ht, hf, hn⟩, fun ⟨hw, ht, hf, hn⟩ => ⟨hw, ht, hf, hn⟩⟩

instance (cs : List Char) : Decidable (IsReadable cs) := decidable_of_iff _ isReadable_iff.symm

theorem Node.symbols_quoted {n : Node} :
    (∀ name ∈ n.quoted.symbols, IsReadable name.toList) ↔
      ∀ name ∈ n.symbols, IsReadable name.toList := by
  have hsymbols : n.quoted.symbols = "quote" :: n.symbols := by
    simp [quoted, symbols, symbolsAll]
  rw [hsymbols, List.forall_mem_cons]
  exact and_iff_right (by decide)

namespace Form

theorem atomNode_eq_ok_iff {cs : List Char} {n : Node} (hw : Token.IsWord cs) :
    atomNode cs = .ok n ↔
      Writes n [.atom cs] ∧ ∀ name ∈ n.symbols, IsReadable name.toList := by
  constructor
  · intro h
    rw [atomNode] at h
    split at h
    next ht =>
      cases h
      exact ⟨ht ▸ .yes, nofun⟩
    next ht =>
      split at h
      next hf =>
        cases h
        exact ⟨hf ▸ .no, nofun⟩
      next hf =>
        split at h
        next hnone =>
          cases h
          have hname : (String.ofList cs).toList = cs := String.toList_ofList
          refine ⟨by simpa [hname] using Writes.symbol (String.ofList cs), fun name hmem => ?_⟩
          rw [Node.symbols, List.mem_singleton] at hmem
          rw [hmem, hname]
          exact ⟨hw, ht, hf, toInt?_eq_none_iff.1 hnone⟩
        next k hk =>
          split at h
          next w hfit =>
            cases h
            have hnum : Numeral cs w.toInt := by
              rw [Integer.toInt_of_ofInt? hfit]
              exact toInt?_eq_some_iff.1 hk
            exact ⟨.integer hnum, nofun⟩
          next => cases h
  · rintro ⟨h, hsym⟩
    cases h with
    | yes => rfl
    | no => rfl
    | @integer w _ hnum =>
        obtain ⟨ht, hf⟩ := hnum.ne_boolean
        rw [atomNode, if_neg ht, if_neg hf, toInt?_eq_some_iff.2 hnum]
        simp only [Integer.ofInt?_toInt]
    | symbol name =>
        obtain ⟨-, ht, hf, hnum⟩ := hsym name List.mem_cons_self
        rw [atomNode, if_neg ht, if_neg hf, toInt?_eq_none_iff.2 hnum]
        simp only [String.ofList_toList]

theorem node_list_eq_ok_iff {items : List Form} {n : Node} :
    node (.list items) = .ok n ↔ ∃ ns, nodes items = .ok ns ∧ .list ns = n := by
  cases h : nodes items with
  | error e => simp [node, h, bind, Except.bind]
  | ok ns => simp [node, h, bind, Except.bind, pure, Except.pure]

theorem node_quoted_eq_ok_iff {f : Form} {n : Node} :
    node (.quoted f) = .ok n ↔ ∃ m, node f = .ok m ∧ m.quoted = n := by
  cases h : node f with
  | error e => simp [node, h, bind, Except.bind]
  | ok m => simp [node, h, bind, Except.bind, pure, Except.pure]

theorem nodes_cons_eq_ok_iff {f : Form} {fs : List Form} {ns : List Node} :
    nodes (f :: fs) = .ok ns ↔ ∃ n ms, node f = .ok n ∧ nodes fs = .ok ms ∧ n :: ms = ns := by
  cases h : node f with
  | error e => simp [nodes, h, bind, Except.bind]
  | ok n =>
      cases hs : nodes fs with
      | error e => simp [nodes, h, hs, bind, Except.bind]
      | ok ms => simp [nodes, h, hs, bind, Except.bind, pure, Except.pure]

theorem nodes_append_eq_ok_iff {fs gs : List Form} {ns : List Node} :
    nodes (fs ++ gs) = .ok ns ↔
      ∃ ms ks, nodes fs = .ok ms ∧ nodes gs = .ok ks ∧ ms ++ ks = ns := by
  induction fs generalizing ns with
  | nil => simp [nodes]
  | cons f fs ih =>
      rw [List.cons_append, nodes_cons_eq_ok_iff]
      constructor
      · rintro ⟨n, ls, hn, hls, rfl⟩
        obtain ⟨ms, ks, hms, hks, rfl⟩ := ih.1 hls
        exact ⟨n :: ms, ks, nodes_cons_eq_ok_iff.2 ⟨n, ms, hn, hms, rfl⟩, hks, rfl⟩
      · rintro ⟨ls, ks, hls, hks, rfl⟩
        obtain ⟨n, ms, hn, hms, rfl⟩ := nodes_cons_eq_ok_iff.1 hls
        exact ⟨n, ms ++ ks, hn, ih.2 ⟨ms, ks, hms, hks, rfl⟩, rfl⟩

mutual

theorem writes_of_node : (f : Form) → {n : Node} → (∀ t ∈ f.tokens, t.Valid) → node f = .ok n →
    Writes n f.tokens ∧ ∀ name ∈ n.symbols, IsReadable name.toList
  | .atom cs, n, hv, h => (atomNode_eq_ok_iff (hv (.atom cs) List.mem_cons_self)).1 h
  | .list items, n, hv, h => by
      obtain ⟨ns, hns, rfl⟩ := node_list_eq_ok_iff.1 h
      rw [tokens] at hv
      have hitems : ∀ t ∈ tokensAll items, t.Valid := fun t ht =>
        hv t (List.mem_cons_of_mem _ (List.mem_append_left _ ht))
      obtain ⟨hw, hsym⟩ := writesAll_of_nodes items hitems hns
      exact ⟨.list hw, hsym⟩
  | .quoted f, n, hv, h => by
      obtain ⟨m, hm, rfl⟩ := node_quoted_eq_ok_iff.1 h
      rw [tokens] at hv
      have hf : ∀ t ∈ f.tokens, t.Valid := fun t ht => hv t (List.mem_cons_of_mem _ ht)
      obtain ⟨hw, hsym⟩ := writes_of_node f hf hm
      exact ⟨.quoted hw, Node.symbols_quoted.2 hsym⟩

theorem writesAll_of_nodes : (fs : List Form) → {ns : List Node} →
    (∀ t ∈ tokensAll fs, t.Valid) → nodes fs = .ok ns →
    WritesAll ns (tokensAll fs) ∧ ∀ name ∈ Node.symbolsAll ns, IsReadable name.toList
  | [], ns, hv, h => by
      cases h
      exact ⟨.nil, nofun⟩
  | f :: fs, ns, hv, h => by
      obtain ⟨m, ms, hm, hms, rfl⟩ := nodes_cons_eq_ok_iff.1 h
      rw [tokensAll, List.forall_mem_append] at hv
      obtain ⟨hw, hsym⟩ := writes_of_node f hv.1 hm
      obtain ⟨hws, hsyms⟩ := writesAll_of_nodes fs hv.2 hms
      exact ⟨.cons hw hws, List.forall_mem_append.2 ⟨hsym, hsyms⟩⟩

end

theorem exists_atom {cs : List Char} {n : Node} (hw : Token.IsWord cs) (h : Writes n [.atom cs])
    (hsym : ∀ name ∈ n.symbols, IsReadable name.toList) :
    ∃ f : Form, f.node = .ok n ∧ f.tokens = [.atom cs] ∧ ∀ t ∈ [Token.atom cs], t.Valid :=
  ⟨.atom cs, (atomNode_eq_ok_iff hw).2 ⟨h, hsym⟩, rfl, List.forall_mem_singleton.2 hw⟩

end Form

mutual

theorem Writes.exists_form : {n : Node} → {ts : List Token} → Writes n ts →
    (∀ name ∈ n.symbols, IsReadable name.toList) →
    ∃ f : Form, f.node = .ok n ∧ f.tokens = ts ∧ ∀ t ∈ ts, t.Valid
  | _, _, .yes, hsym => Form.exists_atom (by decide) .yes hsym
  | _, _, .no, hsym => Form.exists_atom (by decide) .no hsym
  | _, _, .integer h, hsym => Form.exists_atom h.isWord (.integer h) hsym
  | _, _, .symbol name, hsym =>
      Form.exists_atom (hsym name List.mem_cons_self).isWord (.symbol name) hsym
  | _, _, .list h, hsym => by
      obtain ⟨fs, hfs, rfl, hv⟩ := h.exists_forms hsym
      refine ⟨.list fs, Form.node_list_eq_ok_iff.2 ⟨_, hfs, rfl⟩, rfl, ?_⟩
      rw [List.forall_mem_cons, List.forall_mem_append, List.forall_mem_singleton]
      exact ⟨trivial, hv, trivial⟩
  | _, _, .quoted h, hsym => by
      obtain ⟨f, hf, rfl, hv⟩ := h.exists_form (Node.symbols_quoted.1 hsym)
      refine ⟨.quoted f, Form.node_quoted_eq_ok_iff.2 ⟨_, hf, rfl⟩, rfl, ?_⟩
      rw [List.forall_mem_cons]
      exact ⟨trivial, hv⟩

theorem WritesAll.exists_forms : {ns : List Node} → {ts : List Token} → WritesAll ns ts →
    (∀ name ∈ Node.symbolsAll ns, IsReadable name.toList) →
    ∃ fs : List Form, Form.nodes fs = .ok ns ∧ Form.tokensAll fs = ts ∧ ∀ t ∈ ts, t.Valid
  | _, _, .nil, _ => ⟨[], rfl, rfl, nofun⟩
  | _, _, .cons h hs, hsym => by
      obtain ⟨hsym, hsyms⟩ := List.forall_mem_append.1 hsym
      obtain ⟨f, hf, rfl, hv⟩ := h.exists_form hsym
      obtain ⟨fs, hfs, rfl, hvs⟩ := hs.exists_forms hsyms
      exact ⟨f :: fs, Form.nodes_cons_eq_ok_iff.2 ⟨_, _, hf, hfs, rfl⟩, rfl,
        List.forall_mem_append.2 ⟨hv, hvs⟩⟩

end

theorem exists_forms_iff {source : String} {ns : List Node} :
    (∃ fs, readForms source = .ok fs ∧ Form.nodes fs = .ok ns) ↔
      Renders ns source.toList ∧ ∀ name ∈ Node.symbolsAll ns, IsReadable name.toList := by
  constructor
  · rintro ⟨fs, hfs, hns⟩
    obtain ⟨hl, hv⟩ := lex_eq_iff.1 (readForms_eq_ok_iff.1 hfs)
    obtain ⟨hw, hsym⟩ := Form.writesAll_of_nodes fs hv hns
    exact ⟨⟨Form.tokensAll fs, hw, hl⟩, hsym⟩
  · rintro ⟨⟨ts, hw, hl⟩, hsym⟩
    obtain ⟨fs, hfs, rfl, hv⟩ := hw.exists_forms hsym
    exact ⟨fs, readForms_eq_ok_iff.2 (lex_eq_iff.2 ⟨hl, hv⟩), hfs⟩

theorem readAll_iff_forms {source : String} {ns : List Node} :
    readAll source = .ok ns ↔ ∃ fs, readForms source = .ok fs ∧ Form.nodes fs = .ok ns := by
  cases h : readForms source with
  | error e => simp [readAll, h, bind, Except.bind]
  | ok fs => simp [readAll, h, bind, Except.bind]

/-- A text is read as the nodes that it renders, provided their symbols are readable. -/
theorem readAll_eq_ok_iff {source : String} {ns : List Node} :
    readAll source = .ok ns ↔
      Renders ns source.toList ∧ ∀ name ∈ Node.symbolsAll ns, IsReadable name.toList :=
  readAll_iff_forms.trans exists_forms_iff

example : readAll "(a'b(c)) ; end" =
    .ok [.list [.symbol "a", .quoted (.symbol "b"), .list [.symbol "c"]]] := by cbv

end SmallLisp
