import SmallLisp.Node.Text
import SmallLisp.Proofs.Reader.Rendering
import Mathlib.Data.List.Basic

namespace SmallLisp

/-- `cs` lays out `ts` in front of every text that may follow an atom. -/
def Prints (ts : List Token) (cs : List Char) : Prop :=
  ∀ us rest, (∀ touching, Layout touching us rest) → Layout false (ts ++ us) (cs ++ rest)

theorem prints_atom (cs : List Char) : Prints [.atom cs] cs :=
  fun _ _ h => .token .nil nofun (h true)

theorem layout_closing {us : List Token} {rest : List Char} (h : Layout false us rest)
    (touching : Bool) : Layout touching (.closing :: us) (')' :: rest) :=
  .token .nil nofun h

theorem prints_quote {ts : List Token} {cs : List Char} (h : Prints ts cs) :
    Prints (.quote :: ts) ('\'' :: cs) :=
  fun us rest hrest => .token .nil nofun (h us rest hrest)

theorem prints_list {ts : List Token} {cs : List Char} (h : Prints ts cs) :
    Prints (.opening :: (ts ++ [.closing])) ('(' :: (cs ++ [')'])) := by
  intro us rest hrest
  have hitems := h (.closing :: us) (')' :: rest) (layout_closing (hrest false))
  have hlist : Layout false (.opening :: (ts ++ .closing :: us)) ('(' :: (cs ++ ')' :: rest)) :=
    .token .nil nofun hitems
  simpa using hlist

theorem prints_append {ts us : List Token} {cs ds : List Char} (h : Prints ts cs)
    (h' : Prints us ds) : Prints (ts ++ us) (cs ++ ' ' :: ds) := by
  intro vs rest hrest
  have hspace : Skipped [' '] := .separator List.mem_cons_self .nil
  have hrest' : ∀ touching, Layout touching (us ++ vs) ([' '] ++ (ds ++ rest)) := fun _ =>
    (h' vs rest hrest).skip hspace (List.cons_ne_nil ' ' [])
  have happend := h (us ++ vs) ([' '] ++ (ds ++ rest)) hrest'
  simpa using happend

theorem numeral_chars (n : Int64) : Numeral (Integer.chars n) n.toInt :=
  toInt?_eq_some_iff.1 (Decimal.toInt?_ofInt n.toInt)

namespace Node

theorem chars_list (items : List Node) :
    (∃ n, items = [symbol "quote", n]) ∨ chars (list items) = '(' :: (spaced items ++ [')']) := by
  by_cases h : ∃ n, items = [symbol "quote", n]
  · exact .inl h
  · refine .inr ?_
    rw [chars]
    intro n hn
    exact h ⟨n, hn⟩

mutual

theorem exists_prints : (n : Node) → ∃ ts, Writes n ts ∧ Prints ts n.chars
  | boolean true => ⟨_, .yes, prints_atom _⟩
  | boolean false => ⟨_, .no, prints_atom _⟩
  | integer n => ⟨_, .integer (numeral_chars n), prints_atom _⟩
  | symbol name => ⟨_, .symbol name, prints_atom _⟩
  | list items => by
      obtain ⟨n, rfl⟩ | hchars := chars_list items
      · obtain ⟨ts, hw, hp⟩ := exists_prints n
        exact ⟨.quote :: ts, hw.quoted, prints_quote hp⟩
      · obtain ⟨ts, hw, hp⟩ := exists_prints_spaced items
        rw [hchars]
        exact ⟨_, .list hw, prints_list hp⟩

theorem exists_prints_spaced : (ns : List Node) → ∃ ts, WritesAll ns ts ∧ Prints ts (spaced ns)
  | [] => ⟨[], .nil, fun _ _ h => h false⟩
  | [n] => by
      obtain ⟨ts, hw, hp⟩ := exists_prints n
      refine ⟨ts ++ [], .cons hw .nil, ?_⟩
      rw [List.append_nil]
      exact hp
  | n :: m :: ns => by
      obtain ⟨ts, hw, hp⟩ := exists_prints n
      obtain ⟨us, hws, hps⟩ := exists_prints_spaced (m :: ns)
      exact ⟨ts ++ us, .cons hw hws, prints_append hp hps⟩

end

theorem renders_chars (n : Node) : Renders [n] n.chars := by
  obtain ⟨ts, hw, hp⟩ := exists_prints n
  have hlayout := hp [] [] fun _ => .done (.skipped .nil)
  rw [List.append_nil n.chars] at hlayout
  exact ⟨ts ++ [], .cons hw .nil, hlayout⟩

end Node

theorem readOne_eq_ok_iff {source : String} {n : Node} :
    readOne source = .ok n ↔ readAll source = .ok [n] := by
  cases h : readAll source with
  | error e => simp [readOne, h, bind, Except.bind]
  | ok ns =>
      cases ns with
      | nil => simp [readOne, h, bind, Except.bind, throw, throwThe, MonadExceptOf.throw]
      | cons m ms =>
          cases ms with
          | nil => simp [readOne, h, bind, Except.bind, pure, Except.pure]
          | cons k ks => simp [readOne, h, bind, Except.bind, throw, throwThe, MonadExceptOf.throw]

theorem readOne_text_iff {n : Node} :
    readOne n.text = .ok n ↔ ∀ name ∈ n.symbols, IsReadable name.toList := by
  rw [readOne_eq_ok_iff, readAll_iff_forms, exists_forms_iff, Node.text, String.toList_ofList]
  simp only [n.renders_chars, true_and, Node.symbolsAll, List.append_nil]

/-- A printed node is read back exactly if its symbols are readable, and those of a node that comes
from a text are. -/
theorem readOne_text :
    (∀ n : Node, readOne n.text = .ok n ↔ ∀ name ∈ n.symbols, IsReadable name.toList) ∧
    ∀ source ns, readAll source = .ok ns → ∀ n ∈ ns, readOne n.text = .ok n := by
  refine ⟨fun n => readOne_text_iff, fun source ns h n hn => ?_⟩
  obtain ⟨-, hsym⟩ := exists_forms_iff.1 (readAll_iff_forms.1 h)
  have hname : ∀ name ∈ n.symbols, IsReadable name.toList := fun name hmem =>
    hsym name (Node.mem_symbolsAll.2 ⟨n, hn, hmem⟩)
  exact readOne_text_iff.2 hname

theorem readOne_text_quotes :
    let n : Node := .list [.quoted (.symbol "a"), .quoted (.list []), .integer 7]
    readAll "('a (quote ()) +07)" = .ok [n] ∧ n.text = "('a '() 7)" ∧ readOne n.text = .ok n := by
  intro n
  have h : readAll "('a (quote ()) +07)" = .ok [n] := by decide +kernel
  exact ⟨h, by decide +kernel, readOne_text.2 "('a (quote ()) +07)" [n] h n List.mem_cons_self⟩

end SmallLisp
