import SmallLisp.Proofs.Eval.Lockstep
import SmallLisp.Proofs.Reader.Printing
import SmallLisp.Proofs.Value.Leaves

namespace SmallLisp.Value

mutual

theorem exists_ofNode : (v : Value) → (∀ c, .closure c ∉ v.leaves) → ∃ n, ofNode n = v
  | .boolean b, _ => ⟨.boolean b, rfl⟩
  | .integer n, _ => ⟨.integer n, rfl⟩
  | .symbol name, _ => ⟨.symbol name, rfl⟩
  | .closure c, h => absurd List.mem_cons_self (h c)
  | .list items, h => by
      obtain ⟨ns, hns⟩ := exists_ofNodes items h
      exact ⟨.list ns, congrArg list hns⟩

theorem exists_ofNodes :
    (vs : List Value) → (∀ c, .closure c ∉ leavesAll vs) → ∃ ns, ofNodes ns = vs
  | [], _ => ⟨[], rfl⟩
  | v :: vs, h => by
      obtain ⟨n, hn⟩ := exists_ofNode v fun c hc => h c (List.mem_append_left _ hc)
      obtain ⟨ns, hns⟩ := exists_ofNodes vs fun c hc => h c (List.mem_append_right _ hc)
      exact ⟨n :: ns, congrArg₂ List.cons hn hns⟩

end

mutual

theorem symbol_mem_leaves {name : String} :
    (n : Node) → name ∈ n.symbols → .symbol name ∈ (ofNode n).leaves
  | .boolean _, h | .integer _, h => nomatch h
  | .symbol a, h => by
      cases List.mem_singleton.1 h
      exact List.mem_cons_self
  | .list items, h => symbol_mem_leavesAll items h

theorem symbol_mem_leavesAll {name : String} :
    (ns : List Node) → name ∈ Node.symbolsAll ns → .symbol name ∈ leavesAll (ofNodes ns)
  | [], h => nomatch h
  | n :: ns, h => by
      obtain h | h := List.mem_append.1 h
      · exact List.mem_append_left _ (symbol_mem_leaves n h)
      · exact List.mem_append_right _ (symbol_mem_leavesAll ns h)

end

theorem eq_symbol_of_ofNode {n : Node} {name : String} (h : ofNode n = .symbol name) :
    n = .symbol name := by
  cases n with
  | symbol a => rw [symbol.inj h]
  | boolean | integer | list => cases h

theorem exists_of_ofNodes {ns : List Node} {name : String} {v : Value}
    (h : ofNodes ns = [.symbol name, v]) : ∃ n, ns = [.symbol name, n] := by
  match ns with
  | [] => cases h
  | [_] => exact absurd (List.cons.inj h).2 (List.cons_ne_nil _ _).symm
  | [m, n] => exact ⟨n, by rw [eq_symbol_of_ofNode (List.cons.inj h).1]⟩
  | _ :: _ :: _ :: _ =>
      exact absurd (List.cons.inj (List.cons.inj h).2).2 (List.cons_ne_nil _ _)

mutual

theorem chars_ofNode : (n : Node) → (ofNode n).chars = n.chars
  | .boolean _ | .integer _ | .symbol _ => rfl
  | .list items => by
      obtain ⟨n, rfl⟩ | hchars := Node.chars_list items
      · exact congrArg ('\'' :: ·) (chars_ofNode n)
      · obtain ⟨v, hv⟩ | hchars' := chars_list (ofNodes items)
        · obtain ⟨n, rfl⟩ := exists_of_ofNodes hv
          exact congrArg ('\'' :: ·) (chars_ofNode n)
        · rw [ofNode, hchars', hchars, spaced_ofNodes items]

theorem spaced_ofNodes : (ns : List Node) → spaced (ofNodes ns) = Node.spaced ns
  | [] => rfl
  | [n] => chars_ofNode n
  | n :: m :: ns => by
      rw [ofNodes, ofNodes, spaced_cons_cons, chars_ofNode n, Node.spaced]
      · exact congrArg (n.chars ++ ' ' :: ·) (spaced_ofNodes (m :: ns))
      · exact List.cons_ne_nil m ns

end

theorem text_ofNode (n : Node) : (ofNode n).text = n.text := congrArg String.ofList (chars_ofNode n)

theorem exists_readOne {v : Value} (hdata : ∀ c, .closure c ∉ v.leaves)
    (hnames : ∀ name, .symbol name ∈ v.leaves → IsReadable name.toList) :
    ∃ n, readOne v.text = .ok n ∧ ofNode n = v := by
  obtain ⟨n, rfl⟩ := exists_ofNode v hdata
  refine ⟨n, ?_, rfl⟩
  rw [text_ofNode]
  exact readOne_text_iff.2 fun name hname => hnames name (symbol_mem_leaves n hname)

mutual

theorem ofNode_inj : (n : Node) → {m : Node} → ofNode n = ofNode m → n = m
  | .boolean _, m, h => by
      cases m with
      | boolean => cases h; rfl
      | integer | symbol | list => cases h
  | .integer _, m, h => by
      cases m with
      | integer => cases h; rfl
      | boolean | symbol | list => cases h
  | .symbol _, m, h => by rw [eq_symbol_of_ofNode h.symm]
  | .list ns, m, h => by
      cases m with
      | list ms => exact congrArg Node.list (ofNodes_inj ns (list.inj h))
      | boolean | integer | symbol => cases h

theorem ofNodes_inj : (ns : List Node) → {ms : List Node} → ofNodes ns = ofNodes ms → ns = ms
  | [], [], _ => rfl
  | [], _ :: _, h => nomatch h
  | _ :: _, [], h => nomatch h
  | n :: ns, _ :: _, h =>
      congrArg₂ List.cons (ofNode_inj n (List.cons.inj h).1) (ofNodes_inj ns (List.cons.inj h).2)

end

/-- Quoted code is data that prints as the code does, with the quote character in front of what is
quoted at any depth, and is the same data only for the same code. To evaluate a quotation changes
nothing and cannot fail. -/
theorem ofNode_faithful :
    (∀ n : Node, (ofNode n).text = n.text ∧ (ofNode n.quoted).text = "'" ++ n.text) ∧
    (∀ n m : Node, ofNode n = ofNode m ↔ n = m) ∧
    ∀ (σ : Type) [RunState σ] (limit : Nat) (env : FrameId) (n : Node) (s : σ),
      SmallLisp.evaluate limit env n.quoted s = .ok (ofNode n) s := by
  refine ⟨fun n => ⟨text_ofNode n, ?_⟩, fun n m => ⟨ofNode_inj n, congrArg ofNode⟩, ?_⟩
  · rw [text_ofNode, ← String.toList_inj, String.toList_append]
    simp only [Node.text, String.toList_ofList]
    rfl
  · intro σ _ limit env n s
    rw [SmallLisp.evaluate, Node.quoted, Node.eval_quote _ _ rfl]
    rfl

end SmallLisp.Value
