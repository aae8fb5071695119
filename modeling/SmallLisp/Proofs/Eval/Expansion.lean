import SmallLisp.Proofs.Eval.Mentions

namespace SmallLisp

mutual

/-- A node with the derived forms written out wherever it is evaluated. Malformed lists stay as they
are, and so does the head of a call if `keep` holds of what would become of it. -/
def Node.expand (keep : Node → Bool) : Node → Node
  | .boolean b => .boolean b
  | .integer n => .integer n
  | .symbol name => .symbol name
  | .list [] => .list []
  | .list (head :: operands) =>
      match head.keyword? with
      | none =>
          let head' := head.expand keep
          .list ((if keep head' then head else head') :: Node.expandAll keep operands)
      | some k =>
          if operands.length ≠ k.operands then .list (head :: operands)
          else if k.isStrict then .list (head :: Node.expandAll keep operands)
          else
            match k, operands with
            | .form .ifElse, [test, yes, no] =>
                .list [head, test.expand keep, yes.expand keep, no.expand keep]
            | .form .define, [target, n] => .list [head, target, n.expand keep]
            | .form .lambda, [params, body] => .list [head, params, body.expand keep]
            | .form .letIn, [.list bindings, body] =>
                (Node.expandLet keep (body.expand keep) bindings).getD
                  (.list [head, .list bindings, body])
            | .form .defn, [target, params, body] =>
                .list [.symbol "define", target,
                  .list [.symbol "lambda", params, body.expand keep]]
            | .form .cond, [.list clauses] =>
                (Node.expandCond keep clauses).getD (.list [head, .list clauses])
            | _, operands => .list (head :: operands)

def Node.expandAll (keep : Node → Bool) : List Node → List Node
  | [] => []
  | n :: ns => n.expand keep :: Node.expandAll keep ns

def Node.expandLet (keep : Node → Bool) (body : Node) : List Node → Option Node
  | [] => some body
  | .list [.symbol name, n] :: bindings =>
      (Node.expandLet keep body bindings).map fun inner =>
        .list [.list [.symbol "lambda", .list [.symbol name], inner], n.expand keep]
  | _ :: _ => none

def Node.expandCond (keep : Node → Bool) : List Node → Option Node
  | [] => some (.boolean false)
  | .list [test, n] :: clauses =>
      (Node.expandCond keep clauses).map fun rest =>
        .list [.symbol "if", test.expand keep, n.expand keep, rest]
  | _ :: _ => none

end

namespace Node

variable (keep : Node → Bool) {head : Node}

theorem expandAll_eq (ns : List Node) : expandAll keep ns = ns.map (expand keep) := by
  induction ns with
  | nil => rfl
  | cons n ns ih => rw [expandAll, ih, List.map_cons]

attribute [local simp] expand

theorem expand_call {operands : List Node} (hk : head.keyword? = none) :
    (list (head :: operands)).expand keep =
      list ((if keep (head.expand keep) then head else head.expand keep) ::
        operands.map (expand keep)) := by
  simp [hk, expandAll_eq]

theorem expand_arity {operands : List Node} {k : Keyword} (hk : head.keyword? = some k)
    (hl : operands.length ≠ k.operands) :
    (list (head :: operands)).expand keep = list (head :: operands) := by
  simp [hk, hl]

theorem expand_strict {operands : List Node} {k : Keyword} (hk : head.keyword? = some k)
    (hl : operands.length = k.operands) (hs : k.isStrict) :
    (list (head :: operands)).expand keep = list (head :: operands.map (expand keep)) := by
  simp [hk, hl, hs, expandAll_eq]

attribute [local simp] Keyword.operands Keyword.isStrict SpecialForm.operands

theorem expand_quote {n : Node} (hk : head.keyword? = some (.form .quote)) :
    (list [head, n]).expand keep = list [head, n] := by
  simp [hk]

theorem expand_ifElse {test yes no : Node} (hk : head.keyword? = some (.form .ifElse)) :
    (list [head, test, yes, no]).expand keep =
      list [head, test.expand keep, yes.expand keep, no.expand keep] := by
  simp [hk]

theorem expand_define {target n : Node} (hk : head.keyword? = some (.form .define)) :
    (list [head, target, n]).expand keep = list [head, target, n.expand keep] := by
  simp [hk]

theorem expand_lambda {params body : Node} (hk : head.keyword? = some (.form .lambda)) :
    (list [head, params, body]).expand keep = list [head, params, body.expand keep] := by
  simp [hk]

theorem expand_defn {target params body : Node} (hk : head.keyword? = some (.form .defn)) :
    (list [head, target, params, body]).expand keep =
      list [symbol "define", target, list [symbol "lambda", params, body.expand keep]] := by
  simp [hk]

theorem expand_letIn {bindings : List Node} {body : Node}
    (hk : head.keyword? = some (.form .letIn)) :
    (list [head, list bindings, body]).expand keep =
      (expandLet keep (body.expand keep) bindings).getD (list [head, list bindings, body]) := by
  simp [hk]

theorem expand_letIn_of_items? {bindings body : Node} (hk : head.keyword? = some (.form .letIn))
    (hb : bindings.items? = none) :
    (list [head, bindings, body]).expand keep = list [head, bindings, body] := by
  cases bindings with
  | list => cases hb
  | boolean | integer | symbol => simp [hk]

theorem expandLet_malformed {binding body : Node}
    (hb : ∀ name n, binding = list [.symbol name, n] → False) (bindings : List Node) :
    expandLet keep body (binding :: bindings) = none := by
  rw [expandLet]
  exact hb

theorem expand_cond {clauses : List Node} (hk : head.keyword? = some (.form .cond)) :
    (list [head, list clauses]).expand keep =
      (expandCond keep clauses).getD (list [head, list clauses]) := by
  simp [hk]

theorem expand_cond_of_items? {clauses : Node} (hk : head.keyword? = some (.form .cond))
    (hc : clauses.items? = none) :
    (list [head, clauses]).expand keep = list [head, clauses] := by
  cases clauses with
  | list => cases hc
  | boolean | integer | symbol => simp [hk]

theorem expandCond_malformed {clause : Node} (hc : ∀ test n, clause = list [test, n] → False)
    (clauses : List Node) : expandCond keep (clause :: clauses) = none := by
  rw [expandCond]
  exact hc

/-- A node in the core of the language: nothing derived is evaluated in it but malformed forms and the
head of a call that would become a keyword, which means something else there. -/
def core (n : Node) : Node := n.expand fun head => head.keyword?.isSome

theorem core_call {operands : List Node} (hk : head.keyword? = none) :
    (list (head :: operands)).core =
      list ((if head.core.keyword?.isSome then head else head.core) :: operands.map core) :=
  expand_call _ hk

end Node

namespace Matching

/-- The second program is the first with derived forms written out. -/
def writtenOut : Matching := { derived := true, body := fun b b' => b' = b ∨ b' = b.core }

theorem writtenOut_self (n : Node) : writtenOut.Alike n n := by
  have hbody : ∀ b, writtenOut.body b b := fun _ => .inl rfl
  exact (alike_self hbody).all n fun _ _ => List.not_mem_nil

theorem alike_core : Node.ByForm fun n => writtenOut.Alike n n.core where
  boolean b := .boolean b
  integer n := .integer n
  symbol name := .symbol List.not_mem_nil
  empty := .empty
  call {head operands} hk h hs := by
    rw [Node.core_call hk]
    by_cases hkeep : head.core.keyword?.isSome
    · rw [if_pos hkeep]
      exact .call hk hk (writtenOut_self head) (alikeAll_map hs)
    · rw [if_neg hkeep]
      rw [Option.not_isSome_iff_eq_none] at hkeep
      exact .call hk hkeep h (alikeAll_map hs)
  arity hk hl := by
    rw [Node.core, Node.expand_arity _ hk hl]
    exact .arity hk hl
  strict hk hl hs h := by
    rw [Node.core, Node.expand_strict _ hk hl hs]
    exact .strict hk hl hs (alikeAll_map h)
  quote hk := by
    rw [Node.core, Node.expand_quote _ hk]
    exact .quote hk
  ifElse hk htest hyes hno := by
    rw [Node.core, Node.expand_ifElse _ hk]
    exact .ifElse hk htest hyes hno
  define hk h := by
    rw [Node.core, Node.expand_define _ hk]
    exact .define hk (fun _ _ => List.not_mem_nil) h
  lambda hk h := by
    rw [Node.core, Node.expand_lambda _ hk]
    exact .lambda hk (.inr rfl) h
  defn hk h := by
    rw [Node.core, Node.expand_defn _ hk]
    exact .defnDefine rfl hk (fun _ _ => List.not_mem_nil) (.inr rfl) h
  letNil hk h := by
    rw [Node.core, Node.expand_letIn _ hk]
    exact .letBody rfl hk h
  letCons {head n body name bindings} hk h hrest := by
    rw [Node.core, Node.expand_letIn _ hk] at hrest ⊢
    rw [Node.expandLet]
    cases hinner : Node.expandLet _ (body.expand _) bindings with
    -- one malformed binding leaves all of the form as it is
    | none => exact writtenOut_self _
    | some inner =>
        rw [hinner] at hrest
        exact .letCall rfl hk h hrest
  letMalformed hk hb := by
    rw [Node.core, Node.expand_letIn _ hk, Node.expandLet_malformed _ hb]
    exact .letMalformed hk hb
  letNoList hk hb := by
    rw [Node.core, Node.expand_letIn_of_items? _ hk hb]
    exact .letNoList hk hb
  condNil hk := by
    rw [Node.core, Node.expand_cond _ hk]
    exact .condFalse rfl hk
  condCons {head test n clauses} hk htest h hrest := by
    rw [Node.core, Node.expand_cond _ hk] at hrest ⊢
    rw [Node.expandCond]
    cases hclauses : Node.expandCond _ clauses with
    | none => exact writtenOut_self _
    | some rest =>
        rw [hclauses] at hrest
        exact .condIf rfl hk htest h hrest
  condMalformed hk hc := by
    rw [Node.core, Node.expand_cond _ hk, Node.expandCond_malformed _ hc]
    exact .condMalformed hk hc
  condNoList hk hc := by
    rw [Node.core, Node.expand_cond_of_items? _ hk hc]
    exact .condNoList hk hc

end Matching

/-- Functions of the same parameters that refer to the same frame, and whose bodies are the same but
for derived forms that `d` has written out. -/
structure Closure.WrittenOut (c d : Closure) : Prop where
  params : d.params = c.params
  env : d.env = c.env
  body : d.body = c.body ∨ d.body = c.body.core

structure Frame.WrittenOut (f g : Frame) : Prop where
  parent : g.parent = f.parent
  bindings : List.Forall₂
    (fun b c : String × Value => c.1 = b.1 ∧ b.2.Lift Closure.WrittenOut c.2) f.bindings g.bindings

structure Store.WrittenOut (s t : Store) : Prop where
  size : t.frames.size = s.frames.size
  frames : ∀ (id : FrameId) (f : Frame), s.frames[id]? = some f →
    ∃ g, t.frames[id]? = some g ∧ f.WrittenOut g

namespace Matching

variable {n : Nat} {s t : Store}

theorem frame_writtenOut : writtenOut.frame = id := frame_eq_id rfl

theorem Closures.writtenOut {c d : Closure} (h : writtenOut.Closures n c d) : c.WrittenOut d :=
  ⟨h.params, by rw [h.env, frame_writtenOut, id], h.body⟩

theorem values_writtenOut {v w : Value} (h : writtenOut.Values n v w) :
    v.Lift Closure.WrittenOut w :=
  h.mono fun _ _ => Closures.writtenOut

theorem Frames.writtenOut {k : FrameId} {f g : Frame} (h : writtenOut.Frames n k f g) :
    f.WrittenOut g := by
  obtain ⟨bs, hbs, hall⟩ := h.bindings
  have hbindings : g.bindings = bs := by simpa [Matching.writtenOut] using hbs
  refine ⟨?_, ?_⟩
  · rw [h.parent, frame_writtenOut, Option.map_id, id]
  · rw [hbindings]
    exact hall.imp fun _ _ hb => ⟨hb.1, values_writtenOut hb.2⟩

theorem Stores.writtenOut (h : writtenOut.Stores s t) : s.WrittenOut t := by
  refine ⟨h.size, fun k f hf => ?_⟩
  obtain ⟨g, hg, hfg⟩ := h.frames k f hf
  rw [frame_writtenOut, id] at hg
  exact ⟨g, hg, hfg.writtenOut⟩

theorem writtenOut_values (n : Nat) (v : Value) : writtenOut.Values n v v :=
  .refl (fun c => ⟨nofun, rfl, by rw [frame_writtenOut, id], fun h => absurd rfl h, .inl rfl,
    writtenOut_self c.body⟩) v

theorem writtenOut_frames (n : Nat) (k : FrameId) (f : Frame) : writtenOut.Frames n k f f := by
  refine ⟨?_, fun h => absurd rfl h, f.bindings, ?_, ?_⟩
  · rw [frame_writtenOut, Option.map_id, id]
  · simp [writtenOut]
  · exact List.forall₂_same.2 fun b _ => ⟨rfl, writtenOut_values n b.2⟩

theorem writtenOut_stores (s : Store) : writtenOut.Stores s s := by
  refine ⟨Nat.zero_le _, rfl, fun k f hf => ⟨f, ?_, writtenOut_frames _ k f⟩, nofun⟩
  rw [frame_writtenOut, id, hf]

end Matching

/-- A program that does not overflow with its derived forms written out comes to the same failure
without, or to a value that differs in the bodies of closures alone, and binds the same names in the
same frames to such values. -/
theorem evaluate_core {limit : Nat} {env : FrameId} {n : Node} {s : Store}
    (h : ¬ (evaluate limit env n.core).Overflows s) :
    (∃ v w t t', evaluate limit env n s = .ok v t ∧ evaluate limit env n.core s = .ok w t' ∧
      v.Lift Closure.WrittenOut w ∧ t.WrittenOut t') ∨
    (∃ e t t', evaluate limit env n s = .error e t ∧ evaluate limit env n.core s = .error e t' ∧
      t.WrittenOut t') := by
  have hinScope : Matching.writtenOut.InScope s.frames.size env := fun h => absurd rfl h
  have houtcomes := (Matching.writtenOut_stores s).evaluate _ limit hinScope
    (Matching.alike_core.all n)
  rw [Matching.frame_writtenOut, id] at houtcomes
  generalize hx : evaluate limit env n s = x, hy : evaluate limit env n.core s = y at houtcomes
  cases houtcomes with
  | ok hs _ hv =>
      exact .inl ⟨_, _, _, _, rfl, rfl, Matching.values_writtenOut hv, hs.writtenOut⟩
  | error hs _ e => exact .inr ⟨e, _, _, rfl, rfl, hs.writtenOut⟩
  | overflow _ => exact absurd ⟨_, _, hy⟩ h

theorem evaluate_core_let :
    let n := Node.list [.symbol "let", .list [.list [.symbol "x", .integer 1]],
      .list [.symbol "lambda", .list [.symbol "y"],
        .list [.symbol "cond", .list [.list [.symbol "y", .symbol "x"]]]]]
    let s : Store := ⟨#[⟨[], none⟩], 0⟩
    ¬ (evaluate 1 0 n.core).Overflows s ∧
    ∃ v w t t', evaluate 1 0 n s = .ok v t ∧ evaluate 1 0 n.core s = .ok w t' ∧
      v.Lift Closure.WrittenOut w ∧ t.WrittenOut t' := by
  intro n s
  obtain ⟨w, t', hw⟩ : ∃ w t', evaluate 1 0 n.core s = .ok w t' := ⟨_, _, rfl⟩
  have h : ¬ (evaluate 1 0 n.core).Overflows s := Run.not_overflows_of_ok hw
  refine ⟨h, ?_⟩
  obtain hok | ⟨e, t, u, -, he, -⟩ := evaluate_core h
  · exact hok
  · rw [hw] at he
    cases he

/-- Without the exception for heads, the expansion would turn the call of a variable that has a
keyword's name into a form. -/
theorem expand_head_keyword :
    let n := Node.list [.list [.symbol "let", .list [], .symbol "if"], .boolean true, .integer 1,
      .integer 2]
    let s : Store := ⟨#[⟨[], none⟩], 0⟩
    evaluate 0 0 (n.expand fun _ => false) s = .ok (.integer 1) s ∧
    evaluate 0 0 n s = .error (.unboundSymbol "if") s :=
  ⟨rfl, rfl⟩

end SmallLisp
