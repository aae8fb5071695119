import SmallLisp.Proofs.Eval.Simulation

namespace SmallLisp

mutual

/-- The names that are looked up or defined where a node is evaluated, and in the bodies of the
functions that it makes. Neither what is quoted counts, nor a keyword at the head of a form. -/
def Node.mentions : Node → List String
  | .boolean _ | .integer _ | .list [] => []
  | .symbol name => [name]
  | .list (head :: operands) =>
      match head.keyword? with
      | none => head.mentions ++ Node.mentionsAll operands
      | some k =>
          if operands.length ≠ k.operands then []
          else if k.isStrict then Node.mentionsAll operands
          else
            match k, operands with
            | .form .ifElse, [test, yes, no] => test.mentions ++ (yes.mentions ++ no.mentions)
            | .form .define, [target, n] => target.symbol?.toList ++ n.mentions
            | .form .lambda, [_, body] => body.mentions
            | .form .letIn, [.list bindings, body] => Node.mentionsBindings bindings ++ body.mentions
            | .form .defn, [target, _, body] => target.symbol?.toList ++ body.mentions
            | .form .cond, [.list clauses] => Node.mentionsClauses clauses
            | _, _ => []

def Node.mentionsAll : List Node → List String
  | [] => []
  | n :: ns => n.mentions ++ Node.mentionsAll ns

def Node.mentionsBindings : List Node → List String
  | .list [.symbol _, n] :: bindings => n.mentions ++ Node.mentionsBindings bindings
  | _ => []

def Node.mentionsClauses : List Node → List String
  | .list [test, n] :: clauses => test.mentions ++ (n.mentions ++ Node.mentionsClauses clauses)
  | _ => []

end

namespace Node

/-- What holds of a node if it holds of the nodes that are evaluated in its place, in the course of
its evaluation, or when a function that it makes is applied. A `let` or `cond` with one binding or
clause less counts as such a node. -/
structure ByForm (P : Node → Prop) : Prop where
  boolean (b : Bool) : P (boolean b)
  integer (n : Int64) : P (integer n)
  symbol (name : String) : P (symbol name)
  empty : P (list [])
  call {head : Node} {operands : List Node} (hk : head.keyword? = none) (h : P head)
    (hs : ∀ n ∈ operands, P n) : P (list (head :: operands))
  arity {head : Node} {operands : List Node} {k : Keyword} (hk : head.keyword? = some k)
    (hl : operands.length ≠ k.operands) : P (list (head :: operands))
  strict {head : Node} {operands : List Node} {k : Keyword} (hk : head.keyword? = some k)
    (hl : operands.length = k.operands) (hs : k.isStrict) (h : ∀ n ∈ operands, P n) :
    P (list (head :: operands))
  quote {head n : Node} (hk : head.keyword? = some (.form .quote)) : P (list [head, n])
  ifElse {head test yes no : Node} (hk : head.keyword? = some (.form .ifElse)) (htest : P test)
    (hyes : P yes) (hno : P no) : P (list [head, test, yes, no])
  define {head target n : Node} (hk : head.keyword? = some (.form .define)) (h : P n) :
    P (list [head, target, n])
  lambda {head params body : Node} (hk : head.keyword? = some (.form .lambda)) (h : P body) :
    P (list [head, params, body])
  defn {head target params body : Node} (hk : head.keyword? = some (.form .defn)) (h : P body) :
    P (list [head, target, params, body])
  letNil {head body : Node} (hk : head.keyword? = some (.form .letIn)) (h : P body) :
    P (list [head, list [], body])
  letCons {head n body : Node} {name : String} {bindings : List Node}
    (hk : head.keyword? = some (.form .letIn)) (h : P n)
    (hrest : P (list [head, list bindings, body])) :
    P (list [head, list (list [.symbol name, n] :: bindings), body])
  letMalformed {head binding body : Node} {bindings : List Node}
    (hk : head.keyword? = some (.form .letIn))
    (hb : ∀ name n, binding = list [.symbol name, n] → False) :
    P (list [head, list (binding :: bindings), body])
  letNoList {head bindings body : Node} (hk : head.keyword? = some (.form .letIn))
    (hb : bindings.items? = none) : P (list [head, bindings, body])
  condNil {head : Node} (hk : head.keyword? = some (.form .cond)) : P (list [head, list []])
  condCons {head test n : Node} {clauses : List Node} (hk : head.keyword? = some (.form .cond))
    (htest : P test) (h : P n) (hrest : P (list [head, list clauses])) :
    P (list [head, list (list [test, n] :: clauses)])
  condMalformed {head clause : Node} {clauses : List Node}
    (hk : head.keyword? = some (.form .cond)) (hc : ∀ test n, clause = list [test, n] → False) :
    P (list [head, list (clause :: clauses)])
  condNoList {head clauses : Node} (hk : head.keyword? = some (.form .cond))
    (hc : clauses.items? = none) : P (list [head, clauses])

theorem ByForm.all {P : Node → Prop} (h : ByForm P) (n : Node) : P n := by
  refine (mentions.mutual_induct P
    (fun clauses => ∀ head, head.keyword? = some (.form .cond) → P (list [head, list clauses]))
    (fun bindings => ∀ head body, head.keyword? = some (.form .letIn) → P body →
      P (list [head, list bindings, body]))
    (fun ns => ∀ n ∈ ns, P n)
    h.boolean h.integer h.empty h.symbol ?call ?arity ?strict ?ifElse ?define ?lambda
    ?letIn ?defn ?cond ?other ?clause ?noClause ?binding ?noBinding ?noOperand ?operand).1 n
  case call => exact fun head operands hk => h.call hk
  case arity => exact fun head operands k hk => h.arity hk
  case strict => exact fun head operands k hk hl => h.strict hk (Decidable.not_not.1 hl)
  case ifElse => exact fun head test yes no hk _ _ => h.ifElse hk
  case define => exact fun head target n hk _ _ => h.define hk
  case lambda => exact fun head params body hk _ _ => h.lambda hk
  case letIn => exact fun head bindings body hk _ _ hbindings => hbindings head body hk
  case defn => exact fun head target params body hk _ _ => h.defn hk
  case cond => exact fun head clauses hk _ _ hclauses => hclauses head hk
  case other =>
    intro head operands k hk hl hs hif hdefine hlambda hlet hdefn hcond
    by_contra hno
    refine Keyword.not_other ?_ hif hdefine hlambda ?_ hdefn ?_ hs (Decidable.not_not.1 hl)
    · rintro n rfl rfl
      exact hno (h.quote hk)
    · rintro bindings body rfl rfl
      exact hno (h.letNoList hk (items?_eq_none fun bs hb => hlet bs body rfl (hb ▸ rfl)))
    · rintro clauses rfl rfl
      exact hno (h.condNoList hk (items?_eq_none fun cs hc => hcond cs rfl (hc ▸ rfl)))
  case clause =>
    exact fun test n clauses htest hn hclauses head hk => h.condCons hk htest hn (hclauses head hk)
  case noClause =>
    intro clauses hclauses head hk
    cases clauses with
    | nil => exact h.condNil hk
    | cons clause clauses =>
        exact h.condMalformed hk fun test n hc => hclauses test n clauses (hc ▸ rfl)
  case binding =>
    exact fun name n bindings hn hbindings head body hk hbody =>
      h.letCons hk hn (hbindings head body hk hbody)
  case noBinding =>
    intro bindings hbindings head body hk hbody
    cases bindings with
    | nil => exact h.letNil hk hbody
    | cons binding bindings =>
        exact h.letMalformed hk fun name n hb => hbindings name n bindings (hb ▸ rfl)
  case noOperand => exact fun n hn => absurd hn List.not_mem_nil
  case operand => exact fun n ns hn hns => List.forall_mem_cons.2 ⟨hn, hns⟩

theorem mem_mentionsAll {name : String} {ns : List Node} :
    name ∈ mentionsAll ns ↔ ∃ n ∈ ns, name ∈ n.mentions := by
  induction ns with
  | nil => simp [mentionsAll]
  | cons n ns ih => simp [mentionsAll, ih]

section

variable {head : Node}

attribute [local simp] mentions

theorem mentions_call {operands : List Node} (hk : head.keyword? = none) :
    (list (head :: operands)).mentions = head.mentions ++ mentionsAll operands := by
  simp [hk]

theorem mentions_strict {operands : List Node} {k : Keyword} (hk : head.keyword? = some k)
    (hl : operands.length = k.operands) (hs : k.isStrict) :
    (list (head :: operands)).mentions = mentionsAll operands := by
  simp [hk, hl, hs]

attribute [local simp] Keyword.operands Keyword.isStrict SpecialForm.operands

theorem mentions_ifElse {test yes no : Node} (hk : head.keyword? = some (.form .ifElse)) :
    (list [head, test, yes, no]).mentions =
      test.mentions ++ (yes.mentions ++ no.mentions) := by
  simp [hk]

theorem mentions_define {target n : Node} (hk : head.keyword? = some (.form .define)) :
    (list [head, target, n]).mentions = target.symbol?.toList ++ n.mentions := by
  simp [hk]

theorem mentions_lambda {params body : Node} (hk : head.keyword? = some (.form .lambda)) :
    (list [head, params, body]).mentions = body.mentions := by
  simp [hk]

theorem mentions_defn {target params body : Node} (hk : head.keyword? = some (.form .defn)) :
    (list [head, target, params, body]).mentions = target.symbol?.toList ++ body.mentions := by
  simp [hk]

theorem mentions_letIn {bindings : List Node} {body : Node}
    (hk : head.keyword? = some (.form .letIn)) :
    (list [head, list bindings, body]).mentions = mentionsBindings bindings ++ body.mentions := by
  simp [hk]

theorem mentions_cond {clauses : List Node} (hk : head.keyword? = some (.form .cond)) :
    (list [head, list clauses]).mentions = mentionsClauses clauses := by
  simp [hk]

end

end Node

namespace Matching

variable {M : Matching}

theorem alikeAll_map {f : Node → Node} {ns : List Node} (h : ∀ n ∈ ns, M.Alike n (f n)) :
    M.AlikeAll ns (ns.map f) := by
  induction ns with
  | nil => exact .nil
  | cons n ns ih =>
      rw [List.forall_mem_cons] at h
      exact .cons h.1 (ih h.2)

theorem alikeAll_self {ns : List Node}
    (h : ∀ n ∈ ns, (∀ name ∈ n.mentions, name ∉ M.hidden) → M.Alike n n)
    (hns : ∀ name ∈ Node.mentionsAll ns, name ∉ M.hidden) : M.AlikeAll ns ns := by
  have hself : ∀ n ∈ ns, M.Alike n (id n) := fun n hn =>
    h n hn fun name hname => hns name (Node.mem_mentionsAll.2 ⟨n, hn, hname⟩)
  simpa using alikeAll_map hself

theorem alike_self (hbody : ∀ b, M.body b b) :
    Node.ByForm fun n => (∀ name ∈ n.mentions, name ∉ M.hidden) → M.Alike n n where
  boolean b _ := .boolean b
  integer n _ := .integer n
  symbol name h := .symbol (h name (List.mem_singleton_self name))
  empty _ := .empty
  call hk h hs hn := by
    rw [Node.mentions_call hk, List.forall_mem_append] at hn
    exact .call hk hk (h hn.1) (alikeAll_self hs hn.2)
  arity hk hl _ := .arity hk hl
  strict hk hl hs h hn := by
    rw [Node.mentions_strict hk hl hs] at hn
    exact .strict hk hl hs (alikeAll_self h hn)
  quote hk _ := .quote hk
  ifElse hk htest hyes hno hn := by
    rw [Node.mentions_ifElse hk, List.forall_mem_append, List.forall_mem_append] at hn
    exact .ifElse hk (htest hn.1) (hyes hn.2.1) (hno hn.2.2)
  define {head target n} hk h hn := by
    rw [Node.mentions_define hk, List.forall_mem_append] at hn
    refine .define hk ?_ (h hn.2)
    rintro name rfl
    exact hn.1 name (List.mem_singleton_self name)
  lambda hk h hn := .lambda hk (hbody _) (h (Node.mentions_lambda hk ▸ hn))
  defn {head target params body} hk h hn := by
    rw [Node.mentions_defn hk, List.forall_mem_append] at hn
    refine .defn hk ?_ (hbody body) (h hn.2)
    rintro name rfl
    exact hn.1 name (List.mem_singleton_self name)
  letNil hk h hn := .letNil hk (h (by rwa [Node.mentions_letIn hk] at hn))
  letCons hk h hrest hn := by
    rw [Node.mentions_letIn hk, Node.mentionsBindings, List.append_assoc,
      List.forall_mem_append] at hn
    exact .letCons hk (h hn.1) (hrest (Node.mentions_letIn hk ▸ hn.2))
  letMalformed hk hb _ := .letMalformed hk hb
  letNoList hk hb _ := .letNoList hk hb
  condNil hk _ := .condNil hk
  condCons hk htest h hrest hn := by
    rw [Node.mentions_cond hk, Node.mentionsClauses, List.forall_mem_append,
      List.forall_mem_append] at hn
    exact .condCons hk (htest hn.1) (h hn.2.1) (hrest (Node.mentions_cond hk ▸ hn.2.2))
  condMalformed hk hc _ := .condMalformed hk hc
  condNoList hk hc _ := .condNoList hk hc

end Matching

end SmallLisp
