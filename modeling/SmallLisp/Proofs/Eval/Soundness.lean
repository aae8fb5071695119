import SmallLisp.Proofs.Eval.OpenRun
import SmallLisp.Proofs.Eval.Vocabulary

namespace SmallLisp

variable {V : Vocabulary} {s t u : Store}

namespace Store.MadeOf

theorem walk_eq (hs : s.MadeOf V) {k : Nat} {env : FrameId} (hk : env < k)
    (henv : env < s.frames.size) : s.walk k env = some (s.chain env) := by
  induction env using Nat.strongRecOn generalizing k with
  | ind env ih =>
      obtain ⟨k, rfl⟩ := Nat.exists_eq_add_one_of_ne_zero (Nat.ne_zero_of_lt hk)
      have hf := Array.getElem?_eq_getElem henv
      rw [walk, hf]
      cases hp : s.frames[env].parent with
      | none =>
          rw [chain_root hf hp]
          simp [hp]
      | some p =>
          have hlt : p < env := (hs env _ hf).older p hp
          have hrest := ih p hlt (Nat.lt_of_lt_of_le hlt (Nat.le_of_lt_succ hk))
            (Nat.lt_trans hlt henv)
          rw [hs.chain_inner hf hp]
          simp [hp, hrest]

theorem openLookup_eq (hs : s.MadeOf V) {k : Nat} {env : FrameId} (hk : env < k)
    (henv : env < s.frames.size) (name : String) :
    OpenRun.lookup name k env s = some (s.lookup env name, s) := by
  induction env using Nat.strongRecOn generalizing k with
  | ind env ih =>
      obtain ⟨k, rfl⟩ := Nat.exists_eq_add_one_of_ne_zero (Nat.ne_zero_of_lt hk)
      have hf := Array.getElem?_eq_getElem henv
      have hframe : OpenRun.frame env s = some (.ok s.frames[env], s) := by
        rw [OpenRun.frame, hf]
        rfl
      rw [OpenRun.lookup, OpenRun.bind_of_ok hframe, Store.lookup, Store.find?]
      cases hp : s.frames[env].parent with
      | none =>
          rw [chain_root hf hp, List.findSome?_singleton]
          cases s.frames[env].find? name <;> rfl
      | some p =>
          have hlt : p < env := (hs env _ hf).older p hp
          rw [hs.chain_inner hf hp, List.findSome?_cons]
          cases s.frames[env].find? name with
          | some v => rfl
          | none =>
              exact ih p hlt (Nat.lt_of_lt_of_le hlt (Nat.le_of_lt_succ hk))
                (Nat.lt_trans hlt henv)

end Store.MadeOf

theorem nodup_of_parameters {seen names : List String} {ps : List Node} (hseen : seen.Nodup)
    (h : parameters seen ps = .ok names) : names.Nodup := by
  induction ps generalizing seen with
  | nil =>
      cases h
      exact List.pairwise_reverse.2 (hseen.imp Ne.symm)
  | cons p ps ih =>
      cases p with
      | symbol name =>
          rw [parameters] at h
          by_cases hname : name ∈ seen
          · rw [if_pos hname] at h
            cases h
          · rw [if_neg hname] at h
            exact ih (List.nodup_cons.2 ⟨hname, hseen⟩) h
      | boolean | integer | list => cases h

/-- What a run from the store `t` comes to, which is what the open run `r'` settles on: a store made of
`V` with room for all that was in `t`, and, if it does not fail, a result with `P`. -/
structure Ends {α : Type} (V : Vocabulary) (P : Store → α → Prop) (t : Store)
    (r' : Nat → OpenRun α) (r : Run Store α) : Prop where
  result : OpenRun.Settles r' t (r.outcome t, r.after t)
  made : (r.after t).MadeOf V
  before : t.Before (r.after t)
  value : ∀ a, r.outcome t = .ok a → P (r.after t) a

def Sound {α : Type} (V : Vocabulary) (P : Store → α → Prop) (s : Store) (r' : Nat → OpenRun α)
    (r : Run Store α) : Prop :=
  ∀ t, t.MadeOf V → s.Before t → Ends V P t r' r

namespace Sound

variable {α β : Type} {P : Store → α → Prop} {Q : Store → β → Prop} {r' : Nat → OpenRun α}
  {r : Run Store α}

theorem mono (h : Sound V P s r' r) (hst : s.Before t) : Sound V P t r' r :=
  fun u hu htu => h u hu (hst.trans htu)

/-- It is enough to look at the open run from its first call on. -/
theorem call {r'' : Nat → OpenRun α} (he : ∀ k, r' (k + 1) = r'' k) (h : Sound V P s r'' r) :
    Sound V P s r' r := by
  intro t ht hst
  obtain ⟨hresult, hmade, hbefore, hvalue⟩ := h t ht hst
  exact ⟨hresult.succ he, hmade, hbefore, hvalue⟩

theorem pure {a : α} (h : ∀ t, s.Before t → P t a) : Sound V P s (fun _ => pure a) (pure a) := by
  intro t ht hst
  refine ⟨.const rfl, ht, .refl t, ?_⟩
  rintro _ ⟨⟩
  exact h t hst

theorem throw (e : Fault) : Sound V P s (fun _ => throw e) (throw e) := by
  intro t ht _
  refine ⟨.const rfl, ht, .refl t, ?_⟩
  rintro _ ⟨⟩

theorem ofExcept {x : Except Fault α} (h : ∀ a, x = .ok a → ∀ t, s.Before t → P t a) :
    Sound V P s (fun _ => OpenRun.of (Run.ofExcept x)) (Run.ofExcept x) := by
  cases x with
  | ok a => exact pure (h a rfl)
  | error e => exact throw e

theorem bind {f' : Nat → α → OpenRun β} {f : α → Run Store β} (h : Sound V P s r' r)
    (hf : ∀ t a, s.Before t → P t a → Sound V Q t (f' · a) (f a)) :
    Sound V Q s (fun k => r' k >>= f' k) (r >>= f) := by
  intro t ht hst
  obtain ⟨hresult, hmade, hbefore, hvalue⟩ := h t ht hst
  cases hr : r t with
  | ok a u =>
      rw [Run.outcome_of_ok hr] at hresult hvalue
      rw [Run.after_of_ok hr] at hresult hmade hbefore hvalue
      obtain ⟨hresult', hmade', hbefore', hvalue'⟩ :=
        hf u a (hst.trans hbefore) (hvalue a rfl) u hmade (.refl u)
      have houtcome : (r >>= f).outcome t = (f a).outcome u := Run.outcome_bind_of_ok hr f
      have hafter : (r >>= f).after t = (f a).after u := Run.after_bind_of_ok hr f
      refine ⟨?_, hafter ▸ hmade', hafter ▸ hbefore.trans hbefore', ?_⟩
      · rw [houtcome, hafter]
        exact hresult.bind_ok hresult'
      · rw [houtcome, hafter]
        exact hvalue'
  | error e u =>
      rw [Run.outcome_of_error hr] at hresult
      rw [Run.after_of_error hr] at hresult hmade hbefore
      have hbind : (r >>= f) t = .error e u := Run.bind_of_error hr
      have houtcome : (r >>= f).outcome t = .error e := Run.outcome_of_error hbind
      have hafter : (r >>= f).after t = u := Run.after_of_error hbind
      refine ⟨?_, hafter ▸ hmade, hafter ▸ hbefore, ?_⟩
      · rw [houtcome, hafter]
        exact hresult.bind_error
      · rw [houtcome]
        rintro _ ⟨⟩

theorem ifTruthy {test' : Nat → OpenRun Value} {test : Run Store Value} {yes' no' : Nat → OpenRun α}
    {yes no : Run Store α} (h : Sound V (fun t v => v.MadeOf V t) s test' test)
    (hyes : Sound V P s yes' yes) (hno : Sound V P s no' no) :
    Sound V P s (fun k => do let v ← test' k; if v.isTruthy then yes' k else no' k)
      (do if (← test).isTruthy then yes else no) := by
  refine bind h fun t v hst _ => ?_
  cases hv : v.isTruthy with
  | true => exact hyes.mono hst
  | false => exact hno.mono hst

theorem lookup {env : FrameId} (henv : env < s.frames.size) (name : String) :
    Sound V (fun t v => v.MadeOf V t) s (OpenRun.lookup name · env)
      (Run.ask (·.lookup env name)) := by
  intro t ht hst
  have henv' : env < t.frames.size := Nat.lt_of_lt_of_le henv hst.frames
  refine ⟨⟨env + 1, fun j hj => ?_⟩, ?_, ?_, ?_⟩
  · change OpenRun.lookup name j env t = _
    rw [ht.openLookup_eq hj henv', Run.outcome_ask, Run.after_ask]
    rfl
  · rwa [Run.after_ask]
  · rw [Run.after_ask]
    exact .refl t
  · intro v hv
    rw [Run.outcome_ask] at hv
    rw [Run.after_ask]
    change t.lookup env name = .ok v at hv
    rw [Store.lookup] at hv
    cases hfind : t.find? env name with
    | none =>
        rw [hfind] at hv
        cases hv
    | some w =>
        rw [hfind] at hv
        cases hv
        exact ht.find? hfind

theorem extend {env : FrameId} (henv : env < s.frames.size) {pairs : List (String × Value)}
    (hpairs : ∀ b ∈ pairs, b.2.MadeOf V s) :
    Sound V (fun t id => id < t.frames.size) s (fun _ => OpenRun.of (Run.change (·.extend env pairs)))
      (Run.change (·.extend env pairs)) := by
  intro t ht hst
  obtain ⟨hmade, hbefore, hid⟩ := ht.extend (Nat.lt_of_lt_of_le henv hst.frames)
    fun b hb => (hpairs b hb).mono hst
  refine ⟨.const rfl, hmade, hbefore, ?_⟩
  rintro _ ⟨⟩
  exact hid

theorem makeClosure {env : FrameId} (henv : env < s.frames.size) (params : Node) {body : Node}
    (hbody : V.node body) :
    Sound V (fun t v => v.MadeOf V t) s (fun _ => OpenRun.of (makeClosure env params body))
      (makeClosure env params body) := by
  cases params with
  | list ps =>
      rw [SmallLisp.makeClosure]
      cases hp : parameters [] ps with
      | error e => exact throw e
      | ok names =>
          intro t ht hst
          refine ⟨.const rfl, ht.close, ⟨Nat.le_refl _, Nat.le_succ _⟩, ?_⟩
          rintro _ ⟨⟩
          have hnames : V.distinct → names.Nodup := fun _ => nodup_of_parameters List.nodup_nil hp
          exact .closure ⟨Nat.lt_of_lt_of_le henv hst.frames, Nat.lt_succ_self _, hbody, hnames⟩
  | boolean | integer | symbol => exact throw _

theorem define (env : FrameId) {target : Node} (htarget : V.node target) {v : Value}
    (hv : v.MadeOf V s) :
    Sound V (fun t v => v.MadeOf V t) s (fun _ => OpenRun.of (define env target v))
      (define env target v) := by
  cases target with
  | symbol name =>
      have hdefine : Sound V (fun _ _ => True) s (fun _ => OpenRun.of (Run.attempt (·.define env name v)))
          (Run.attempt (·.define env name v)) := by
        intro t ht hst
        obtain ⟨hmade, hbefore⟩ := ht.define env name (hv.mono hst)
        refine ⟨.const rfl, ?_, ?_, fun _ _ => trivial⟩
        · rwa [Run.after_attempt]
        · rwa [Run.after_attempt]
      rw [define_symbol, OpenRun.of_bind]
      exact bind hdefine fun _ _ _ _ => pure fun _ _ => .symbol (V.symbol htarget)
  | boolean | integer | list => exact throw _

section Evaluation

variable {limit depth : Nat} {applying : Applying Store}

/-- Applications of closures made of `V` go right. -/
def Applies (V : Vocabulary) (limit depth : Nat) (applying : Applying Store) : Prop :=
  ∀ {s : Store} {c : Closure} {args : List Value}, c.MadeOf V s → (∀ v ∈ args, v.MadeOf V s) →
    Sound V (fun t v => v.MadeOf V t) s (OpenRun.apply limit · depth c args) (applying c args)

theorem eval_all (happly : Applies V limit depth applying) :
    (∀ env n, ∀ {s : Store}, V.node n → env < s.frames.size →
      Sound V (fun t v => v.MadeOf V t) s (OpenRun.eval limit · depth env n)
        (n.eval applying env)) ∧
    (∀ env clauses, ∀ {s : Store}, (∀ n ∈ clauses, V.node n) → env < s.frames.size →
      Sound V (fun t v => v.MadeOf V t) s (OpenRun.evalClauses limit · depth env clauses)
        (Node.evalClauses applying env clauses)) ∧
    (∀ env bindings, ∀ {s : Store}, (∀ n ∈ bindings, V.node n) → env < s.frames.size →
      Sound V (fun t id => id < t.frames.size) s (OpenRun.bindAll limit · depth env bindings)
        (Node.bindAll applying env bindings)) ∧
    (∀ env ns, ∀ {s : Store}, (∀ n ∈ ns, V.node n) → env < s.frames.size →
      Sound V (fun t vs => ∀ v ∈ vs, v.MadeOf V t) s (OpenRun.evalAll limit · depth env ns)
        (Node.evalAll applying env ns)) := by
  refine Node.eval.mutual_induct
    (fun env n => ∀ {s : Store}, V.node n → env < s.frames.size →
      Sound V (fun t v => v.MadeOf V t) s (OpenRun.eval limit · depth env n)
        (n.eval applying env))
    (fun env clauses => ∀ {s : Store}, (∀ n ∈ clauses, V.node n) → env < s.frames.size →
      Sound V (fun t v => v.MadeOf V t) s (OpenRun.evalClauses limit · depth env clauses)
        (Node.evalClauses applying env clauses))
    (fun env bindings => ∀ {s : Store}, (∀ n ∈ bindings, V.node n) → env < s.frames.size →
      Sound V (fun t id => id < t.frames.size) s (OpenRun.bindAll limit · depth env bindings)
        (Node.bindAll applying env bindings))
    (fun env ns => ∀ {s : Store}, (∀ n ∈ ns, V.node n) → env < s.frames.size →
      Sound V (fun t vs => ∀ v ∈ vs, v.MadeOf V t) s (OpenRun.evalAll limit · depth env ns)
        (Node.evalAll applying env ns))
    ?boolean ?integer ?symbol ?empty ?call ?arity ?strict ?quote ?ifElse ?define ?lambda
    ?letIn ?badLet ?defn ?cond ?badCond ?other
    ?noClause ?clause ?badClause ?noBinding ?binding ?badBinding ?noOperand ?operand
  case boolean =>
    intro env b s _ _
    rw [Node.eval]
    exact call (fun _ => by rw [OpenRun.eval]) (pure fun _ _ => .boolean b)
  case integer =>
    intro env n s _ _
    rw [Node.eval]
    exact call (fun _ => by rw [OpenRun.eval]) (pure fun _ _ => .integer n)
  case symbol =>
    intro env name s _ henv
    rw [Node.eval]
    exact call (fun _ => by rw [OpenRun.eval]) (lookup henv name)
  case empty =>
    intro env s _ _
    rw [Node.eval]
    exact call (fun _ => by rw [OpenRun.eval]) (throw _)
  case call =>
    intro env head operands hk hhead hall s hn henv
    obtain ⟨hn, hns⟩ := List.forall_mem_cons.1 fun m hm => V.item hn hm
    rw [Node.eval_call _ env hk]
    refine call (OpenRun.eval_call limit · depth env hk) ?_
    refine bind (hhead hn henv) fun t v hst hv => ?_
    refine bind (ofExcept (P := fun t c => c.MadeOf V t) fun c hc u hu => (hv.callee hc).mono hu)
      fun u c htu hc => ?_
    refine bind (ofExcept (P := fun _ _ => True) fun _ _ _ _ => trivial) fun w _ huw _ => ?_
    have hsw : s.Before w := (hst.trans htu).trans huw
    refine bind (hall hns (Nat.lt_of_lt_of_le henv hsw.frames)) fun x vs hwx hvs => ?_
    exact happly (hc.mono (huw.trans hwx)) hvs
  case arity =>
    intro env head operands k hk hl s _ _
    rw [Node.eval_keywordArity _ env hk hl]
    refine call (OpenRun.eval_keywordArity limit · depth env hk hl) ?_
    exact throw _
  case strict =>
    intro env head operands k hk hl hs hall s hn henv
    have hl' : operands.length = k.operands := Decidable.not_not.1 hl
    obtain ⟨-, hns⟩ := List.forall_mem_cons.1 fun m hm => V.item hn hm
    rw [Node.eval_strict _ env hk hl' hs]
    refine call (OpenRun.eval_strict limit · depth env hk hl' hs) ?_
    exact bind (hall hns henv) fun t vs _ hvs =>
      ofExcept fun v hv u hu => (Value.MadeOf.compute hvs hv).mono hu
  case quote =>
    intro env head n hk _ _ s hn _
    rw [Node.eval_quote _ env hk]
    refine call (OpenRun.eval_quote limit · depth env hk) ?_
    exact pure fun _ _ => .ofNode (V.item hn (by simp))
  case ifElse =>
    intro env head test yes no hk _ _ htest hyes hno s hn henv
    rw [Node.eval_ifElse _ env hk]
    refine call (OpenRun.eval_ifElse limit · depth env hk) ?_
    exact ifTruthy (htest (V.item hn (by simp)) henv) (hyes (V.item hn (by simp)) henv)
      (hno (V.item hn (by simp)) henv)
  case define =>
    intro env head target n hk _ _ h s hn henv
    rw [Node.eval_define _ env hk]
    refine call (OpenRun.eval_define limit · depth env hk) ?_
    exact bind (h (V.item hn (by simp)) henv) fun t v _ hv => define env (V.item hn (by simp)) hv
  case lambda =>
    intro env head params body hk _ _ s hn henv
    rw [Node.eval_lambda _ env hk]
    refine call (OpenRun.eval_lambda limit · depth env hk) ?_
    exact makeClosure henv params (V.item hn (by simp))
  case letIn =>
    intro env head bindings body hk _ _ hbindings hbody s hn henv
    have hlist : V.node (.list bindings) := V.item hn (by simp)
    rw [Node.eval_letIn _ env hk]
    refine call (OpenRun.eval_letIn limit · depth env hk) ?_
    exact bind (hbindings (fun m hm => V.item hlist hm) henv) fun t scope _ hscope =>
      hbody scope (V.item hn (by simp)) hscope
  case badLet =>
    intro env head bindings body hb hk _ _ s _ _
    rw [Node.eval_letIn_of_items? _ env hk (Node.items?_eq_none hb)]
    refine call (OpenRun.eval_letIn_of_items? limit · depth env hk (Node.items?_eq_none hb)) ?_
    exact throw _
  case defn =>
    intro env head target params body hk _ _ s hn henv
    rw [Node.eval_defn _ env hk]
    refine call (OpenRun.eval_defn limit · depth env hk) ?_
    exact bind (makeClosure henv params (V.item hn (by simp))) fun t v _ hv =>
      define env (V.item hn (by simp)) hv
  case cond =>
    intro env head clauses hk _ _ hclauses s hn henv
    have hlist : V.node (.list clauses) := V.item hn (by simp)
    rw [Node.eval_cond _ env hk]
    refine call (OpenRun.eval_cond limit · depth env hk) ?_
    exact hclauses (fun m hm => V.item hlist hm) henv
  case badCond =>
    intro env head clauses hc hk _ _ s _ _
    rw [Node.eval_cond_of_items? _ env hk (Node.items?_eq_none hc)]
    refine call (OpenRun.eval_cond_of_items? limit · depth env hk (Node.items?_eq_none hc)) ?_
    exact throw _
  case other =>
    intro env head k operands hquote hif hdefine hlambda _ hlet hdefn _ hcond _ hs hl
    exact absurd (Decidable.not_not.1 hl)
      (Keyword.not_other hquote hif hdefine hlambda hlet hdefn hcond hs)
  case noClause =>
    intro env s _ _
    rw [Node.evalClauses]
    exact call (fun _ => by rw [OpenRun.evalClauses]) (pure fun _ _ => .boolean false)
  case clause =>
    intro env test n clauses htest hn hclauses s hns henv
    obtain ⟨hclause, hrest⟩ := List.forall_mem_cons.1 hns
    rw [Node.evalClauses]
    refine call (OpenRun.evalClauses_cons limit · depth env test n clauses) ?_
    exact ifTruthy (htest (V.item hclause (by simp)) henv) (hn (V.item hclause (by simp)) henv)
      (hclauses hrest henv)
  case badClause =>
    intro env clause clauses hc s _ _
    rw [Node.evalClauses_malformed _ env hc]
    refine call (OpenRun.evalClauses_malformed limit · depth env hc clauses) ?_
    exact throw _
  case noBinding =>
    intro env s _ henv
    rw [Node.bindAll]
    exact call (fun _ => by rw [OpenRun.bindAll]) (pure fun t hst => Nat.lt_of_lt_of_le henv hst.frames)
  case binding =>
    intro env name n bindings hn hbindings s hns henv
    obtain ⟨hbinding, hrest⟩ := List.forall_mem_cons.1 hns
    rw [Node.bindAll]
    refine call (OpenRun.bindAll_cons limit · depth env name n bindings) ?_
    refine bind (hn (V.item hbinding (by simp)) henv) fun t v hst hv => ?_
    refine bind (extend (Nat.lt_of_lt_of_le henv hst.frames) (List.forall_mem_singleton.2 hv))
      fun u inner _ hinner => ?_
    exact hbindings inner hrest hinner
  case badBinding =>
    intro env binding bindings hb s _ _
    rw [Node.bindAll_malformed _ env hb]
    refine call (OpenRun.bindAll_malformed limit · depth env hb bindings) ?_
    exact throw _
  case noOperand =>
    intro env s _ _
    rw [Node.evalAll]
    exact call (fun _ => by rw [OpenRun.evalAll]) (pure fun _ _ => List.forall_mem_nil _)
  case operand =>
    intro env n ns hn hns s h henv
    obtain ⟨h, hrest⟩ := List.forall_mem_cons.1 h
    rw [Node.evalAll]
    refine call (OpenRun.evalAll_cons limit · depth env n ns) ?_
    refine bind (hn h henv) fun t v hst hv => ?_
    refine bind (hns hrest (Nat.lt_of_lt_of_le henv hst.frames)) fun u vs htu hvs => ?_
    exact pure fun w huw => List.forall_mem_cons.2
      ⟨hv.mono (htu.trans huw), fun v hv => (hvs v hv).mono huw⟩

theorem entered (happly : Applies V limit (depth + 1) applying) (hlt : depth < limit) {c : Closure}
    {args : List Value} (hc : c.checkArity args.length = .ok ()) (hmade : c.MadeOf V s)
    (hargs : ∀ v ∈ args, v.MadeOf V s) :
    Sound V (fun t v => v.MadeOf V t) s (OpenRun.apply limit · depth c args) (do
      let scope ← Run.change (·.extend c.env (c.params.zip args))
      c.body.eval applying scope) := by
  have hpairs : ∀ b ∈ c.params.zip args, b.2.MadeOf V s :=
    fun b hb => hargs b.2 (List.of_mem_zip hb).2
  refine call (fun k => OpenRun.apply_of_lt limit k depth hc hlt) ?_
  exact bind (extend hmade.env hpairs) fun t scope _ hscope =>
    (eval_all happly).1 scope c.body hmade.body hscope

theorem applies (V : Vocabulary) (limit : Nat) {depth room : Nat} (h : depth + room = limit) :
    Applies V limit depth (applyWithin limit room) := by
  induction room generalizing depth with
  | zero =>
      intro s c args _ _
      cases hc : c.checkArity args.length with
      | error e =>
          rw [applyWithin_of_error limit hc]
          exact call (OpenRun.apply_of_error limit · depth hc) (throw e)
      | ok _ =>
          rw [applyWithin_zero limit hc]
          exact call (fun k => OpenRun.apply_of_not_lt limit k depth hc (by omega)) (throw _)
  | succ room ih =>
      intro s c args hmade hargs
      cases hc : c.checkArity args.length with
      | error e =>
          rw [applyWithin_of_error limit hc]
          exact call (OpenRun.apply_of_error limit · depth hc) (throw e)
      | ok _ =>
          rw [applyWithin_succ limit hc]
          simp only [Run.within_store]
          exact entered (ih (by omega)) (by omega) hc hmade hargs

end Evaluation

end Sound

/-- In a store made of `V`, the evaluation of a node of `V` goes right. -/
theorem Store.MadeOf.evaluate (hs : s.MadeOf V) (limit : Nat) {env : FrameId}
    (henv : env < s.frames.size) {n : Node} (hn : V.node n) :
    Ends V (fun t v => v.MadeOf V t) s (OpenRun.eval limit · 0 env n)
      (SmallLisp.evaluate limit env n) :=
  (Sound.eval_all (Sound.applies V limit (Nat.zero_add limit))).1 env n hn henv s hs (.refl s)

theorem Store.MadeOf.apply (hs : s.MadeOf V) (limit : Nat) {c : Closure} (hc : c.MadeOf V s)
    {args : List Value} (hargs : ∀ v ∈ args, v.MadeOf V s) :
    Ends V (fun t v => v.MadeOf V t) s (OpenRun.apply limit · 0 c args)
      (SmallLisp.apply limit c args) :=
  Sound.applies V limit (Nat.zero_add limit) hc hargs s hs (.refl s)

theorem Store.MadeOf.applyToNodes (hs : s.MadeOf V) (limit : Nat) {env : FrameId}
    (henv : env < s.frames.size) {c : Closure} (hc : c.MadeOf V s) {operands : List Node}
    (hn : ∀ n ∈ operands, V.node n) :
    Ends V (fun t v => v.MadeOf V t) s
      (fun k => do
        OpenRun.of (Run.ofExcept (c.checkArity operands.length))
        let args ← OpenRun.evalAll limit k 0 env operands
        OpenRun.apply limit k 0 c args)
      (SmallLisp.applyToNodes limit env c operands) := by
  have happly : Sound.Applies V limit 0 (SmallLisp.apply limit) :=
    Sound.applies V limit (Nat.zero_add limit)
  have hall := (Sound.eval_all happly).2.2.2 env operands hn henv
  refine Sound.bind (P := fun _ _ => True) (.ofExcept fun _ _ _ _ => trivial) (fun t _ hst _ => ?_)
    s hs (.refl s)
  exact .bind (hall.mono hst) fun u args htu hargs => happly (hc.mono (hst.trans htu)) hargs

end SmallLisp
