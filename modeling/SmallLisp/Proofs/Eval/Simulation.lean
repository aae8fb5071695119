import SmallLisp.Proofs.Eval.Matching

namespace SmallLisp.Matching

variable {M : Matching} {α β γ δ : Type} {n m : Nat}

/-- What a run comes to from a store of `n` frames, and what a run comes to from a store that matches.
`P` relates their results, given the number of frames there are by then. -/
inductive Outcomes (M : Matching) (P : Nat → α → β → Prop) (n : Nat) :
    EStateM.Result Fault Store α → EStateM.Result Fault Store β → Prop
  | ok {a : α} {b : β} {s t : Store} (hs : M.Stores s t) (hn : n ≤ s.frames.size)
      (h : P s.frames.size a b) : Outcomes M P n (.ok a s) (.ok b t)
  | error {s t : Store} (hs : M.Stores s t) (hn : n ≤ s.frames.size) (e : Fault) :
      Outcomes M P n (.error e s) (.error e t)
  | overflow {x : EStateM.Result Fault Store α} {limit : Nat} {t : Store} (hd : M.derived) :
      Outcomes M P n x (.error (.stackOverflow limit) t)

/-- Runs that come to the like from stores that match, of which the first has at least `n` frames. -/
def Runs (M : Matching) (P : Nat → α → β → Prop) (n : Nat) (r : Run Store α) (r' : Run Store β) :
    Prop :=
  ∀ s t, M.Stores s t → n ≤ s.frames.size → M.Outcomes P s.frames.size (r s) (r' t)

theorem Outcomes.mono {P : Nat → α → β → Prop} {x : EStateM.Result Fault Store α}
    {y : EStateM.Result Fault Store β} (h : M.Outcomes P m x y) (hnm : n ≤ m) :
    M.Outcomes P n x y := by
  cases h with
  | ok hs hn h => exact .ok hs (Nat.le_trans hnm hn) h
  | error hs hn e => exact .error hs (Nat.le_trans hnm hn) e
  | overflow hd => exact .overflow hd

namespace Runs

variable {P : Nat → α → β → Prop} {Q : Nat → γ → δ → Prop}

theorem mono {r : Run Store α} {r' : Run Store β} (h : M.Runs P n r r') (hnm : n ≤ m) :
    M.Runs P m r r' :=
  fun s t hs hm => h s t hs (Nat.le_trans hnm hm)

theorem pure {a : α} {b : β} (h : ∀ m, n ≤ m → P m a b) : M.Runs P n (pure a) (pure b) :=
  fun _ _ hs hn => .ok hs (Nat.le_refl _) (h _ hn)

theorem throw (e : Fault) : M.Runs P n (throw e) (throw e) :=
  fun _ _ hs _ => .error hs (Nat.le_refl _) e

theorem overflow (hd : M.derived) (r : Run Store α) (limit : Nat) :
    M.Runs P n r (MonadExcept.throw (.stackOverflow limit)) :=
  fun _ _ _ _ => .overflow hd

theorem bind {r : Run Store α} {r' : Run Store β} {f : α → Run Store γ} {f' : β → Run Store δ}
    (h : M.Runs P n r r')
    (hf : ∀ m, n ≤ m → ∀ a b, P m a b → M.Runs Q m (f a) (f' b)) :
    M.Runs Q n (r >>= f) (r' >>= f') := by
  intro s t hs hn
  have hr := h s t hs hn
  generalize hx : r s = x, hy : r' t = y at hr
  cases hr with
  | ok hs' hn' hab =>
      rw [Run.bind_of_ok hx, Run.bind_of_ok hy]
      exact (hf _ (Nat.le_trans hn hn') _ _ hab _ _ hs' (Nat.le_refl _)).mono hn'
  | error hs' hn' e =>
      rw [Run.bind_of_error hx, Run.bind_of_error hy]
      exact .error hs' hn' e
  | overflow hd =>
      rw [Run.bind_of_error hy]
      exact .overflow hd

theorem ofExcept {x : Except Fault α} {y : Except Fault β} (h : Likewise (P n) x y)
    (hP : ∀ m, n ≤ m → ∀ a b, P n a b → P m a b) :
    M.Runs P n (Run.ofExcept x) (Run.ofExcept y) := by
  cases h with
  | ok h => exact pure fun m hm => hP m hm _ _ h
  | error e => exact throw e

theorem lookup {name : String} (hname : name ∉ M.hidden) (env : FrameId) :
    M.Runs M.Values n (Run.ask (·.lookup env name)) (Run.ask (·.lookup (M.frame env) name)) := by
  intro s t hs _
  have hlookup := hs.lookup hname env
  generalize hx : s.lookup env name = x, hy : t.lookup (M.frame env) name = y at hlookup
  cases hlookup with
  | ok h =>
      rw [Run.ask_of_ok hx, Run.ask_of_ok hy]
      exact .ok hs (Nat.le_refl _) h
  | error e =>
      rw [Run.ask_of_error hx, Run.ask_of_error hy]
      exact .error hs (Nat.le_refl _) e

theorem close {env : FrameId} (henv : M.InScope n env) (params : List String) {body body' : Node}
    (hb : M.body body body') (hbody : M.Alike body body') :
    M.Runs M.Closures n (Run.change (·.close env params body))
      (Run.change (·.close (M.frame env) params body')) :=
  fun _ _ hs hn => .ok hs.close (Nat.le_refl _)
    ⟨hs.numbers, rfl, rfl, henv.mono hn, hb, hbody⟩

theorem after_close (hd : M.derived) {env : FrameId} {params : List String} {body : Node}
    {r : Run Store γ} {f : Closure → Run Store δ} (h : ∀ id, M.Runs Q n r (f ⟨id, params, body, env⟩)) :
    M.Runs Q n r (Run.change (·.close env params body) >>= f) :=
  fun s t hs hn => h t.closures s _ (hs.close_derived hd) hn

theorem makeClosure {env : FrameId} (henv : M.InScope n env) (params : Node) {body body' : Node}
    (hb : M.body body body') (hbody : M.Alike body body') :
    M.Runs M.Values n (makeClosure env params body) (makeClosure (M.frame env) params body') := by
  cases params with
  | list ps =>
      rw [SmallLisp.makeClosure, SmallLisp.makeClosure]
      cases hp : parameters [] ps with
      | error e => exact throw e
      | ok names =>
          change M.Runs M.Values n
            (Run.change (·.close env names body) >>= fun c => Pure.pure (Value.closure c))
            (Run.change (·.close (M.frame env) names body') >>= fun c => Pure.pure (Value.closure c))
          exact bind (close henv names hb hbody) fun _ _ _ _ hc => pure fun _ hm => .closure (hc.mono hm)
  | boolean | integer | symbol => exact throw _

theorem define (env : FrameId) {target : Node}
    (htarget : ∀ name, target = .symbol name → name ∉ M.hidden) {v w : Value}
    (hv : M.Values n v w) :
    M.Runs M.Values n (define env target v) (define (M.frame env) target w) := by
  cases target with
  | symbol name =>
      intro s t hs hn
      obtain ⟨hlike, hstores, hsize⟩ :=
        hs.define env (htarget name rfl) (values_mono hn hv)
      rw [define_symbol, define_symbol]
      rcases hx : s.define env name v with ⟨x, s'⟩
      rcases hy : t.define (M.frame env) name w with ⟨y, t'⟩
      rw [hx, hy] at hlike hstores
      rw [hx] at hsize
      cases hlike with
      | ok _ =>
          rw [Run.bind_of_ok (Run.attempt_of_ok hx), Run.bind_of_ok (Run.attempt_of_ok hy)]
          exact .ok hstores (Nat.le_of_eq hsize.symm) (.symbol name)
      | error e =>
          rw [Run.bind_of_error (Run.attempt_of_error hx), Run.bind_of_error (Run.attempt_of_error hy)]
          exact .error hstores (Nat.le_of_eq hsize.symm) e
  | boolean | integer | list => exact throw _

theorem ifTruthy {r r' : Run Store Value} {yes no : Run Store γ} {yes' no' : Run Store δ}
    (h : M.Runs M.Values n r r') (hyes : M.Runs Q n yes yes') (hno : M.Runs Q n no no') :
    M.Runs Q n (do if (← r).isTruthy then yes else no) (do if (← r').isTruthy then yes' else no') := by
  refine bind h fun m hm v w hv => ?_
  rw [hv.isTruthy_eq]
  by_cases htrue : w.isTruthy
  · rw [if_pos htrue, if_pos htrue]
    exact hyes.mono hm
  · rw [if_neg htrue, if_neg htrue]
    exact hno.mono hm

theorem extend {env : FrameId} (henv : M.InScope n env) {bs cs : List (String × Value)}
    (hbs : List.Forall₂ (M.Bindings n) bs cs) {f : FrameId → Run Store γ}
    {f' : FrameId → Run Store δ}
    (hf : ∀ m inner, n ≤ m → M.InScope m inner → M.Runs Q m (f inner) (f' (M.frame inner))) :
    M.Runs Q n (Run.change (·.extend env bs) >>= f)
      (Run.change (·.extend (M.frame env) cs) >>= f') := by
  intro s t hs hn
  have hbs' : List.Forall₂ (M.Bindings s.frames.size) bs cs :=
    hbs.imp fun _ _ hb => ⟨hb.1, values_mono hn hb.2⟩
  have hstores := hs.extend (henv.mono hn) hbs'
  have hsize : (s.extend env bs).2.frames.size = s.frames.size + 1 := Array.size_push ..
  change M.Outcomes Q s.frames.size (f s.frames.size (s.extend env bs).2)
    (f' t.frames.size (t.extend (M.frame env) cs).2)
  rw [← hs.frame_size]
  refine (hf (s.frames.size + 1) _ (by omega) (fun _ => Nat.lt_succ_self _) _ _ hstores ?_).mono ?_
  · exact Nat.le_of_eq hsize.symm
  · rw [hsize]
    exact Nat.le_succ _

theorem extendOne {env : FrameId} (henv : M.InScope n env) (name : String) {v w : Value}
    (hv : M.Values n v w) {f : FrameId → Run Store γ} {f' : FrameId → Run Store δ}
    (hf : ∀ m inner, n ≤ m → M.InScope m inner → M.Runs Q m (f inner) (f' (M.frame inner))) :
    M.Runs Q n (Run.change (·.extend env [(name, v)]) >>= f)
      (Run.change (·.extend (M.frame env) [(name, w)]) >>= f') := by
  refine extend henv (.cons ?_ .nil) hf
  exact ⟨rfl, hv⟩

end Runs

/-- How many applications the second evaluation may begin when the first may begin `room`. -/
def Rooms (M : Matching) (room room' : Nat) : Prop := room' ≤ room ∧ (¬ M.derived → room' = room)

theorem bindings_zip {c d : Closure} (hcd : M.Closures n c d) {vs ws : List Value}
    (h : M.ValuesAll n vs ws) :
    List.Forall₂ (M.Bindings n) (c.params.zip vs) (d.params.zip ws) := by
  rw [hcd.params]
  generalize c.params = params
  induction params generalizing vs ws with
  | nil => exact .nil
  | cons name params ih =>
      cases h with
      | nil => exact .nil
      | cons h hs => exact .cons ⟨rfl, h⟩ (ih hs)

/-- The applications of two closures to values run alike if closures and values match. -/
def Applies (M : Matching) (limit room room' : Nat) : Prop :=
  ∀ {n : Nat} {c d : Closure} {vs ws : List Value}, M.Closures n c d → M.ValuesAll n vs ws →
    M.Runs M.Values n (applyWithin limit room c vs) (applyWithin limit room' d ws)

theorem checkArity_eq {c d : Closure} (h : M.Closures n c d) (k : Nat) :
    c.checkArity k = d.checkArity k := by
  rw [Closure.checkArity, Closure.checkArity, h.arity_eq]

theorem Runs.checked {Q : Nat → γ → δ → Prop} {c d : Closure} (hcd : M.Closures n c d) (k : Nat)
    {r : Run Store γ} {r' : Run Store δ} (h : M.Runs Q n r r') :
    M.Runs Q n (do Run.ofExcept (c.checkArity k); r) (do Run.ofExcept (d.checkArity k); r') := by
  rw [checkArity_eq hcd]
  cases d.checkArity k with
  | ok _ => exact h
  | error e => exact .throw e

theorem AlikeAll.length_eq {ns ns' : List Node} (h : M.AlikeAll ns ns') : ns.length = ns'.length := by
  induction ns generalizing ns' with
  | nil =>
      cases h
      rfl
  | cons n ns ih =>
      cases h with
      | cons _ hs => rw [List.length_cons, List.length_cons, ih hs]

theorem eval_letCall {call : Applying Store} {env : FrameId} {name : String} {inner n : Node} :
    Node.eval call env (.list [.list [.symbol "lambda", .list [.symbol name], inner], n]) = (do
      let c ← Run.change (·.close env [name] inner)
      let v ← Node.eval call env n
      call c [v]) := by
  rw [Node.eval_call _ _ rfl, Node.eval_lambda _ _ rfl]
  simp only [Node.evalAll, bind_assoc, pure_bind]
  rfl

section Evaluation

variable {limit room : Nat}

mutual

theorem Alike.runs (happly : ∀ room', M.Rooms room room' → M.Applies limit room room')
    {n n' : Node} (h : M.Alike n n') {room' m : Nat} {env : FrameId} (hr : M.Rooms room room')
    (he : M.InScope m env) :
    M.Runs M.Values m (n.eval (applyWithin limit room) env)
      (n'.eval (applyWithin limit room') (M.frame env)) :=
  match h with
  | .boolean b => .pure fun _ _ => .boolean b
  | .integer n => .pure fun _ _ => .integer n
  | .symbol hname => .lookup hname env
  | .empty => .throw _
  | .call hk hk' h hs => by
      rw [Node.eval_call _ _ hk, Node.eval_call _ _ hk']
      refine .bind (Alike.runs happly h hr he) fun m₁ hm₁ v w hv => ?_
      have hcallee := hv.callee fun _ _ => Closures.arity_eq
      refine .bind (.ofExcept hcallee fun _ hm _ _ => Closures.mono hm) fun m₂ hm₂ c d hcd => ?_
      rw [hs.length_eq]
      refine .checked hcd _ ?_
      refine .bind ((AlikeAll.runs happly hs hr he).mono (Nat.le_trans hm₁ hm₂))
        fun m₃ hm₃ vs ws hvs => ?_
      exact happly _ hr (hcd.mono hm₃) hvs
  | .arity hk hl => by
      rw [Node.eval_keywordArity _ _ hk hl, Node.eval_keywordArity _ _ hk hl]
      exact .throw _
  | .strict hk hl hs h => by
      rw [Node.eval_strict _ _ hk hl hs, Node.eval_strict _ _ hk (h.length_eq ▸ hl) hs]
      refine .bind (AlikeAll.runs happly h hr he) fun m _ vs ws hvs => ?_
      exact .ofExcept (Keyword.compute_lift hvs _) fun _ hm _ _ => values_mono hm
  | .quote hk => by
      rw [Node.eval_quote _ _ hk, Node.eval_quote _ _ hk]
      exact .pure fun _ _ => Value.lift_ofNode _
  | .ifElse hk htest hyes hno => by
      rw [Node.eval_ifElse _ _ hk, Node.eval_ifElse _ _ hk]
      exact .ifTruthy (Alike.runs happly htest hr he) (Alike.runs happly hyes hr he)
        (Alike.runs happly hno hr he)
  | .define hk ht h => by
      rw [Node.eval_define _ _ hk, Node.eval_define _ _ hk]
      exact .bind (Alike.runs happly h hr he) fun _ _ _ _ hv => .define env ht hv
  | .lambda hk hb h => by
      rw [Node.eval_lambda _ _ hk, Node.eval_lambda _ _ hk]
      exact .makeClosure he _ hb h
  | .defn hk ht hb h => by
      rw [Node.eval_defn _ _ hk, Node.eval_defn _ _ hk]
      exact .bind (.makeClosure he _ hb h) fun _ _ _ _ hv => .define env ht hv
  | .letNil hk h => by
      rw [Node.eval_letIn_nil _ _ hk, Node.eval_letIn_nil _ _ hk]
      exact Alike.runs happly h hr he
  | .letCons hk h hrest => by
      rw [Node.eval_letIn_cons _ _ hk, Node.eval_letIn_cons _ _ hk]
      exact .bind (Alike.runs happly h hr he) fun m hm v w hv =>
        .extendOne (he.mono hm) _ hv fun _ _ _ hin => Alike.runs happly hrest hr hin
  | .letMalformed hk hb => by
      rw [Node.eval_letIn_malformed _ _ hk hb, Node.eval_letIn_malformed _ _ hk hb]
      exact .throw _
  | .letNoList hk hb => by
      rw [Node.eval_letIn_of_items? _ _ hk hb, Node.eval_letIn_of_items? _ _ hk hb]
      exact .throw _
  | .condNil hk => by
      rw [Node.eval_cond_nil _ _ hk, Node.eval_cond_nil _ _ hk]
      exact .pure fun _ _ => .boolean false
  | .condCons hk htest h hrest => by
      rw [Node.eval_cond_cons _ _ hk, Node.eval_cond_cons _ _ hk]
      exact .ifTruthy (Alike.runs happly htest hr he) (Alike.runs happly h hr he)
        (Alike.runs happly hrest hr he)
  | .condMalformed hk hc => by
      rw [Node.eval_cond_malformed _ _ hk hc, Node.eval_cond_malformed _ _ hk hc]
      exact .throw _
  | .condNoList hk hc => by
      rw [Node.eval_cond_of_items? _ _ hk hc, Node.eval_cond_of_items? _ _ hk hc]
      exact .throw _
  | .defnDefine _ hk ht hb h => by
      rw [Node.eval_defn _ _ hk, Node.eval_define _ _ rfl, Node.eval_lambda _ _ rfl]
      exact .bind (.makeClosure he _ hb h) fun _ _ _ _ hv => .define env ht hv
  | .letBody _ hk h => by
      rw [Node.eval_letIn_nil _ _ hk]
      exact Alike.runs happly h hr he
  | .letCall hd hk h hrest => by
      rw [Node.eval_letIn_cons _ _ hk, eval_letCall]
      refine .after_close hd fun id => .bind (Alike.runs happly h hr he) fun m hm v w hv => ?_
      -- both bind the name in a new frame, but in the second run that is an application
      cases room' with
      | zero =>
          rw [applyWithin_zero limit rfl]
          exact .overflow hd _ limit
      | succ r =>
          rw [applyWithin_succ limit rfl]
          have hr' : M.Rooms room r := ⟨Nat.le_of_succ_le hr.1, fun hd' => absurd hd hd'⟩
          refine .extendOne (he.mono hm) _ hv fun m' inner _ hin => ?_
          rw [Run.within_store]
          exact Alike.runs happly hrest hr' hin
  | .condFalse _ hk => by
      rw [Node.eval_cond_nil _ _ hk]
      exact .pure fun _ _ => .boolean false
  | .condIf _ hk htest h hrest => by
      rw [Node.eval_cond_cons _ _ hk, Node.eval_ifElse _ _ rfl]
      exact .ifTruthy (Alike.runs happly htest hr he) (Alike.runs happly h hr he)
        (Alike.runs happly hrest hr he)

theorem AlikeAll.runs (happly : ∀ room', M.Rooms room room' → M.Applies limit room room')
    {ns ns' : List Node} (h : M.AlikeAll ns ns') {room' m : Nat} {env : FrameId}
    (hr : M.Rooms room room') (he : M.InScope m env) :
    M.Runs M.ValuesAll m (Node.evalAll (applyWithin limit room) env ns)
      (Node.evalAll (applyWithin limit room') (M.frame env) ns') :=
  match h with
  | .nil => .pure fun _ _ => .nil
  | .cons h hs => by
      rw [Node.evalAll, Node.evalAll]
      refine .bind (Alike.runs happly h hr he) fun m₁ hm₁ v w hv => ?_
      refine .bind ((AlikeAll.runs happly hs hr he).mono hm₁) fun m₂ hm₂ vs ws hvs => ?_
      exact .pure fun m₃ hm₃ => .cons (values_mono (Nat.le_trans hm₂ hm₃) hv) (valuesAll_mono hm₃ hvs)

end

end Evaluation

theorem Rooms.pred {room room' : Nat} (h : M.Rooms (room + 1) (room' + 1)) : M.Rooms room room' :=
  ⟨Nat.le_of_succ_le_succ h.1, fun hd => Nat.succ.inj (h.2 hd)⟩

theorem Rooms.derived {room : Nat} (h : M.Rooms (room + 1) 0) : M.derived := by
  by_contra hd
  exact absurd (h.2 hd) (Nat.succ_ne_zero room).symm

theorem Applies.of_checkArity {limit room room' : Nat}
    (h : ∀ {n : Nat} {c d : Closure} {vs ws : List Value}, M.Closures n c d → M.ValuesAll n vs ws →
      c.checkArity vs.length = .ok () → d.checkArity ws.length = .ok () →
      M.Runs M.Values n (applyWithin limit room c vs) (applyWithin limit room' d ws)) :
    M.Applies limit room room' := by
  intro n c d vs ws hcd hvs
  have harity : c.checkArity vs.length = d.checkArity ws.length :=
    hvs.length_eq ▸ checkArity_eq hcd vs.length
  cases hc : c.checkArity vs.length with
  | error e =>
      rw [applyWithin_of_error limit hc, applyWithin_of_error limit (harity ▸ hc)]
      exact .throw e
  | ok _ => exact h hcd hvs hc (harity ▸ hc)

theorem applies (M : Matching) (limit : Nat) {room room' : Nat} (hr : M.Rooms room room') :
    M.Applies limit room room' := by
  induction room generalizing room' with
  | zero =>
      obtain rfl : room' = 0 := Nat.le_zero.1 hr.1
      refine Applies.of_checkArity fun _ _ hc hd => ?_
      rw [applyWithin_zero limit hc, applyWithin_zero limit hd]
      exact .throw _
  | succ room ih =>
      refine Applies.of_checkArity fun hcd hvs hc hd => ?_
      rw [applyWithin_succ limit hc]
      cases room' with
      | zero =>
          rw [applyWithin_zero limit hd]
          exact .overflow hr.derived _ limit
      | succ room' =>
          rw [applyWithin_succ limit hd, hcd.env]
          refine .extend hcd.inScope (bindings_zip hcd hvs) fun m inner hm hin => ?_
          rw [Run.within_store, Run.within_store]
          exact Alike.runs (fun _ hr' => ih hr') hcd.alike hr.pred hin

theorem Stores.evaluate (M : Matching) (limit : Nat) {s t : Store} (hs : M.Stores s t)
    {env : FrameId} (henv : M.InScope s.frames.size env) {n n' : Node} (h : M.Alike n n') :
    M.Outcomes M.Values s.frames.size (SmallLisp.evaluate limit env n s)
      (SmallLisp.evaluate limit (M.frame env) n' t) :=
  Alike.runs (fun _ hr => applies M limit hr) h ⟨Nat.le_refl _, fun _ => rfl⟩ henv s t hs
    (Nat.le_refl _)

end SmallLisp.Matching
