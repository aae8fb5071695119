import SmallLisp.Proofs.Eval.Limit
import SmallLisp.Proofs.Session

namespace SmallLisp

variable {σ α β : Type} [RunState σ]

namespace Gauge

/-- A run one body deeper. The counter is put back to where it was, whether the run fails or not. -/
def nested (r : Run Gauge α) : Run Gauge α := fun g =>
  match r g.enter with
  | .ok a k => .ok a { k with active := g.active }
  | .error e k => .error e { k with active := g.active }

/-- Applies a closure unless the counter is at the limit. Applications in its body are those of
`call`. -/
def applyOnce (limit : Nat) (call : Applying Gauge) : Applying Gauge := fun c args => do
  Run.ofExcept (c.checkArity args.length)
  let g ← get
  if limit ≤ g.active then throw (.stackOverflow limit)
  else do
    let scope ← Run.change (·.extend c.env (c.params.zip args))
    nested (Node.eval call scope c.body)

end Gauge

/-- An evaluator that applies closures as its counter allows, those in the bodies of others too. -/
structure Counting (limit : Nat) where
  call : Applying Gauge
  call_eq : ∀ c args, call c args = Gauge.applyOnce limit call c args

/-- What an evaluator is asked to do in one step. -/
inductive Step where
  | evaluate (env : FrameId) (n : Node)
  | apply (c : Closure) (args : List Value)
  | applyToNodes (env : FrameId) (c : Closure) (operands : List Node)
  | program (env : FrameId) (ns : List Node)
  | use (f : Store → Store)

def Step.run (call : Applying σ) : Step → Run σ (Option Value)
  | evaluate env n => do return some (← n.eval call env)
  | apply c args => do return some (← call c args)
  | applyToNodes env c operands => do
      Run.ofExcept (c.checkArity operands.length)
      return some (← call c (← Node.evalAll call env operands))
  | program env ns => evaluateInOrder call env none ns
  | use f => do
      Run.change fun s => ((), f s)
      return none

namespace Gauge

variable {limit d : Nat}

/-- Runs that are one where the counter is at `d`, and leave it there. On the way it has not gone
above the limit. -/
def Paced (limit d : Nat) (r r' : Run Gauge α) : Prop :=
  ∀ g, g.active = d →
    r g = r' g ∧ (r.after g).active = d ∧ (r.after g).peak ≤ max g.peak limit

theorem paced_of_after {r : Run Gauge α} (h : ∀ g, ∃ store, r.after g = { g with store }) :
    Paced limit d r r := by
  intro g hg
  obtain ⟨store, hs⟩ := h g
  rw [hs]
  exact ⟨rfl, hg, Nat.le_max_left _ _⟩

theorem paced_bind {r r' : Run Gauge α} {f f' : α → Run Gauge β} (h : Paced limit d r r')
    (hf : ∀ a, Paced limit d (f a) (f' a)) : Paced limit d (r >>= f) (r' >>= f') := by
  intro g hg
  obtain ⟨he, ha, hp⟩ := h g hg
  cases hr : r g with
  | ok a k =>
      rw [Run.after_of_ok hr] at ha hp
      obtain ⟨he', ha', hp'⟩ := hf a k ha
      rw [Run.after_bind_of_ok hr, Run.bind_of_ok hr, Run.bind_of_ok (he.symm.trans hr)]
      exact ⟨he', ha', by omega⟩
  | error e k =>
      have hrf : (r >>= f) g = .error e k := Run.bind_of_error hr
      rw [Run.after_of_error hr] at ha hp
      rw [hrf, Run.after_of_error hrf, Run.bind_of_error (he.symm.trans hr)]
      exact ⟨rfl, ha, hp⟩

theorem paced_extend (parent : FrameId) (pairs : List (String × Value))
    {r r' : FrameId → Run Gauge α} (h : ∀ inner, Paced limit d (r inner) (r' inner)) :
    Paced limit d (Run.change (·.extend parent pairs) >>= r)
      (Run.change (·.extend parent pairs) >>= r') :=
  fun g hg => h _ { g with store := (g.store.extend parent pairs).2 } hg

theorem paced_lockstep (limit d : Nat) : Lockstep fun _ r r' => Paced limit d r r' where
  pure _ _ := paced_of_after fun g => ⟨g.store, rfl⟩
  throw _ _ := paced_of_after fun g => ⟨g.store, rfl⟩
  bind := paced_bind
  note _ _ := paced_of_after fun g => ⟨g.store, rfl⟩
  lookup _ _ := paced_of_after fun g => ⟨g.store, Run.after_ask _ g⟩
  close _ _ _ := paced_of_after fun _ => ⟨_, rfl⟩
  define _ _ _ := paced_of_after fun g => ⟨_, Run.after_attempt _ g⟩
  extend parent pairs h := paced_extend parent pairs h

theorem Paced.congr {q r r' : Run Gauge α} (h : Paced limit d r r')
    (hq : ∀ g, g.active = d → q g = r g) : Paced limit d q r' := by
  intro g hg
  obtain ⟨he, hafter⟩ := h g hg
  rw [hq g hg, Run.after_of_eq (hq g hg)]
  exact ⟨he, hafter⟩

theorem Paced.right {r r' : Run Gauge α} (h : Paced limit d r r') : Paced limit d r' r' :=
  h.congr fun g hg => (h g hg).1.symm

theorem nested_of_ok {r : Run Gauge α} {g k : Gauge} {a : α} (h : r g.enter = .ok a k) :
    nested r g = .ok a { k with active := g.active } := by
  rw [nested, h]

theorem nested_of_error {r : Run Gauge α} {g k : Gauge} {e : Fault} (h : r g.enter = .error e k) :
    nested r g = .error e { k with active := g.active } := by
  rw [nested, h]

theorem nested_eq {r r' : Run Gauge α} {g : Gauge} (he : r g.enter = r' g.enter)
    (ha : (r.after g.enter).active = g.active + 1) : nested r g = r'.within g := by
  have hleave (k : Gauge) (hk : k.active = g.active + 1) : { k with active := g.active } = k.leave := by
    rw [leave, hk]
    rfl
  cases hr : r g.enter with
  | ok a k =>
      rw [Run.after_of_ok hr] at ha
      rw [nested_of_ok hr, Run.within_of_ok (he.symm.trans hr), hleave k ha]
      rfl
  | error e k =>
      rw [Run.after_of_error hr] at ha
      rw [nested_of_error hr, Run.within_of_error (he.symm.trans hr), hleave k ha]
      rfl

theorem paced_nested (hlt : d < limit) {r r' : Run Gauge α} (h : Paced limit (d + 1) r r') :
    Paced limit d (nested r) r'.within := by
  rintro g rfl
  obtain ⟨he, ha, hp⟩ := h g.enter rfl
  have hn : nested r g = r'.within g := nested_eq he ha
  rw [Run.after_of_eq hn, Run.after_within, hn]
  change _ ∧ (r'.after g.enter).active - 1 = g.active ∧ (r'.after g.enter).peak ≤ _
  rw [← Run.after_of_eq he, ha]
  have hpeak : g.enter.peak ≤ max g.peak limit := Nat.max_le.2 ⟨Nat.le_max_left .., by omega⟩
  exact ⟨rfl, rfl, Nat.le_trans hp (Nat.max_le.2 ⟨hpeak, Nat.le_max_right ..⟩)⟩

section Application

variable {call : Applying Gauge} {c : Closure} {args : List Value}

theorem applyOnce_of_error {e : Fault} (hc : c.checkArity args.length = .error e) :
    applyOnce limit call c args = throw e := by
  rw [applyOnce, hc]
  rfl

theorem applyOnce_of_le (hc : c.checkArity args.length = .ok ()) {g : Gauge}
    (h : limit ≤ g.active) : applyOnce limit call c args g = .error (.stackOverflow limit) g := by
  rw [applyOnce, hc]
  change (if limit ≤ g.active then throw (.stackOverflow limit) else _ : Run Gauge Value) g = _
  rw [if_pos h]
  rfl

theorem applyOnce_of_lt (hc : c.checkArity args.length = .ok ()) {g : Gauge}
    (h : g.active < limit) :
    applyOnce limit call c args g = (do
      let scope ← Run.change (·.extend c.env (c.params.zip args))
      nested (Node.eval call scope c.body) : Run Gauge Value) g := by
  rw [applyOnce, hc]
  change (if limit ≤ g.active then throw (.stackOverflow limit) else _ : Run Gauge Value) g = _
  rw [if_neg (Nat.not_le_of_lt h)]

end Application

/-- One application as the counter allows is one in the room that the limit leaves, if those in the
body are. -/
theorem paced_applyOnce {call : Applying Gauge}
    (h : d < limit → ∀ c args,
      Paced limit (d + 1) (call c args) (applyWithin limit (limit - (d + 1)) c args))
    (c : Closure) (args : List Value) :
    Paced limit d (applyOnce limit call c args) (applyWithin limit (limit - d) c args) := by
  have hlock (d : Nat) := paced_lockstep limit d
  cases hc : c.checkArity args.length with
  | error e =>
      rw [applyWithin_of_error limit hc, applyOnce_of_error hc]
      exact (hlock d).throw c.env e
  | ok _ =>
      rintro g rfl
      obtain hlt | hle := Nat.lt_or_ge g.active limit
      · have henter : applyOnce limit call c args g = _ := applyOnce_of_lt hc hlt
        rw [henter, Run.after_of_eq henter, show limit - g.active = limit - (g.active + 1) + 1 by omega,
          applyWithin_succ limit hc]
        refine paced_extend c.env (c.params.zip args) (fun scope => ?_) g rfl
        exact paced_nested hlt (((hlock _).eval_all call _ fun _ => h hlt).1 scope c.body)
      · have hover : applyOnce limit call c args g = _ := applyOnce_of_le hc hle
        rw [hover, Run.after_of_error hover, Nat.sub_eq_zero_of_le hle, applyWithin_zero limit hc]
        exact ⟨rfl, rfl, Nat.le_max_left ..⟩

theorem paced_applyWithin (limit d : Nat) (c : Closure) (args : List Value) :
    Paced limit d (applyWithin limit (limit - d) c args) (applyWithin limit (limit - d) c args) :=
  (paced_applyOnce (fun _ => paced_applyWithin limit (d + 1)) c args).right
termination_by limit - d

end Gauge

namespace Counting

open Gauge

variable {limit : Nat}

instance : Inhabited (Counting limit) where
  default := {
    call := fun c args g => applyWithin limit (limit - g.active) c args g
    call_eq := fun c args => by
      funext g
      refine (paced_applyOnce (fun _ c args => ?_) c args g rfl).1.symm
      exact (paced_applyWithin limit _ c args).congr fun k hk => by rw [hk] }

theorem paced_call (e : Counting limit) (d : Nat) (c : Closure) (args : List Value) :
    Paced limit d (e.call c args) (applyWithin limit (limit - d) c args) := by
  rw [e.call_eq]
  exact paced_applyOnce (fun _ => e.paced_call (d + 1)) c args
termination_by limit - d

def after (e : Counting limit) (steps : List Step) (g : Gauge) : Gauge :=
  steps.foldl (fun g step => (step.run e.call).after g) g

end Counting

section Steps

variable {τ : Type} [RunState τ] {P : {α : Type} → FrameId → Run σ α → Run τ α → Prop}
  {call : Applying σ} {call' : Applying τ}

theorem Lockstep.step (h : Lockstep P) (hcall : ∀ env c args, P env (call c args) (call' c args))
    (huse : ∀ env f, P env ((Step.use f).run call) ((Step.use f).run call')) (step : Step) :
    ∃ env, P env (step.run call) (step.run call') := by
  have heval := h.eval_all call call' hcall
  cases step with
  | evaluate env n => exact ⟨env, h.bind (heval.1 env n) fun v => h.pure env (some v)⟩
  | apply c args => exact ⟨c.env, h.bind (hcall c.env c args) fun v => h.pure c.env (some v)⟩
  | applyToNodes env c operands =>
      exact ⟨env, h.bind (h.ofExcept env _) fun _ => h.bind (heval.2.2.2 env operands) fun vs =>
        h.bind (hcall env c vs) fun v => h.pure env (some v)⟩
  | program env ns => exact ⟨env, h.evaluateInOrder hcall env none ns⟩
  | use f => exact ⟨Session.root, huse _ f⟩

end Steps

namespace Counting

open Gauge

variable {limit d : Nat} (e : Counting limit)

theorem paced_step (d : Nat) (step : Step) :
    Paced limit d (step.run e.call) (step.run (applyWithin limit (limit - d))) := by
  obtain ⟨-, h⟩ := (paced_lockstep limit d).step (fun _ => e.paced_call d)
    (fun _ _ => paced_of_after fun _ => ⟨_, rfl⟩) step
  exact h

theorem erases_step (limit room : Nat) (step : Step) :
    Run.Erases (step.run (applyWithin limit room) : Run Gauge _) (step.run (applyWithin limit room)) := by
  have hlock := Run.erases_lockstep (σ := Gauge)
  obtain ⟨-, h⟩ := hlock.step (hlock.applyWithin Run.erases_within limit room) (fun _ _ _ => rfl) step
  exact h

theorem run_step {g : Gauge} (hg : g.active = d) (step : Step) :
    (step.run e.call).outcome g = (step.run (applyWithin limit (limit - d))).outcome g.store ∧
    ((step.run e.call).after g).store =
      (step.run (applyWithin limit (limit - d))).after g.store := by
  obtain ⟨he, -⟩ := e.paced_step d step g hg
  have herase := erases_step limit (limit - d) step
  rw [Run.outcome_of_eq he, Run.after_of_eq he]
  exact ⟨(herase.outcome g).symm, (herase.after g).symm⟩

theorem after_restored (steps : List Step) {g : Gauge} (hg : g.active = d) :
    (e.after steps g).active = d ∧ (e.after steps g).peak ≤ max g.peak limit := by
  induction steps generalizing g with
  | nil => exact ⟨hg, Nat.le_max_left ..⟩
  | cons step steps ih =>
      obtain ⟨-, ha, hp⟩ := e.paced_step d step g hg
      obtain ⟨ha', hp'⟩ := ih ha
      exact ⟨ha', Nat.le_trans hp' (Nat.max_le.2 ⟨hp, Nat.le_max_right ..⟩)⟩

end Counting

/-- However the steps of an evaluator end, its counter is back where it was, and has not been above
the limit if it did not begin there. The next step is then a run under the limit on the store
alone, and for a counter at zero what a session with that store does. -/
theorem counter_restored (u : Settings) (e : Counting u.maxRecursionDepth) (s : Store) (d : Nat)
    (steps : List Step) :
    let limit := u.maxRecursionDepth
    let g := e.after steps ⟨s, d, d⟩
    g.active = d ∧ (d ≤ limit → g.peak ≤ limit) ∧
    (∀ step : Step,
      (step.run e.call).outcome g = (step.run (applyWithin limit (limit - d))).outcome g.store ∧
      ((step.run e.call).after g).store =
        (step.run (applyWithin limit (limit - d))).after g.store) ∧
    (d = 0 → ∀ ns,
      (Session.mk u g.store).evaluateAll none ns =
        (((Step.program Session.root ns).run e.call).outcome g,
          ⟨u, (((Step.program Session.root ns).run e.call).after g).store⟩)) := by
  intro limit g
  obtain ⟨ha, hp⟩ : g.active = d ∧ g.peak ≤ max d limit := e.after_restored steps rfl
  refine ⟨ha, fun hd => Nat.le_trans hp (Nat.max_le.2 ⟨hd, Nat.le_refl _⟩), e.run_step ha, ?_⟩
  rintro rfl ns
  obtain ⟨ho, hs⟩ := e.run_step ha (.program Session.root ns)
  rw [ho, hs, Session.evaluateAll_inOrder]
  rfl

def runaway : List Node :=
  [.list [.symbol "define", .symbol "f",
    .list [.symbol "lambda", .list [], .list [.symbol "f"]]], .list [.symbol "f"]]

theorem counter_restored_runaway :
    let u : Settings := { maxRecursionDepth := 3 }
    let e : Counting 3 := default
    let step := Step.program Session.root runaway
    let g : Gauge := ⟨(Session.blank u).store, 0, 0⟩
    let k := e.after [step] g
    (step.run e.call).outcome g = .error (.stackOverflow 3) ∧
    k.active = 0 ∧ k.peak ≤ 3 ∧
    ∀ ns, (Session.mk u k.store).evaluateAll none ns =
      (((Step.program Session.root ns).run e.call).outcome k,
        ⟨u, (((Step.program Session.root ns).run e.call).after k).store⟩) := by
  intro u e step g k
  obtain ⟨ha, hp, -, hsession⟩ := counter_restored u e (Session.blank u).store 0 [step]
  exact ⟨by decide +kernel, ha, hp (by decide), hsession rfl⟩

end SmallLisp
