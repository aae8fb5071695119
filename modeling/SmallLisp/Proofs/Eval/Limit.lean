import SmallLisp.Proofs.Eval.Erasure
import SmallLisp.Proofs.Eval.Nesting

namespace SmallLisp

variable {σ α : Type}

def Run.UnlessOverflow (r r' : Run Store α) : Prop := ∀ s, ¬ r.Overflows s → r' s = r s

theorem Run.unlessOverflow_lockstep : Lockstep fun _ r r' => Run.UnlessOverflow r r' where
  pure _ _ _ _ := rfl
  throw _ _ _ _ := rfl
  bind {_ _ _ r r' f f'} h hf s hno := by
    rw [overflows_bind, not_or] at hno
    have hr := h s hno.1
    cases hs : r s with
    | ok a t =>
        rw [hs] at hr
        rw [bind_of_ok hs, bind_of_ok hr]
        exact hf a t fun ht => hno.2 ⟨a, t, hs, ht⟩
    | error e t =>
        rw [hs] at hr
        rw [bind_of_error hs, bind_of_error hr]
  note _ _ _ _ := rfl
  lookup _ _ _ _ := rfl
  close _ _ _ _ _ := rfl
  define _ _ _ _ _ := rfl
  extend _ _ h _ hno := h _ _ hno

/-- More room makes no difference to an application that does not overflow. -/
theorem applyWithin_of_le {limit limit' room room' : Nat} (hroom : room ≤ room') (c : Closure)
    (args : List Value) :
    Run.UnlessOverflow (applyWithin limit room c args) (applyWithin limit' room' c args) := by
  induction room generalizing room' c args with
  | zero =>
      intro s hno
      cases hc : c.checkArity args.length with
      | error e => rw [applyWithin_of_error limit hc, applyWithin_of_error limit' hc]
      | ok _ =>
          rw [applyWithin_zero limit hc] at hno
          exact absurd ⟨limit, s, rfl⟩ hno
  | succ room ih =>
      obtain ⟨room', rfl⟩ : ∃ r, room' = r + 1 := ⟨room' - 1, by omega⟩
      cases hc : c.checkArity args.length with
      | error e =>
          rw [applyWithin_of_error limit hc, applyWithin_of_error limit' hc]
          exact Run.unlessOverflow_lockstep.throw c.env e
      | ok _ =>
          rw [applyWithin_succ limit hc, applyWithin_succ limit' hc]
          have hbody (scope : FrameId) := (Run.unlessOverflow_lockstep.eval_all
            (applyWithin limit room) (applyWithin limit' room')
            fun _ c args => ih (Nat.le_of_succ_le_succ hroom) c args).1 scope c.body
          intro s hno
          simp only [Run.within_store] at hno ⊢
          exact hbody _ _ hno

namespace Gauge

open Run (erase Erases erases_lockstep)

/-- A run that leaves as many closure bodies active as it found, and lowers no peak. -/
def Balanced (r : Run Gauge α) : Prop :=
  ∀ g, (r.after g).active = g.active ∧ g.peak ≤ (r.after g).peak

theorem active_lt_peak {r : FrameId → Run Gauge α} (h : ∀ scope, Balanced (r scope))
    (parent : FrameId) (pairs : List (String × Value)) (g : Gauge) :
    g.active <
      ((Run.change (·.extend parent pairs) >>= fun scope => (r scope).within).after g).peak := by
  let k : Gauge := { g with store := (g.store.extend parent pairs).2 }
  change k.active < ((r (g.store.extend parent pairs).1).within.after k).peak
  rw [Run.after_within]
  exact Nat.lt_of_lt_of_le (active_enter_le_peak k) (h _ k.enter).2

theorem balanced_within {r : Run Gauge α} (h : Balanced r) : Balanced r.within := by
  intro g
  obtain ⟨ha, hp⟩ := h g.enter
  rw [Run.after_within]
  constructor
  · change (r.after g.enter).active - 1 = g.active
    rw [ha]
    rfl
  · exact Nat.le_trans (peak_le_enter g) hp

theorem balanced_bind {β : Type} {r : Run Gauge α} {f : α → Run Gauge β} (h : Balanced r)
    (hf : ∀ a, Balanced (f a)) : Balanced (r >>= f) := by
  intro g
  obtain ⟨ha, hp⟩ := h g
  obtain he | ⟨a, he⟩ := Run.after_bind r f g
  · rw [he]
    exact ⟨ha, hp⟩
  · obtain ⟨ha', hp'⟩ := hf a (r.after g)
    rw [he]
    exact ⟨ha'.trans ha, Nat.le_trans hp hp'⟩

theorem balanced_of_after {r : Run Gauge α}
    (h : ∀ g, ∃ store, r.after g = { g with store }) : Balanced r := by
  intro g
  obtain ⟨store, hs⟩ := h g
  rw [hs]
  exact ⟨rfl, Nat.le_refl _⟩

/-- A run on gauges that does not overflow, against a run on stores under `limit`. Both begin with
`active` bodies and a peak within `limit`: the second run is the first as long as the peak stays
there, and overflows if it does not. -/
def Agrees (limit active : Nat) (r : Run Gauge α) (r' : Run Store α) : Prop :=
  ∀ g, g.active = active → g.peak ≤ limit → ¬ r.Overflows g →
    ((r.after g).peak ≤ limit → r' g.store = erase (r g)) ∧
    (limit < (r.after g).peak → ∃ t, r' g.store = .error (.stackOverflow limit) t)

theorem agrees_of_after {limit active : Nat} {r : Run Gauge α} {r' : Run Store α}
    (he : Erases r r') (h : ∀ g, ∃ store, r.after g = { g with store }) :
    Agrees limit active r r' := by
  intro g _ hg _
  obtain ⟨store, hs⟩ := h g
  rw [hs]
  exact ⟨fun _ => he g, fun hlt => absurd hg (Nat.not_le_of_lt hlt)⟩

theorem agrees_bind {β : Type} {limit active : Nat} {r : Run Gauge α} {r' : Run Store α}
    {f : α → Run Gauge β} {f' : α → Run Store β} (hb : Balanced r) (hbf : ∀ a, Balanced (f a))
    (h : Agrees limit active r r') (hf : ∀ a, Agrees limit active (f a) (f' a)) :
    Agrees limit active (r >>= f) (r' >>= f') := by
  intro g hg hp hno
  cases hr : r g with
  | error e k =>
      have hrf : (r >>= f) g = .error e k := Run.bind_of_error hr
      have hno' : ¬ r.Overflows g := by
        rintro ⟨l, t, ht⟩
        exact hno ⟨l, t, Run.bind_of_error ht⟩
      obtain ⟨hle, hlt⟩ := h g hg hp hno'
      rw [Run.after_of_error hr] at hle hlt
      rw [Run.after_of_error hrf]
      constructor
      · intro hk
        have he : r' g.store = .error e k.store := by rw [hle hk, hr]; rfl
        rw [Run.bind_of_error he, hrf]
        rfl
      · intro hk
        obtain ⟨t, ht⟩ := hlt hk
        exact ⟨t, Run.bind_of_error ht⟩
  | ok a k =>
      have hrf : (r >>= f) g = f a k := Run.bind_of_ok hr
      obtain ⟨hle, hlt⟩ := h g hg hp (Run.not_overflows_of_ok hr)
      obtain ⟨hactive, -⟩ := hb g
      rw [Run.after_of_ok hr] at hle hlt hactive
      have hafter : (r >>= f).after g = (f a).after k := by rw [Run.after, hrf, Run.after]
      rw [hafter, hrf]
      by_cases hk : k.peak ≤ limit
      · have he : r' g.store = .ok a k.store := by rw [hle hk, hr]; rfl
        have hno' : ¬ (f a).Overflows k := by
          rintro ⟨l, t, ht⟩
          exact hno ⟨l, t, hrf.trans ht⟩
        rw [Run.bind_of_ok he]
        exact hf a k (hactive.trans hg) hk hno'
      · -- the first run is beyond the limit by now, and no later part lowers its peak
        have hlate : limit < ((f a).after k).peak := Nat.lt_of_lt_of_le (by omega) (hbf a k).2
        obtain ⟨t, ht⟩ := hlt (by omega)
        exact ⟨fun hle => absurd hle (by omega), fun _ => ⟨t, Run.bind_of_error ht⟩⟩

theorem agrees_extend {limit active : Nat} (parent : FrameId) (pairs : List (String × Value))
    {r : FrameId → Run Gauge α} {r' : FrameId → Run Store α}
    (h : ∀ inner, Agrees limit active (r inner) (r' inner)) :
    Agrees limit active (Run.change (·.extend parent pairs) >>= r)
      (Run.change (·.extend parent pairs) >>= r') := fun g =>
  h (g.store.extend parent pairs).1 { g with store := (g.store.extend parent pairs).2 }

theorem agrees_lockstep (limit active : Nat) :
    Lockstep fun _ r r' => Balanced r ∧ Agrees limit active r r' where
  pure env a :=
    have h g := ⟨g.store, rfl⟩
    ⟨balanced_of_after h, agrees_of_after (erases_lockstep.pure env a) h⟩
  throw env e :=
    have h g := ⟨g.store, rfl⟩
    ⟨balanced_of_after h, agrees_of_after (erases_lockstep.throw env e) h⟩
  bind h hf := ⟨balanced_bind h.1 fun a => (hf a).1,
    agrees_bind h.1 (fun a => (hf a).1) h.2 fun a => (hf a).2⟩
  note env notices :=
    have h g := ⟨g.store, rfl⟩
    ⟨balanced_of_after h, agrees_of_after (erases_lockstep.note env notices) h⟩
  lookup env name :=
    have h g := ⟨g.store, Run.after_ask _ g⟩
    ⟨balanced_of_after h, agrees_of_after (erases_lockstep.lookup env name) h⟩
  close env params body :=
    have h _ := ⟨_, rfl⟩
    ⟨balanced_of_after h, agrees_of_after (erases_lockstep.close env params body) h⟩
  define env name v :=
    have h g := ⟨_, Run.after_attempt _ g⟩
    ⟨balanced_of_after h, agrees_of_after (erases_lockstep.define env name v) h⟩
  extend parent pairs h :=
    ⟨fun g => (h _).1 { g with store := (g.store.extend parent pairs).2 },
      agrees_extend parent pairs fun inner => (h inner).2⟩

theorem agrees_within {limit active : Nat} {r : Run Gauge α} {r' : Run Store α}
    (hlt : active < limit) (h : Agrees limit (active + 1) r r') :
    Agrees limit active r.within r'.within := by
  intro g hg hp hno
  have hpeak : g.enter.peak ≤ limit := Nat.max_le.2 ⟨hp, by omega⟩
  have hno' : ¬ r.Overflows g.enter := by
    rintro ⟨l, t, ht⟩
    exact hno ⟨l, _, Run.within_of_error ht⟩
  obtain ⟨hle, hgt⟩ := h g.enter (by rw [← hg]; rfl) hpeak hno'
  rw [Run.after_within, Run.within_store]
  refine ⟨fun hk => ?_, hgt⟩
  have he : r' g.store = erase (r g.enter) := hle hk
  cases hr : r g.enter with
  | ok a k => rw [he, hr, Run.within_of_ok hr]; rfl
  | error e k => rw [he, hr, Run.within_of_error hr]; rfl

theorem agrees_applyWithin (limit : Nat) {l active room : Nat} (hroom : active + room = l)
    (room' : Nat) (env : FrameId) (c : Closure) (args : List Value) :
    Balanced (applyWithin limit room' c args) ∧
      Agrees l active (applyWithin limit room' c args) (applyWithin l room c args) := by
  induction room' generalizing active room env c args with
  | zero =>
      cases hc : c.checkArity args.length with
      | error e =>
          rw [applyWithin_of_error limit hc, applyWithin_of_error l hc]
          exact (agrees_lockstep l active).throw env e
      | ok _ =>
          rw [applyWithin_zero limit hc]
          exact ⟨fun g => ⟨rfl, Nat.le_refl _⟩, fun g _ _ hno => absurd ⟨_, _, rfl⟩ hno⟩
  | succ room' ih =>
      cases hc : c.checkArity args.length with
      | error e =>
          rw [applyWithin_of_error limit hc, applyWithin_of_error l hc]
          exact (agrees_lockstep l active).throw env e
      | ok _ =>
          have hbody (scope : FrameId) : Balanced (Node.eval (applyWithin limit room') scope c.body) :=
            (((agrees_lockstep l l).eval_all _ _ (ih (Nat.add_zero l))).1 scope c.body).1
          rw [applyWithin_succ limit hc]
          refine ⟨fun g => balanced_within (hbody _)
            { g with store := (g.store.extend c.env (c.params.zip args)).2 }, ?_⟩
          cases room with
          | zero =>
              -- the second run stops where the first enters the body, and so passes the limit
              rw [applyWithin_zero l hc]
              intro g hg _ _
              have hlt := active_lt_peak hbody c.env (c.params.zip args) g
              exact ⟨fun hle => absurd (Nat.lt_of_lt_of_le hlt hle) (by omega), fun _ => ⟨g.store, rfl⟩⟩
          | succ room =>
              rw [applyWithin_succ l hc]
              refine agrees_extend _ _ fun scope => agrees_within (by omega) ?_
              exact (((agrees_lockstep l (active + 1)).eval_all _ _ (ih (by omega))).1 scope c.body).2

theorem agrees_evaluate (limit l : Nat) (env : FrameId) (n : Node) :
    Agrees l 0 (evaluate limit env n) (evaluate l env n) :=
  (((agrees_lockstep l 0).eval_all _ _
    (agrees_applyWithin limit (Nat.zero_add l) limit)).1 env n).2

end Gauge

theorem peak_eq (limit : Nat) (s : Store) (env : FrameId) (n : Node) :
    peak limit s env n = ((evaluate limit env n).after ({ store := s } : Gauge)).peak := by
  rw [peak, Run.after]
  cases evaluate limit env n ({ store := s } : Gauge) <;> rfl

theorem peak_threshold {limit : Nat} {env : FrameId} {n : Node} {s : Store}
    (h : ¬ (evaluate limit env n).Overflows s) (l : Nat) :
    (peak limit s env n ≤ l → evaluate l env n s = evaluate limit env n s) ∧
    (l < peak limit s env n → ∃ t, evaluate l env n s = .error (.stackOverflow l) t) := by
  have herase : Run.Erases (evaluate limit env n : Run Gauge Value) (evaluate limit env n) :=
    Run.erases_evaluate limit env n
  rw [peak_eq, show evaluate limit env n s = _ from herase { store := s }]
  exact Gauge.agrees_evaluate limit l env n { store := s } rfl (Nat.zero_le l) fun hg =>
    h (herase.overflows hg)

theorem peak_le_limit {limit : Nat} {env : FrameId} {n : Node} {s : Store}
    (h : ¬ (evaluate limit env n).Overflows s) : peak limit s env n ≤ limit := by
  by_contra hlt
  obtain ⟨t, ht⟩ := (peak_threshold h limit).2 (by omega)
  exact h ⟨limit, t, ht⟩

/-- Under any limit, an evaluation that succeeds under one comes to the same or overflows. -/
theorem evaluate_outcome {limit : Nat} {env : FrameId} {n : Node} {s : Store} {v : Value}
    (h : (evaluate limit env n).outcome s = .ok v) (l : Nat) :
    (evaluate l env n).outcome s = .ok v ∨
      (evaluate l env n).outcome s = .error (.stackOverflow l) := by
  obtain ⟨t, ht⟩ := Run.exists_of_outcome h
  obtain ⟨hle, hlt⟩ := peak_threshold (Run.not_overflows_of_ok ht) l
  obtain hp | hp := Nat.lt_or_ge l (peak limit s env n)
  · obtain ⟨u, hu⟩ := hlt hp
    exact .inr (Run.outcome_of_error hu)
  · exact .inl (Run.outcome_of_ok ((hle hp).trans ht))

theorem apply_outcome {limit : Nat} {c : Closure} {args : List Value} {s : Store} {v : Value}
    (h : (apply limit c args).outcome s = .ok v) (l : Nat) :
    (apply l c args).outcome s = .ok v ∨
      (apply l c args).outcome s = .error (.stackOverflow l) := by
  obtain ⟨t, ht⟩ := Run.exists_of_outcome h
  have herase : Run.Erases (apply limit c args : Run Gauge Value) (apply limit c args) :=
    Run.erases_apply limit c args
  have hno : ¬ (apply limit c args).Overflows ({ store := s } : Gauge) := fun hg =>
    Run.not_overflows_of_ok ht (herase.overflows hg)
  obtain ⟨hle, hlt⟩ := (Gauge.agrees_applyWithin limit (Nat.zero_add l) limit c.env c args).2
    { store := s } rfl (Nat.zero_le l) hno
  obtain hp | hp := Nat.lt_or_ge l ((apply limit c args).after ({ store := s } : Gauge)).peak
  · obtain ⟨u, hu⟩ := hlt hp
    exact .inr (Run.outcome_of_error hu)
  · exact .inl (Run.outcome_of_ok ((hle hp).trans ((herase { store := s }).symm.trans ht)))

/-- The peak of a run that does not overflow is the least limit under which the run is what it is:
every limit from there gives the same result and store, and every smaller one overflows. Of the
limit, the reserved words use up nothing. -/
theorem evaluate_limit {limit : Nat} {env : FrameId} {n : Node} {s : Store}
    (h : ¬ (evaluate limit env n).Overflows s) :
    (∀ l, peak limit s env n ≤ l → evaluate l env n s = evaluate limit env n s) ∧
    (∀ l, l < peak limit s env n → ∃ t, evaluate l env n s = .error (.stackOverflow l) t) ∧
    (∀ l, limit ≤ l → evaluate l env n s = evaluate limit env n s) ∧
    (∀ l (x : Site), x.Overflows l ↔
      ∃ y, Relation.ReflTransGen (Part l) x y ∧ y.node.isCall ∧ y.Overflows l) :=
  ⟨fun l => (peak_threshold h l).1, fun l => (peak_threshold h l).2,
    fun l hl => (peak_threshold h l).1 (Nat.le_trans (peak_le_limit h) hl), overflows_iff_call⟩

def countdown : Node :=
  .list [.symbol "if", .list [.symbol "=", .symbol "n", .integer 0], .integer 0,
    .list [.symbol "f", .list [.symbol "-", .symbol "n", .integer 1]]]

def countdownStore : Store := ⟨#[⟨[("f", .closure ⟨0, ["n"], countdown, 0⟩)], none⟩], 1⟩

theorem evaluate_limit_countdown :
    let n := Node.list [.symbol "f", .integer 2]
    ¬ (evaluate 5 0 n).Overflows countdownStore ∧
    (∀ l, 3 ≤ l → evaluate l 0 n countdownStore = evaluate 5 0 n countdownStore) ∧
    (∀ l, l < 3 → ∃ t, evaluate l 0 n countdownStore = .error (.stackOverflow l) t) := by
  intro n
  have h : ¬ (evaluate 5 0 n).Overflows countdownStore :=
    Run.not_overflows_of_ok (show evaluate 5 0 n countdownStore = .ok (.integer 0) _ from rfl)
  have hp : peak 5 countdownStore 0 n = 3 := by decide +kernel
  obtain ⟨hle, hlt, -⟩ := evaluate_limit h
  rw [hp] at hle hlt
  exact ⟨h, hle, hlt⟩

end SmallLisp
