import SmallLisp.Proofs.Eval.Copy
import SmallLisp.Proofs.Eval.Steps
import SmallLisp.Proofs.Prelude.Sessions

namespace SmallLisp

namespace Prelude

variable {s : Store} {limit room : Nat} {f : Closure} {x : Value} {xs : List Value}

theorem map_cons_run {mapId : Nat}
    (hmap : s.find? Session.root "map" = some (.closure (map.closure mapId))) (id : Nat) :
    applyWithin limit (room + 1) (map.closure id) [.closure f, .list (x :: xs)] s =
      (do let v ← applyWithin limit room f [x]
          let w ← applyWithin limit room (map.closure mapId) [.closure f, .list xs]
          Run.ofExcept ((Keyword.form .cons).compute [v, w]) : Run Store Value)
        (s.extend Session.root [("f", .closure f), ("lst", .list (x :: xs))]).2 := by
  refine RunsAs.enter (c := map.closure id) rfl fun t scope _ hlocal hglobal => ?_
  have hlst : Reads (applyWithin limit room) t scope (.symbol "lst") (.list (x :: xs)) :=
    .symbol (hlocal "lst" _ rfl)
  have hf : Reads (applyWithin limit room) t scope (.symbol "f") (.closure f) :=
    .symbol (hlocal "f" _ rfl)
  have hfirst : RunsAs t ((Node.form "f" [.form "head" [.symbol "lst"]]).eval
      (applyWithin limit room) scope) (applyWithin limit room f [x]) :=
    .ofCall rfl hf (.cons (.computes rfl rfl rfl (.cons hlst .nil) rfl) .nil)
  have hrest : RunsAs t ((Node.form "map" [.symbol "f", .form "tail" [.symbol "lst"]]).eval
      (applyWithin limit room) scope)
      (applyWithin limit room (map.closure mapId) [.closure f, .list xs]) :=
    .ofCall rfl (.symbol (hglobal _ _ rfl hmap))
      (.cons hf (.cons (.computes rfl rfl rfl (.cons hlst .nil) rfl) .nil))
  refine .ifFalse rfl (.computes rfl rfl rfl (.cons hlst .nil) rfl) Bool.false_ne_true ?_
  simpa only [bind_assoc, pure_bind] using
    RunsAs.strict rfl rfl rfl (.operands hfirst (.operands hrest (.reads .nil)))

theorem map_nil_run (id : Nat) :
    applyWithin limit (room + 1) (map.closure id) [.closure f, .list []] s =
      .ok (.list []) (s.extend Session.root [("f", .closure f), ("lst", .list [])]).2 := by
  refine RunsAs.enter (c := map.closure id) (r := pure (.list [])) rfl fun t scope _ hlocal _ => ?_
  exact .ifTrue rfl (.computes rfl rfl rfl (.cons (.symbol (hlocal "lst" _ rfl)) .nil) rfl) rfl
    (.quoted _)

theorem filter_cons_run {filterId : Nat}
    (hfilter : s.find? Session.root "filter" = some (.closure (filter.closure filterId)))
    (id : Nat) :
    applyWithin limit (room + 1) (filter.closure id) [.closure f, .list (x :: xs)] s =
      (do if (← applyWithin limit room f [x]).isTruthy then
            let w ← applyWithin limit room (filter.closure filterId) [.closure f, .list xs]
            Run.ofExcept ((Keyword.form .cons).compute [x, w])
          else applyWithin limit room (filter.closure filterId) [.closure f, .list xs] :
          Run Store Value)
        (s.extend Session.root [("pred", .closure f), ("lst", .list (x :: xs))]).2 := by
  refine RunsAs.enter (c := filter.closure id) rfl fun t scope _ hlocal hglobal => ?_
  have hlst : Reads (applyWithin limit room) t scope (.symbol "lst") (.list (x :: xs)) :=
    .symbol (hlocal "lst" _ rfl)
  have hpred : Reads (applyWithin limit room) t scope (.symbol "pred") (.closure f) :=
    .symbol (hlocal "pred" _ rfl)
  have hhead : Reads (applyWithin limit room) t scope (.form "head" [.symbol "lst"]) x :=
    .computes rfl rfl rfl (.cons hlst .nil) rfl
  have htest : RunsAs t ((Node.form "pred" [.form "head" [.symbol "lst"]]).eval
      (applyWithin limit room) scope) (applyWithin limit room f [x]) :=
    .ofCall rfl hpred (.cons hhead .nil)
  have hrest : RunsAs t ((Node.form "filter" [.symbol "pred", .form "tail" [.symbol "lst"]]).eval
      (applyWithin limit room) scope)
      (applyWithin limit room (filter.closure filterId) [.closure f, .list xs]) :=
    .ofCall rfl (.symbol (hglobal _ _ rfl hfilter))
      (.cons hpred (.cons (.computes rfl rfl rfl (.cons hlst .nil) rfl) .nil))
  refine .ifFalse rfl (.computes rfl rfl rfl (.cons hlst .nil) rfl) Bool.false_ne_true ?_
  refine .ifElse rfl htest ?_ hrest
  simpa only [bind_assoc, pure_bind] using
    RunsAs.strict rfl rfl rfl (.operands hhead (.operands hrest (.reads .nil)))

theorem filter_nil_run (id : Nat) :
    applyWithin limit (room + 1) (filter.closure id) [.closure f, .list []] s =
      .ok (.list []) (s.extend Session.root [("pred", .closure f), ("lst", .list [])]).2 := by
  refine RunsAs.enter (c := filter.closure id) (r := pure (.list [])) rfl
    fun t scope _ hlocal _ => ?_
  exact .ifTrue rfl (.computes rfl rfl rfl (.cons (.symbol (hlocal "lst" _ rfl)) .nil) rfl) rfl
    (.quoted _)

/-- The applications of a function to the elements of a list, up to the first that fails. -/
def applications (limit : Nat) (f : Closure) (xs : List Value) : Run Store (List Value) :=
  xs.mapM fun x => apply limit f [x]

variable {a a' b : Store} {ρ : Renumbering} {enough : Nat}

theorem applications_cons_error {e : Fault} (h : apply limit f [x] a = .error e a') :
    applications limit f (x :: xs) a = .error e a' := by
  rw [applications, List.mapM_cons]
  exact Run.bind_of_error h

theorem applications_cons_ok {v : Value} (h : apply limit f [x] a = .ok v a') (xs : List Value) :
    (applications limit f (x :: xs)).outcome a =
      ((applications limit f xs).outcome a').map (v :: ·) ∧
    (applications limit f (x :: xs)).after a = (applications limit f xs).after a' := by
  have hrun : applications limit f (x :: xs) a = (do
      Run.ofExcept (.ok (v :: (← applications limit f xs))) : Run Store (List Value)) a' := by
    rw [applications, List.mapM_cons]
    exact Run.bind_of_ok h
  rw [Run.outcome_of_eq hrun, Run.after_of_eq hrun, Run.after_bind_ofExcept,
    Run.outcome_bind_ofExcept]
  exact ⟨rfl, rfl⟩

theorem applications_cons_overflows (hno : ¬ (applications limit f (x :: xs)).Overflows a) :
    ¬ (apply limit f [x]).Overflows a ∧
      ∀ v a', apply limit f [x] a = .ok v a' → ¬ (applications limit f xs).Overflows a' := by
  rw [applications, List.mapM_cons, Run.overflows_bind, not_or] at hno
  refine ⟨hno.1, fun v a' hv ht => hno.2 ⟨v, a', hv, ?_⟩⟩
  exact Run.overflows_bind.2 (.inl ht)

/-- In a copy, `map` does what the applications do in the store. -/
theorem map_copy (hs : s.Reachable) (hloaded : Loaded s) (hf : f.Within s)
    (hxs : ∀ x ∈ xs, x.Within s) (h : Copy s ρ a b) (id : Nat)
    (hno : ¬ (applications enough f xs).Overflows a) (hroom : enough + xs.length < room) :
    let direct := applications enough f xs
    let mapped := applyWithin limit room (map.closure id) [.closure f, .list xs]
    ∃ σ : Renumbering, σ.Agrees a ρ ∧ Copy s σ (direct.after a) (mapped.after b) ∧
      mapped.outcome b = (direct.outcome a).map fun vs => .list (vs.map (Value.renumber σ)) := by
  intro direct mapped
  induction xs generalizing ρ a b room id with
  | nil =>
      obtain ⟨room, rfl⟩ : ∃ r, room = r + 1 := ⟨room - 1, by omega⟩
      have hmapped : mapped b = .ok (.list []) _ := map_nil_run id
      rw [Run.after_of_ok hmapped, Run.outcome_of_ok hmapped]
      exact ⟨_, h.agrees_skip, h.push _, rfl⟩
  | cons x xs ih =>
      obtain ⟨room, rfl⟩ : ∃ r, room = r + 1 := ⟨room - 1, by omega⟩
      rw [List.length_cons] at hroom
      obtain ⟨hx, hxs⟩ := List.forall_mem_cons.1 hxs
      obtain ⟨hno, hrest⟩ := applications_cons_overflows hno
      obtain ⟨mapId, hmap⟩ := hloaded.keeps h.second.keeps map (by simp [definitions])
      have hmapped : mapped b = _ := map_cons_run hmap id
      have hscope := h.extend Session.root [("f", .closure f), ("lst", .list (x :: xs))]
      have henough : enough ≤ room := by omega
      obtain ⟨e, a', b', ha, hb, hcopy⟩ | ⟨v, a', b', ha, hb, hv, hcopy⟩ :=
        hscope.applyWithin_cases hs hf (List.forall_mem_singleton.2 hx) limit henough hno
      · have hdirect : direct a = .error e a' := applications_cons_error ha
        have hmapped' : mapped b = .error e b' := hmapped.trans (Run.bind_of_error hb)
        rw [Run.after_of_error hdirect, Run.after_of_error hmapped', Run.outcome_of_error hdirect,
          Run.outcome_of_error hmapped']
        exact ⟨_, h.agrees_skip, hcopy, rfl⟩
      · have hroom' : enough + xs.length < room := by omega
        obtain ⟨σ, hσ, hcopy', houtcome⟩ := ih hxs hcopy mapId (hrest v a' ha) hroom'
        obtain ⟨hdirect, hafter⟩ := applications_cons_ok ha xs
        have hmapped' : mapped b = _ := hmapped.trans (Run.bind_of_ok hb)
        rw [hdirect, hafter, Run.outcome_of_eq hmapped', Run.after_of_eq hmapped',
          Run.outcome_bind_ofExcept, Run.after_bind_ofExcept, houtcome]
        have hlater := later_apply enough f [x] a
        rw [Run.after_of_ok ha] at hlater
        refine ⟨σ, (hσ.mono hlater.before).trans h.agrees_skip, hcopy', ?_⟩
        cases (applications enough f xs).outcome a' with
        | error e => rfl
        | ok vs =>
            rw [← hσ.value hv]
            rfl

def keepTruthy (xs vs : List Value) : List Value :=
  ((xs.zip vs).filter (·.2.isTruthy)).map (·.1)

theorem keepTruthy_cons (x v : Value) (xs vs : List Value) :
    keepTruthy (x :: xs) (v :: vs) =
      if v.isTruthy then x :: keepTruthy xs vs else keepTruthy xs vs := by
  rw [keepTruthy, List.zip_cons_cons, List.filter_cons]
  split <;> rfl

theorem map_keepTruthy_cons (x v : Value) (xs : List Value) (r : Except Fault (List Value)) :
    (r.map (v :: ·)).map (fun vs => Value.list (keepTruthy (x :: xs) vs)) =
      r.map fun vs => .list (if v.isTruthy then x :: keepTruthy xs vs else keepTruthy xs vs) := by
  cases r with
  | error e => rfl
  | ok vs => exact congrArg (Except.ok ∘ Value.list) (keepTruthy_cons x v xs vs)

theorem filter_copy (hs : s.Reachable) (hloaded : Loaded s) (hf : f.Within s)
    (hxs : ∀ x ∈ xs, x.Within s) (h : Copy s ρ a b) (id : Nat)
    (hno : ¬ (applications enough f xs).Overflows a) (hroom : enough + xs.length < room) :
    (applyWithin limit room (filter.closure id) [.closure f, .list xs] : Run Store Value).outcome b =
      ((applications enough f xs).outcome a).map fun vs => .list (keepTruthy xs vs) := by
  induction xs generalizing ρ a b room id with
  | nil =>
      obtain ⟨room, rfl⟩ : ∃ r, room = r + 1 := ⟨room - 1, by omega⟩
      exact Run.outcome_of_ok (filter_nil_run id)
  | cons x xs ih =>
      obtain ⟨room, rfl⟩ : ∃ r, room = r + 1 := ⟨room - 1, by omega⟩
      rw [List.length_cons] at hroom
      obtain ⟨hx, hxs⟩ := List.forall_mem_cons.1 hxs
      obtain ⟨hno, hrest⟩ := applications_cons_overflows hno
      obtain ⟨filterId, hfilter⟩ := hloaded.keeps h.second.keeps filter (by simp [definitions])
      have hscope := h.extend Session.root [("pred", .closure f), ("lst", .list (x :: xs))]
      have henough : enough ≤ room := by omega
      rw [Run.outcome_of_eq (filter_cons_run hfilter id)]
      obtain ⟨e, a', b', ha, hb, hcopy⟩ | ⟨v, a', b', ha, hb, hv, hcopy⟩ :=
        hscope.applyWithin_cases hs hf (List.forall_mem_singleton.2 hx) limit henough hno
      · rw [Run.outcome_of_error (applications_cons_error ha),
          Run.outcome_of_error (Run.bind_of_error hb)]
        rfl
      · have hroom' : enough + xs.length < room := by omega
        have houtcome := ih hxs hcopy filterId (hrest v a' ha) hroom'
        rw [(applications_cons_ok ha xs).1, map_keepTruthy_cons, Run.outcome_bind_of_ok hb,
          Value.isTruthy_renumber]
        by_cases hv : v.isTruthy
        · simp only [if_pos hv]
          rw [Run.outcome_bind_ofExcept, houtcome]
          cases (applications enough f xs).outcome a' <;> rfl
        · simp only [if_neg hv]
          exact houtcome

/-- In every session that began with the library, whatever was run in it since, `map` comes to the
values of a function at the elements of a list and `filter` to the elements where they count as true,
as the applications of the function in their order say, and both fail with the first that fails. They
need one application more of the recursion limit than the list has elements, on top of what is enough
for these applications. The values that `map` makes are those of the applications but for the numbers
of the frames made for them, and no frame that there was is changed. -/
theorem session_maps {m : Type → Type} [Monad m] (host : Host m) (settings : Settings) :
    ∃ s, Session.start host { settings with loadPrelude := true, preludePath := none } =
        pure (.ok s) ∧
      ∀ calls, let t := (s.callAll calls).store
        ∃ c d, t.lookup Session.root "map" = .ok (.closure c) ∧
          t.lookup Session.root "filter" = .ok (.closure d) ∧
          ∀ (f : Closure) (xs : List Value), f.Within t → (∀ x ∈ xs, x.Within t) →
            ∀ enough limit, enough + xs.length + 1 ≤ limit →
              let direct : Run Store (List Value) := xs.mapM fun x => apply enough f [x]
              let mapped : Run Store Value := apply limit c [.closure f, .list xs]
              let filtered : Run Store Value := apply limit d [.closure f, .list xs]
              ¬ direct.Overflows t →
              (∃ ρ : Renumbering, Function.Injective ρ.frame ∧
                (∀ id < t.frames.size, ρ.frame id = id) ∧ (∀ id, ρ.closure id = id) ∧
                mapped.outcome t =
                  (direct.outcome t).map (fun vs => .list (vs.map (Value.renumber ρ))) ∧
                ∀ id f, (direct.after t).frames[id]? = some f →
                  (mapped.after t).frames[ρ.frame id]? = some (f.renumber ρ)) ∧
              filtered.outcome t = (direct.outcome t).map (fun vs => .list (keepTruthy xs vs)) ∧
              Keeps t (mapped.after t) ∧ Keeps t (filtered.after t) := by
  refine ⟨_, start_session host rfl rfl, fun calls => ?_⟩
  have hloaded := loaded_callAll { settings with loadPrelude := true, preludePath := none } calls
  have hreachable :=
    reachable_callAll { settings with loadPrelude := true, preludePath := none } calls
  generalize ((session _).callAll calls).store = t at hloaded hreachable ⊢
  obtain ⟨mapId, hmap⟩ := hloaded map (by simp [definitions])
  obtain ⟨filterId, hfilter⟩ := hloaded filter (by simp [definitions])
  change t.find? Session.root "map" = _ at hmap
  change t.find? Session.root "filter" = _ at hfilter
  refine ⟨map.closure mapId, filter.closure filterId, by rw [Store.lookup, hmap],
    by rw [Store.lookup, hfilter], fun f xs hf hxs enough limit hlimit => ?_⟩
  intro direct mapped filtered hno
  obtain ⟨ρ, -, hcopy, houtcome⟩ :=
    map_copy hreachable hloaded hf hxs (.refl hreachable) mapId hno hlimit
  exact ⟨⟨ρ, hcopy.injective, hcopy.old, hcopy.closure, houtcome, hcopy.frames⟩,
    filter_copy hreachable hloaded hf hxs (.refl hreachable) filterId hno hlimit,
    (later_apply limit _ _ t).keeps, (later_apply limit _ _ t).keeps⟩

theorem session_maps_lambda :
    let body := Node.form "lambda" [.list [], .symbol "x"]
    let calls := [Session.Call.evaluate (.form "lambda" [.list [.symbol "x"], body])]
    let t := ((session {}).callAll calls).store
    let f : Closure := ⟨15, ["x"], body, Session.root⟩
    let xs : List Value := [.boolean true, .list []]
    let direct : Run Store (List Value) := xs.mapM fun x => apply 1 f [x]
    f.Within t ∧ direct.outcome t = .ok [.closure ⟨16, [], .symbol "x", 1⟩,
      .closure ⟨17, [], .symbol "x", 2⟩] ∧
    ∃ c d, t.lookup Session.root "map" = .ok (.closure c) ∧
      t.lookup Session.root "filter" = .ok (.closure d) ∧
      (∃ ρ : Renumbering, Function.Injective ρ.frame ∧
        (apply 4 c [.closure f, .list xs]).outcome t =
          .ok (.list [.closure ⟨16, [], .symbol "x", ρ.frame 1⟩,
            .closure ⟨17, [], .symbol "x", ρ.frame 2⟩]) ∧
        ((apply 4 c [.closure f, .list xs]).after t).frames[ρ.frame 2]? =
          some ⟨[("x", .list [])], some Session.root⟩) ∧
      (apply 4 d [.closure f, .list xs]).outcome t = .ok (.list xs) := by
  intro body calls t f xs direct
  have hf : f.Within t := ⟨by decide, by decide⟩
  have hxs : ∀ x ∈ xs, x.Within t := by
    intro x hx c hc
    obtain rfl | rfl : x = .boolean true ∨ x = .list [] := by simpa [xs] using hx
    · cases List.mem_singleton.1 hc
    · cases hc
  have hdirect : direct.outcome t = .ok [.closure ⟨16, [], .symbol "x", 1⟩,
      .closure ⟨17, [], .symbol "x", 2⟩] := by decide +kernel
  have hno : ¬ direct.Overflows t := by
    obtain ⟨u, hu⟩ := Run.exists_of_outcome hdirect
    exact Run.not_overflows_of_ok hu
  let host : Host Id := ⟨fun _ => .error .missing, .error .missing⟩
  obtain ⟨s, hs, h⟩ := session_maps host {}
  obtain rfl : session {} = s := Except.ok.inj ((start_session host rfl rfl).symm.trans hs)
  obtain ⟨c, d, hc, hd, h⟩ := h calls
  obtain ⟨⟨ρ, hρ, hold, hclosure, hmapped, hframes⟩, hfiltered, -⟩ :=
    h f xs hf hxs 1 4 (by decide) hno
  have hframe : (direct.after t).frames[2]? = some ⟨[("x", .list [])], some Session.root⟩ := rfl
  refine ⟨hf, hdirect, c, d, hc, hd, ⟨ρ, hρ, ?_, ?_⟩, ?_⟩
  · refine hmapped.trans ?_
    change (direct.outcome t).map _ = _
    rw [hdirect]
    change Except.ok (Value.list [.closure ⟨ρ.closure 16, _, _, _⟩, .closure ⟨ρ.closure 17, _, _, _⟩])
      = _
    rw [hclosure, hclosure]
  · refine (hframes 2 _ hframe).trans ?_
    change some (Frame.mk _ (some (ρ.frame Session.root))) = _
    rw [hold Session.root (by decide)]
    rfl
  · refine hfiltered.trans ?_
    change (direct.outcome t).map _ = _
    rw [hdirect]
    rfl

end Prelude

end SmallLisp
