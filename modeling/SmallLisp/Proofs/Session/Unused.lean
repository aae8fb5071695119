import SmallLisp.Proofs.Eval.Mentions
import SmallLisp.Proofs.Prelude.Definitions
import SmallLisp.Proofs.Session

namespace SmallLisp

namespace Matching

/-- The second session binds `extra` at the root, and has more frames from the start. -/
def unused (extra : List (String × Value)) (shift : Nat) : Matching := { extra, old := 1, shift }

variable {B : List (String × Value)} {shift : Nat} {s t : Session}

/-- Sessions with stores that match, under one recursion limit. -/
structure Sessions (M : Matching) (s t : Session) : Prop where
  limit : t.settings.maxRecursionDepth = s.settings.maxRecursionDepth
  stores : M.Stores s.store t.store

structure Both (M : Matching) {α β : Type} (P : Nat → α → β → Prop) (n : Nat)
    (x : Except Fault α × Session) (y : Except Fault β × Session) : Prop where
  outcomes : Likewise (P x.2.store.frames.size) x.1 y.1
  sessions : M.Sessions x.2 y.2
  size : n ≤ x.2.store.frames.size

theorem Sessions.evaluate (h : (unused B shift).Sessions s t) {n : Node}
    (hn : (unused B shift).Alike n n) :
    (unused B shift).Both (unused B shift).Values s.store.frames.size (s.evaluate n)
      (t.evaluate n) := by
  obtain ⟨settings, s⟩ := s
  obtain ⟨settings', t⟩ := t
  obtain ⟨hlimit, hstores⟩ := h
  change settings'.maxRecursionDepth = settings.maxRecursionDepth at hlimit
  have houtcomes := hstores.evaluate _ settings.maxRecursionDepth
    (fun _ => hstores.old : (unused B shift).InScope _ Session.root) hn
  change (unused B shift).Outcomes _ _ (SmallLisp.evaluate settings.maxRecursionDepth Session.root n s)
    (SmallLisp.evaluate settings.maxRecursionDepth Session.root n t) at houtcomes
  rw [Session.evaluate, Session.evaluate, Session.perform, Session.perform, hlimit]
  generalize SmallLisp.evaluate settings.maxRecursionDepth Session.root n s = x,
    SmallLisp.evaluate settings.maxRecursionDepth Session.root n t = y at houtcomes
  cases houtcomes with
  | ok hs hsize hv => exact ⟨.ok hv, ⟨hlimit, hs⟩, hsize⟩
  | error hs hsize e => exact ⟨.error e, ⟨hlimit, hs⟩, hsize⟩
  | overflow hd => cases hd

theorem Sessions.evaluateAll (h : (unused B shift).Sessions s t) {ns : List Node}
    (hns : ∀ n ∈ ns, (unused B shift).Alike n n) {last last' : Option Value}
    (hlast : Option.Rel ((unused B shift).Values s.store.frames.size) last last') :
    (unused B shift).Both (fun n => Option.Rel ((unused B shift).Values n)) s.store.frames.size
      (s.evaluateAll last ns) (t.evaluateAll last' ns) := by
  induction ns generalizing s t last last' with
  | nil => exact ⟨.ok hlast, h, Nat.le_refl _⟩
  | cons n ns ih =>
      obtain ⟨hn, hns⟩ := List.forall_mem_cons.1 hns
      have hboth := h.evaluate hn
      rw [Session.evaluateAll, Session.evaluateAll]
      rcases hx : s.evaluate n with ⟨x, s'⟩
      rcases hy : t.evaluate n with ⟨y, t'⟩
      rw [hx, hy] at hboth
      obtain ⟨houtcomes, hsessions, hsize⟩ := hboth
      cases houtcomes with
      | ok hv =>
          have hrest := ih hsessions hns (.some hv)
          exact ⟨hrest.outcomes, hrest.sessions, Nat.le_trans hsize hrest.size⟩
      | error e => exact ⟨.error e, hsessions, hsize⟩

end Matching

def Session.topNames (s : Session) : List String :=
  match s.store.frames[root]? with
  | some f => f.names
  | none => []

/-- A program ends in the same error in two sessions, or with values of the same text, and makes the
same names known at the top. -/
structure Session.SameProgram (source : String) (s t : Session) : Prop where
  outcome : (t.interpret source).1.map Value.text = (s.interpret source).1.map Value.text
  names : ∃ added, (s.interpret source).2.topNames = added ++ s.topNames ∧
    (t.interpret source).2.topNames = added ++ t.topNames

namespace Matching

variable {B : List (String × Value)} {shift : Nat} {s t : Session}

theorem names_eq {M : Matching} {n : Nat} {bs cs : List (String × Value)}
    (h : List.Forall₂ (M.Bindings n) bs cs) : cs.map (·.1) = bs.map (·.1) := by
  induction h with
  | nil => rfl
  | cons hb _ ih => rw [List.map_cons, List.map_cons, hb.1, ih]

theorem Sessions.topNames (h : (unused B shift).Sessions s t) :
    t.topNames = s.topNames ++ B.map (·.1) := by
  have hroot : Session.root < s.store.frames.size := h.stores.old
  have hf := Array.getElem?_eq_getElem hroot
  obtain ⟨g, hg, hfg⟩ := h.stores.frames _ _ hf
  change t.store.frames[Session.root]? = some g at hg
  obtain ⟨bs, hbs, hall⟩ := hfg.bindings
  change g.bindings = bs ++ B at hbs
  rw [Session.topNames, Session.topNames, hg, hf]
  change g.bindings.map (·.1) = _
  rw [hbs, List.map_append, names_eq hall]
  rfl

theorem Sessions.interpret (h : (unused B shift).Sessions s t) {source : String} {ns : List Node}
    (hread : readAll source = .ok ns) (hns : ∀ n ∈ ns, (unused B shift).Alike n n) :
    (t.interpret source).1.map Value.text = (s.interpret source).1.map Value.text ∧
      (unused B shift).Sessions (s.interpret source).2 (t.interpret source).2 := by
  have hboth := h.evaluateAll hns .none
  rw [s.interpret_of_readAll hread, t.interpret_of_readAll hread, Session.interpretNodes,
    Session.interpretNodes]
  generalize s.evaluateAll none ns = x, t.evaluateAll none ns = y at hboth ⊢
  obtain ⟨x, s'⟩ := x
  obtain ⟨y, t'⟩ := y
  obtain ⟨houtcomes, hsessions, -⟩ := hboth
  cases houtcomes with
  | error e => exact ⟨rfl, hsessions⟩
  | ok hlast =>
      cases hlast with
      | none => exact ⟨rfl, hsessions⟩
      | some hv =>
          refine ⟨?_, hsessions⟩
          change Except.ok (Value.text _) = Except.ok (Value.text _)
          rw [hv.text_eq fun _ _ => Closures.arity_eq]

theorem sessions_blank {settings : Settings}
    (hlimit : t.settings.maxRecursionDepth = settings.maxRecursionDepth)
    (ht : t.store.frames[Session.root]? = some ⟨B, none⟩) :
    (unused B (t.store.frames.size - 1)).Sessions (Session.blank settings) t := by
  have hsize : 0 < t.store.frames.size := (Array.getElem?_eq_some_iff.1 ht).1
  refine ⟨hlimit, Nat.le_refl 1, ?_, ?_, nofun⟩
  · change t.store.frames.size = 1 + (t.store.frames.size - 1)
    omega
  · intro id f hf
    change #[(⟨[], none⟩ : Frame)][id]? = some f at hf
    obtain ⟨hid, rfl⟩ := Array.getElem?_eq_some_iff.1 hf
    obtain rfl : id = Session.root := Nat.lt_one_iff.1 hid
    exact ⟨_, ht, rfl, fun _ p hp => absurd hp (Option.some_ne_none p).symm, [], rfl, .nil⟩

theorem alike_unused {ns : List Node}
    (h : ∀ n ∈ ns, ∀ name ∈ n.mentions, name ∉ B.map (·.1)) :
    ∀ n ∈ ns, (unused B shift).Alike n n :=
  fun n hn => (alike_self fun _ => rfl).all n (h n hn)

end Matching

/-- A program does in a session that binds names it does not mention what it does in one that binds
nothing; so does one that mentions no name of the library, with the library and without. -/
theorem interpret_unused {source : String} {ns : List Node} (hread : readAll source = .ok ns) :
    (∀ (B : List (String × Value)) (settings : Settings) (s : Session),
      s.settings.maxRecursionDepth = settings.maxRecursionDepth →
      s.store.frames[Session.root]? = some ⟨B, none⟩ →
      (∀ n ∈ ns, ∀ name ∈ n.mentions, name ∉ B.map (·.1)) →
      Session.SameProgram source (Session.blank settings) s) ∧
    (∀ (m : Type → Type) [Monad m] (host : Host m) (settings : Settings),
      settings.loadPrelude → settings.preludePath = none →
      (∀ n ∈ ns, ∀ name ∈ n.mentions, name ∉ Prelude.definitions.map Definition.name) →
      ∃ s t, Session.start host { settings with loadPrelude := false } = pure (.ok s) ∧
        Session.start host settings = pure (.ok t) ∧ Session.SameProgram source s t) := by
  have hsame : ∀ (B : List (String × Value)) (settings : Settings) (s : Session),
      s.settings.maxRecursionDepth = settings.maxRecursionDepth →
      s.store.frames[Session.root]? = some ⟨B, none⟩ →
      (∀ n ∈ ns, ∀ name ∈ n.mentions, name ∉ B.map (·.1)) →
      Session.SameProgram source (Session.blank settings) s := by
    intro B settings s hlimit hs hns
    have hsessions := Matching.sessions_blank hlimit hs
    obtain ⟨houtcome, hsessions'⟩ := hsessions.interpret hread (Matching.alike_unused hns)
    refine ⟨houtcome, _, (List.append_nil _).symm, ?_⟩
    rw [hsessions'.topNames, hsessions.topNames]
    rfl
  refine ⟨hsame, fun m _ host settings hload hpath hns => ?_⟩
  refine ⟨_, _, rfl, Prelude.start_session host hload hpath,
    hsame Prelude.bindings _ _ rfl rfl fun n hn name hname => ?_⟩
  rw [Prelude.bindings_names, List.mem_reverse]
  exact hns n hn name hname

theorem interpret_unused_if :
    let source := "(define y (if #t 'x 2)) (lambda (x) y)"
    let ns : List Node := [.form "define" [.symbol "y",
        .form "if" [.boolean true, .quoted (.symbol "x"), .integer 2]],
      .form "lambda" [.list [.symbol "x"], .symbol "y"]]
    let B : List (String × Value) := [("if", .integer 7), ("x", .boolean false)]
    readAll source = .ok ns ∧
    Session.SameProgram source Session.bare ⟨.bare, Store.flat B 0⟩ ∧
    let host : Host Id := ⟨fun _ => .error .missing, .error .missing⟩
    ∃ s t, Session.start host .bare = pure (.ok s) ∧ Session.start host {} = pure (.ok t) ∧
      Session.SameProgram source s t := by
  intro source ns B
  have hread : readAll source = .ok ns := by decide +kernel
  obtain ⟨hsame, hprelude⟩ := interpret_unused hread
  refine ⟨hread, hsame B _ _ rfl rfl (by decide), hprelude Id _ {} rfl rfl (by decide)⟩

end SmallLisp
