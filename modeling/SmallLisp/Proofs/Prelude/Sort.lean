import SmallLisp.Proofs.Eval.Limit
import SmallLisp.Proofs.Prelude.Sessions

namespace SmallLisp

open scoped List

namespace Prelude

variable {s : Store} {limit room : Nat} {scope : FrameId} {x : Int64} {xs : List Int64}

def integers (xs : List Int64) : Value := .list (xs.map .integer)

theorem sortTail_evals (hlst : s.find? scope "lst" = some (integers (x :: xs))) :
    Evals (applyWithin limit room) s scope (.form "tail" [.symbol "lst"]) (integers xs) :=
  .strict rfl rfl rfl (.cons (.symbol hlst) .nil) rfl

theorem sortLess_evals (hs : Loaded s) {id : Nat}
    (hfilter : s.find? scope "filter" = some (.closure (filter.closure id)))
    (hlst : s.find? scope "lst" = some (integers (x :: xs))) (hroom : xs.length < room) :
    Evals (applyWithin limit room) s scope sortLess (integers (xs.filter (· < x))) := by
  refine .ofCallWith rfl (.symbol hfilter) rfl rfl rfl (.cons (sortTail_evals hlst) .nil) fun _ => ?_
  refine filter_yields (k := 0) Value.integer _ hs id rfl xs (fun y _ room hroom => ?_) hroom
  obtain ⟨room, rfl⟩ : ∃ r, room = r + 1 := ⟨room - 1, by omega⟩
  refine .enter rfl fun t inner _ hlocal hglobal => ?_
  have hhead : Evals (applyWithin limit room) t inner (.form "head" [.symbol "lst"]) (.integer x) :=
    .strict rfl rfl rfl (.cons (.symbol (hglobal _ _ rfl hlst)) .nil) rfl
  have hless : Evals (applyWithin limit room) t inner
      (.form "<" [.symbol "x", .form "head" [.symbol "lst"]]) (.boolean (y < x)) :=
    .strict rfl rfl rfl (.cons (.symbol (hlocal "x" _ rfl)) (.cons hhead .nil)) rfl
  exact hless.imp fun _ h => ⟨_, h, rfl⟩

theorem sortRest_evals (hs : Loaded s) {id atLeastId : Nat}
    (hfilter : s.find? scope "filter" = some (.closure (filter.closure id)))
    (hatLeast : s.find? scope ">=" = some (.closure (atLeast.closure atLeastId)))
    (hlst : s.find? scope "lst" = some (integers (x :: xs))) (hroom : xs.length + 2 < room) :
    Evals (applyWithin limit room) s scope sortRest (integers (xs.filter (x ≤ ·))) := by
  refine .ofCallWith rfl (.symbol hfilter) rfl rfl rfl (.cons (sortTail_evals hlst) .nil) fun _ => ?_
  refine filter_yields (k := 2) Value.integer _ hs id rfl xs (fun y _ room hroom => ?_) hroom
  obtain ⟨room, rfl⟩ : ∃ r, room = r + 3 := ⟨room - 3, by omega⟩
  refine .enter rfl fun t inner hst hlocal hglobal => ?_
  have hhead : Evals (applyWithin limit (room + 2)) t inner (.form "head" [.symbol "lst"])
      (.integer x) :=
    .strict rfl rfl rfl (.cons (.symbol (hglobal _ _ rfl hlst)) .nil) rfl
  have hrest : Evals (applyWithin limit (room + 2)) t inner
      (.form ">=" [.symbol "x", .form "head" [.symbol "lst"]]) (.boolean (x ≤ y)) :=
    .ofCall rfl (.symbol (hglobal _ _ rfl hatLeast)) rfl
      (.cons (.symbol (hlocal "x" _ rfl)) (.cons hhead .nil))
      (atLeast_yields (hs.keeps hst) atLeastId y x)
  exact hrest.imp fun _ h => ⟨_, h, rfl⟩

theorem sorted_pivot {less rest : List Int64} (hless : less.Perm (xs.filter (· < x)))
    (hrest : rest.Perm (xs.filter (x ≤ ·))) (hsless : less.Pairwise (· ≤ ·))
    (hsrest : rest.Pairwise (· ≤ ·)) :
    (less ++ x :: rest).Perm (x :: xs) ∧ (less ++ x :: rest).Pairwise (· ≤ ·) := by
  have hlt : ∀ y ∈ less, y < x := fun y hy => by simpa using (List.mem_filter.1 (hless.mem_iff.1 hy)).2
  have hle : ∀ y ∈ rest, x ≤ y := fun y hy => by simpa using (List.mem_filter.1 (hrest.mem_iff.1 hy)).2
  have hrest' : rest.Perm (xs.filter fun y => !decide (y < x)) := by
    simpa [← Int64.not_lt] using hrest
  constructor
  · calc less ++ x :: rest
      _ ~ x :: (less ++ rest) := List.perm_middle
      _ ~ x :: (xs.filter (· < x) ++ xs.filter fun y => !decide (y < x)) :=
          (hless.append hrest').cons x
      _ ~ x :: xs := (List.filter_append_perm _ xs).cons x
  · refine List.pairwise_append.2 ⟨hsless, List.pairwise_cons.2 ⟨hle, hsrest⟩, fun y hy z hz => ?_⟩
    obtain rfl | hz := List.mem_cons.1 hz
    · exact Int64.le_of_lt (hlt y hy)
    · exact Int64.le_trans (Int64.le_of_lt (hlt y hy)) (hle z hz)

/-- Wherever the library is, `sort` makes `ys` of `xs`. -/
def Sorts (xs ys : List Int64) : Prop :=
  ∀ {s : Store} {limit room : Nat} (id : Nat), Loaded s → xs.length + 3 ≤ room →
    Yields s (applyWithin limit room (sort.closure id) [integers xs]) (· = .ok (integers ys))

theorem sorts_nil : Sorts [] [] := by
  intro s limit room id _ hroom
  obtain ⟨room, rfl⟩ : ∃ r, room = r + 1 := ⟨room - 1, by omega⟩
  refine .enter rfl fun t scope _ hlocal _ => ?_
  exact .ifTrue rfl (.strict rfl rfl rfl (.cons (.symbol (hlocal "lst" _ rfl)) .nil) rfl) rfl
    (.quoted _)

theorem sorts_cons {less rest : List Int64} (hless : Sorts (xs.filter (· < x)) less)
    (hrest : Sorts (xs.filter (x ≤ ·)) rest) (hlength : less.length ≤ xs.length) :
    Sorts (x :: xs) (less ++ x :: rest) := by
  intro s limit room id hs hroom
  rw [List.length_cons] at hroom
  obtain ⟨room, rfl⟩ : ∃ r, room = r + 1 := ⟨room - 1, by omega⟩
  have hlengthLess := List.length_filter_le (· < x) xs
  have hlengthRest := List.length_filter_le (x ≤ ·) xs
  obtain ⟨sortId, hsort⟩ := hs sort (by simp [definitions])
  obtain ⟨appendId, happend⟩ := hs append (by simp [definitions])
  obtain ⟨filterId, hfilter⟩ := hs filter (by simp [definitions])
  obtain ⟨atLeastId, hatLeast⟩ := hs atLeast (by simp [definitions])
  refine .enter rfl fun t scope hst hlocal hglobal => ?_
  have ht := hs.keeps hst
  have hlst := hlocal "lst" (integers (x :: xs)) rfl
  -- the body has one application less, which is enough for a part, as that is without the pivot
  have hsortLess : Evals (applyWithin limit room) t scope (.form "sort" [sortLess])
      (integers less) :=
    .ofCall rfl (.symbol (hglobal _ _ rfl hsort)) rfl
      (.cons (sortLess_evals ht (hglobal _ _ rfl hfilter) hlst (by omega)) .nil)
      (hless sortId ht (by omega))
  have hsortRest : Evals (applyWithin limit room) t scope (.form "sort" [sortRest])
      (integers rest) :=
    .ofCall rfl (.symbol (hglobal _ _ rfl hsort)) rfl
      (.cons (sortRest_evals ht (hglobal _ _ rfl hfilter) (hglobal _ _ rfl hatLeast) hlst
        (by omega)) .nil)
      (hrest sortId ht (by omega))
  have hhead : Evals (applyWithin limit room) t scope (.form "head" [.symbol "lst"]) (.integer x) :=
    .strict rfl rfl rfl (.cons (.symbol hlst) .nil) rfl
  have hcons : Evals (applyWithin limit room) t scope
      (.form "cons" [.form "head" [.symbol "lst"], .form "sort" [sortRest]])
      (integers (x :: rest)) :=
    .strict rfl rfl rfl (.cons hhead (.cons hsortRest .nil)) rfl
  have happended : Yields t
      (applyWithin limit room (append.closure appendId) [integers less, integers (x :: rest)])
      (· = .ok (integers (less ++ x :: rest))) := by
    rw [integers, integers, integers, List.map_append]
    exact append_yields ht appendId _ _ (by rw [List.length_map]; omega)
  refine .ifFalse rfl (.strict rfl rfl rfl (.cons (.symbol hlst) .nil) rfl)
    Bool.false_ne_true ?_
  exact .ofCall rfl (.symbol (hglobal _ _ rfl happend)) rfl (.cons hsortLess (.cons hcons .nil))
    happended

theorem exists_sorts (xs : List Int64) :
    ∃ ys : List Int64, ys.Perm xs ∧ ys.Pairwise (· ≤ ·) ∧ Sorts xs ys := by
  -- on the length, since what `sort` is applied to next is filtered and no tail
  induction hn : xs.length using Nat.strongRecOn generalizing xs with
  | ind n ih =>
      subst hn
      cases xs with
      | nil => exact ⟨[], .nil, .nil, sorts_nil⟩
      | cons x xs =>
          have hlength := List.length_filter_le (· < x) xs
          obtain ⟨less, hless, hsless, hsortsLess⟩ :=
            ih _ (Nat.lt_succ_of_le hlength) (xs.filter (· < x)) rfl
          obtain ⟨rest, hrest, hsrest, hsortsRest⟩ :=
            ih _ (Nat.lt_succ_of_le (List.length_filter_le (x ≤ ·) xs)) (xs.filter (x ≤ ·)) rfl
          obtain ⟨hperm, hsorted⟩ := sorted_pivot hless hrest hsless hsrest
          exact ⟨_, hperm, hsorted, sorts_cons hsortsLess hsortsRest (hless.length_eq ▸ hlength)⟩

theorem ofNodes_map (xs : List Int64) : Value.ofNodes (xs.map .integer) = xs.map .integer := by
  induction xs with
  | nil => rfl
  | cons x xs ih => rw [List.map_cons, List.map_cons, Value.ofNodes, Value.ofNode, ih]

def sortForm (xs : List Int64) : Node := .form "sort" [.quoted (.list (xs.map .integer))]

theorem sortForm_yields {xs ys : List Int64} (h : Sorts xs ys) {id : Nat} (hs : Loaded s)
    (hsort : s.find? Session.root "sort" = some (.closure (sort.closure id)))
    (hlimit : xs.length + 3 ≤ limit) :
    Yields s (evaluate limit Session.root (sortForm xs)) (· = .ok (integers ys)) := by
  have hxs : Evals (apply limit) s Session.root (.quoted (.list (xs.map .integer)))
      (.list (Value.ofNodes (xs.map .integer))) :=
    .quoted _
  rw [ofNodes_map] at hxs
  exact .ofCall rfl (.symbol hsort) rfl (.cons hxs .nil) (h id hs hlimit)

/-- In every session that began with the library, whatever was run in it since, `sort` makes of a list
of integers the ordered list of the same integers, as soon as the recursion limit is three more than
the length of the list. Under a smaller limit it does so or overflows. -/
theorem session_sorts {m : Type → Type} [Monad m] (host : Host m) (settings : Settings) :
    ∃ s, Session.start host { settings with loadPrelude := true, preludePath := none } =
        pure (.ok s) ∧
      ∀ calls, let t := (s.callAll calls).store
        ∃ c, t.lookup Session.root "sort" = .ok (.closure c) ∧
          ∀ xs : List Int64, ∃ ys : List Int64, ys.Perm xs ∧ ys.Pairwise (· ≤ ·) ∧ ∀ limit,
            let applied := (apply limit c [integers xs]).outcome t
            let evaluated := (evaluate limit Session.root (sortForm xs)).outcome t
            (xs.length + 3 ≤ limit →
              applied = .ok (integers ys) ∧ evaluated = .ok (integers ys)) ∧
            (applied = .ok (integers ys) ∨ applied = .error (.stackOverflow limit)) ∧
            (evaluated = .ok (integers ys) ∨ evaluated = .error (.stackOverflow limit)) := by
  refine ⟨_, start_session host rfl rfl, fun calls => ?_⟩
  have hloaded := loaded_callAll { settings with loadPrelude := true, preludePath := none } calls
  generalize ((session _).callAll calls).store = t at hloaded ⊢
  obtain ⟨id, hsort⟩ := hloaded sort (by simp [definitions])
  change t.find? Session.root "sort" = _ at hsort
  refine ⟨sort.closure id, by rw [Store.lookup, hsort], fun xs => ?_⟩
  obtain ⟨ys, hperm, hsorted, hsorts⟩ := exists_sorts xs
  have happlied (limit : Nat) (hlimit : xs.length + 3 ≤ limit) :
      (apply limit (sort.closure id) [integers xs]).outcome t = .ok (integers ys) :=
    (hsorts id hloaded hlimit t (.refl t)).2
  have hevaluated (limit : Nat) (hlimit : xs.length + 3 ≤ limit) :
      (evaluate limit Session.root (sortForm xs)).outcome t = .ok (integers ys) :=
    (sortForm_yields hsorts hloaded hsort hlimit t (.refl t)).2
  refine ⟨ys, hperm, hsorted, fun limit => ⟨fun hlimit => ?_, ?_, ?_⟩⟩
  · exact ⟨happlied limit hlimit, hevaluated limit hlimit⟩
  · exact apply_outcome (happlied _ (Nat.le_refl _)) limit
  · exact evaluate_outcome (hevaluated _ (Nat.le_refl _)) limit

example : (evaluate 4 Session.root (sortForm [2, 1])).outcome store = .error (.stackOverflow 4) := by
  decide +kernel

end Prelude

end SmallLisp
