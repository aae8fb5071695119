import Mathlib.Data.List.Infix
import SmallLisp.Proofs.Operation
import SmallLisp.Proofs.Prelude.Sessions

namespace SmallLisp

namespace Prelude

variable {s : Store} {limit room : Nat}

theorem reverse_yields (hs : Loaded s) (id : Nat) (xs : List Value) :
    Yields s (applyWithin limit room (reverse.closure id) [.list xs])
      (· = inRoom limit room xs.length (.ok (.list xs.reverse))) := by
  refine recursion_yields (fun xs => .ok (.list xs.reverse)) (by simp [definitions]) rfl rfl
    (by decide) rfl rfl ?_ ?_ hs id xs
  · exact fun _ => .quoted _
  · intro room t scope x xs ht hrest
    obtain ⟨appendId, happend⟩ := ht.library append (by simp [definitions]) (by decide)
    have hlst : Evals (applyWithin limit room) t scope (.symbol "lst") (.list (x :: xs)) :=
      .symbol (List.forall₂_cons.1 ht.params).1
    have hlast : Evals (applyWithin limit room) t scope
        (.form "cons" [.form "head" [.symbol "lst"], .quoted (.list [])]) (.list [x]) :=
      .strict rfl rfl rfl
        (.cons (.strict rfl rfl rfl (.cons hlst .nil) rfl) (.cons (.quoted _) .nil)) rfl
    obtain hroom | hroom := Nat.lt_or_ge xs.length room
    · rw [inRoom_of_lt hroom] at hrest ⊢
      rw [List.reverse_cons]
      -- `append` has the room that `reverse` had one application further in
      refine .ofCall rfl (.symbol happend) rfl (.cons hrest (.cons hlast .nil)) ?_
      exact append_yields ht.loaded appendId _ _ (by rwa [List.length_reverse])
    · rw [inRoom_of_le hroom] at hrest ⊢
      exact .callFail rfl (.symbol happend) rfl (.operandsFail hrest)

theorem length_yields (hs : Loaded s) (id : Nat) (xs : List Value) :
    Yields s (applyWithin limit room (length.closure id) [.list xs])
      (· = inRoom limit room xs.length (Operator.add.exactly xs.length)) := by
  refine recursion_yields (fun xs => Operator.add.exactly xs.length) (by simp [definitions]) rfl rfl
    (by decide) rfl rfl ?_ ?_ hs id xs
  · exact fun _ => .integer 0
  · intro room t scope x xs _ hrest
    refine (Yields.strictLast rfl rfl rfl (.integer 1) hrest).imp fun _ h => h.trans ?_
    rw [inRoom_bind, List.length_cons, ← Operator.exactly_succ]
    rfl

/-- The sum of a list as `sum` adds it up, from its end. -/
def addUp : List Value → Except Fault Value
  | [] => .ok (.integer 0)
  | x :: xs => do Operator.add.applyValues x (← addUp xs)

theorem sum_yields (hs : Loaded s) (id : Nat) (xs : List Value) :
    Yields s (applyWithin limit room (sum.closure id) [.list xs])
      (· = inRoom limit room xs.length (addUp xs)) := by
  refine recursion_yields addUp (by simp [definitions]) rfl rfl (by decide) rfl rfl ?_ ?_ hs id xs
  · exact fun _ => .integer 0
  · intro room t scope x xs ht hrest
    have hhead : Evals (applyWithin limit room) t scope (.form "head" [.symbol "lst"]) x :=
      .strict rfl rfl rfl (.cons (.symbol (List.forall₂_cons.1 ht.params).1) .nil) rfl
    refine (Yields.strictLast rfl rfl rfl hhead hrest).imp fun _ h => h.trans ?_
    rw [inRoom_bind]
    rfl

def total (ns : List Int64) : Int := (ns.map Int64.toInt).sum

theorem total_cons (n : Int64) (ns : List Int64) : total (n :: ns) = n.toInt + total ns :=
  List.sum_cons

theorem fits_total {ns : List Int64} (h : ∀ zs ∈ ns.tails, Integer.Fits (total zs)) :
    Integer.Fits (total ns) :=
  h ns ((List.mem_tails ns ns).2 ns.suffix_rfl)

theorem addUp_integers (ns : List Int64) :
    addUp (ns.map .integer) =
      if ∀ zs ∈ ns.tails, Integer.Fits (total zs) then .ok (.integer (.ofInt (total ns)))
      else .error (.integerOverflow .add) := by
  induction ns with
  | nil => rfl
  | cons n ns ih =>
      rw [List.map_cons, addUp, ih, List.tails_cons]
      simp only [List.forall_mem_cons]
      by_cases htails : ∀ zs ∈ ns.tails, Integer.Fits (total zs)
      · rw [if_pos htails]
        change Operator.add.applyValues (.integer n) (.integer (.ofInt (total ns))) = _
        rw [Operator.add_ofInt n (fits_total htails), ← total_cons, Operator.exactly_eq]
        exact if_congr (and_iff_left htails).symm rfl rfl
      · rw [if_neg htails, if_neg fun h => htails h.2]
        rfl

/-- In every session that began with the library, whatever was run in it since, `append`, `reverse`,
`length` and `sum` compute what they are named for, of a list of any values, as soon as the recursion
limit is more than the length of the list. Under every other limit they overflow. The sum is taken from
the end of the list, so that there is an overflow of `+` if it leaves the words on the way, although
the sum of the whole list may be a word. -/
theorem session_lists {m : Type → Type} [Monad m] (host : Host m) (settings : Settings) :
    ∃ s, Session.start host { settings with loadPrelude := true, preludePath := none } =
        pure (.ok s) ∧
      ∀ calls, let t := (s.callAll calls).store
        ∃ append reverse length sum, t.lookup Session.root "append" = .ok (.closure append) ∧
          t.lookup Session.root "reverse" = .ok (.closure reverse) ∧
          t.lookup Session.root "length" = .ok (.closure length) ∧
          t.lookup Session.root "sum" = .ok (.closure sum) ∧
          ∀ (xs ys : List Value) (limit : Nat),
            let appended := (apply limit append [.list xs, .list ys]).outcome t
            let reversed := (apply limit reverse [.list xs]).outcome t
            let counted := (apply limit length [.list xs]).outcome t
            let summed := (apply limit sum [.list xs]).outcome t
            (xs.length < limit →
              appended = .ok (.list (xs ++ ys)) ∧ reversed = .ok (.list xs.reverse) ∧
              Operator.add.Exact xs.length counted ∧
              ∀ ns : List Int64, xs = ns.map .integer →
                if ∀ zs ∈ ns.tails, Integer.Fits (total zs) then
                  ∃ w : Int64, w.toInt = total ns ∧ summed = .ok (.integer w)
                else summed = .error (.integerOverflow .add)) ∧
            (limit ≤ xs.length →
              appended = .error (.stackOverflow limit) ∧ reversed = .error (.stackOverflow limit) ∧
              counted = .error (.stackOverflow limit) ∧ summed = .error (.stackOverflow limit)) := by
  refine ⟨_, start_session host rfl rfl, fun calls => ?_⟩
  have hloaded := loaded_callAll { settings with loadPrelude := true, preludePath := none } calls
  generalize ((session _).callAll calls).store = t at hloaded ⊢
  obtain ⟨appendId, happend⟩ := hloaded.lookup (d := append) (by simp [definitions])
  obtain ⟨reverseId, hreverse⟩ := hloaded.lookup (d := reverse) (by simp [definitions])
  obtain ⟨lengthId, hlength⟩ := hloaded.lookup (d := length) (by simp [definitions])
  obtain ⟨sumId, hsum⟩ := hloaded.lookup (d := sum) (by simp [definitions])
  refine ⟨_, _, _, _, happend, hreverse, hlength, hsum, fun xs ys limit => ?_⟩
  intro appended reversed counted summed
  have happended : appended = inRoom limit limit xs.length (.ok (.list (xs ++ ys))) :=
    (append_yields_inRoom hloaded appendId xs ys t (.refl t)).2
  have hreversed : reversed = inRoom limit limit xs.length (.ok (.list xs.reverse)) :=
    (reverse_yields hloaded reverseId xs t (.refl t)).2
  have hcounted : counted = inRoom limit limit xs.length (Operator.add.exactly xs.length) :=
    (length_yields hloaded lengthId xs t (.refl t)).2
  have hsummed : summed = inRoom limit limit xs.length (addUp xs) :=
    (sum_yields hloaded sumId xs t (.refl t)).2
  rw [happended, hreversed, hcounted, hsummed]
  refine ⟨fun hlt => ?_, fun hle => ?_⟩
  · refine ⟨inRoom_of_lt hlt _, inRoom_of_lt hlt _, ?_, ?_⟩
    · rw [inRoom_of_lt hlt]
      exact Operator.exact_exactly _ _
    · rintro ns rfl
      rw [inRoom_of_lt hlt, addUp_integers]
      split
      · next htails =>
          obtain ⟨w, hw⟩ := Integer.fits_iff.1 (fits_total htails)
          exact ⟨w, hw, by rw [← hw, Int64.ofInt_toInt]⟩
      · rfl
  · exact ⟨inRoom_of_le hle _, inRoom_of_le hle _, inRoom_of_le hle _, inRoom_of_le hle _⟩

theorem session_lists_overflow :
    let t := (session {}).store
    let ns : List Int64 := [-1, .maxValue, 1]
    let xs : List Value := ns.map .integer
    ∃ append reverse length sum, t.lookup Session.root "append" = .ok (.closure append) ∧
      t.lookup Session.root "reverse" = .ok (.closure reverse) ∧
      t.lookup Session.root "length" = .ok (.closure length) ∧
      t.lookup Session.root "sum" = .ok (.closure sum) ∧
      (apply 4 append [.list xs, .list xs]).outcome t = .ok (.list (xs ++ xs)) ∧
      (apply 4 reverse [.list xs]).outcome t = .ok (.list xs.reverse) ∧
      (∃ w : Int64, w.toInt = 3 ∧ (apply 4 length [.list xs]).outcome t = .ok (.integer w)) ∧
      (apply 4 sum [.list xs]).outcome t = .error (.integerOverflow .add) ∧
      (apply 3 sum [.list xs]).outcome t = .error (.stackOverflow 3) := by
  intro t ns xs
  let host : Host Id := ⟨fun _ => .error .missing, .error .missing⟩
  obtain ⟨s, hs, h⟩ := session_lists host {}
  obtain rfl : session {} = s := Except.ok.inj ((start_session host rfl rfl).symm.trans hs)
  obtain ⟨append, reverse, length, sum, happend, hreverse, hlength, hsum, h⟩ := h []
  obtain ⟨happended, hreversed, hcounted, hsummed⟩ := (h xs xs 4).1 (by decide)
  obtain ⟨-, -, -, hover⟩ := (h xs xs 3).2 (by decide)
  have hnone : ¬ ∀ zs ∈ ns.tails, Integer.Fits (total zs) := by decide
  specialize hsummed ns rfl
  rw [if_neg hnone] at hsummed
  exact ⟨append, reverse, length, sum, happend, hreverse, hlength, hsum, happended, hreversed,
    hcounted.value.2 (by decide), hsummed, hover⟩

end Prelude

end SmallLisp
