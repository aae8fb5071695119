import Mathlib.Data.Int.Range
import SmallLisp.Proofs.Prelude.Sort

namespace SmallLisp

namespace Prelude

variable {s : Store} {limit room : Nat} {start stop : Int64}

theorem intRange_nil {a b : Int} (h : b ≤ a) : Int.range a b = [] :=
  List.eq_nil_iff_forall_not_mem.2 fun n hn => by
    rw [Int.mem_range_iff] at hn
    omega

theorem intRange_cons {a b : Int} (h : a < b) : Int.range a b = a :: Int.range (a + 1) b := by
  obtain ⟨n, hn⟩ : ∃ n : Nat, (b - a).toNat = n + 1 := ⟨(b - a - 1).toNat, by omega⟩
  have hn' : (b - (a + 1)).toNat = n := by omega
  rw [Int.range, Int.range, hn, hn', List.range_succ_eq_map, List.map_cons, List.map_map]
  refine congrArg₂ _ (Int.add_zero a) (List.map_congr_left fun k _ => ?_)
  change a + ((k + 1 : Nat) : Int) = a + 1 + k
  omega

def words (start stop : Int64) : List Int64 :=
  (Int.range start.toInt (stop.toInt + 1)).map Int64.ofInt

theorem map_toInt_words (start stop : Int64) :
    (words start stop).map Int64.toInt = Int.range start.toInt (stop.toInt + 1) := by
  rw [words, List.map_map]
  conv_rhs => rw [← List.map_id (Int.range start.toInt (stop.toInt + 1))]
  refine List.map_congr_left fun n hn => ?_
  have hstart := start.le_toInt
  have hstop := stop.toInt_lt
  rw [Int.mem_range_iff] at hn
  exact Int64.toInt_ofInt_of_le (by omega) (by omega)

theorem length_words (start stop : Int64) :
    (words start stop).length = (stop.toInt + 1 - start.toInt).toNat := by
  rw [words, List.length_map, Int.range, List.length_map, List.length_range]

theorem words_nil (h : stop < start) : words start stop = [] := by
  rw [words, intRange_nil (Int64.lt_iff_toInt_lt.1 h), List.map_nil]

theorem ofInt_succ (start : Int64) : Int64.ofInt (start.toInt + 1) = start + 1 := by
  rw [Int64.ofInt_add, Int64.ofInt_toInt]
  rfl

theorem toInt_succ (h : start < .maxValue) : (start + 1).toInt = start.toInt + 1 := by
  have hlt : start.toInt < 2 ^ 63 - 1 := Int64.lt_iff_toInt_lt.1 h
  have hle := start.le_toInt
  rw [← ofInt_succ]
  exact Int64.toInt_ofInt_of_le (by omega) (by omega)

theorem words_cons (h : start ≤ stop) (hmax : start < .maxValue) :
    words start stop = start :: words (start + 1) stop := by
  have hle := Int64.le_iff_toInt_le.1 h
  rw [words, words, intRange_cons (by omega), List.map_cons, Int64.ofInt_toInt, toInt_succ hmax]

theorem add_one (h : start < .maxValue) :
    Operator.add.applyValues (.integer start) (.integer 1) = .ok (.integer (start + 1)) := by
  change Operator.add.exactly (start.toInt + 1) = _
  rw [Operator.exactly, ← toInt_succ h, Integer.ofInt?_toInt]
  rfl

theorem add_one_maxValue :
    Operator.add.applyValues (.integer .maxValue) (.integer 1) =
      .error (.integerOverflow .add) := by
  decide

def rangeNext : Node := .form "+" [.symbol "start", .integer 1]

section Body

variable {call : Applying Store} {scope : FrameId}

theorem rangeTest_evals (hstart : s.find? scope "start" = some (.integer start))
    (hend : s.find? scope "end" = some (.integer stop)) :
    Evals call s scope (.form ">" [.symbol "start", .symbol "end"]) (.boolean (stop < start)) :=
  .strict rfl rfl rfl (.cons (.symbol hstart) (.cons (.symbol hend) .nil)) rfl

theorem rangeNext_evals (hstart : s.find? scope "start" = some (.integer start))
    (hmax : start < .maxValue) : Evals call s scope rangeNext (.integer (start + 1)) :=
  .strict rfl rfl rfl (.cons (.symbol hstart) (.cons (.integer 1) .nil)) (add_one hmax)

theorem rangeNext_fails (hstart : s.find? scope "start" = some (.integer .maxValue)) :
    Fails call s scope rangeNext (.integerOverflow .add) :=
  .computeFail rfl rfl rfl (.cons (.symbol hstart) (.cons (.integer 1) .nil)) add_one_maxValue

end Body

theorem range_yields (hs : Loaded s) (id : Nat) (hmax : stop < .maxValue)
    (hroom : (words start stop).length < room) :
    Yields s (applyWithin limit room (range.closure id) [.integer start, .integer stop])
      (· = .ok (integers (words start stop))) := by
  induction room generalizing s start id with
  | zero => exact absurd hroom (Nat.not_lt_zero _)
  | succ room ih =>
      obtain ⟨rangeId, hrange⟩ := hs range (by simp [definitions])
      refine .enter rfl fun t scope hst hlocal hglobal => ?_
      have hstart := hlocal "start" (.integer start) rfl
      have hend := hlocal "end" (.integer stop) rfl
      by_cases hlt : stop < start
      · rw [words_nil hlt]
        exact .ifTrue rfl (rangeTest_evals hstart hend) (decide_eq_true hlt) (.quoted _)
      · have hle : start ≤ stop := Int64.not_lt.1 hlt
        have hstartMax := Int64.lt_of_le_of_lt hle hmax
        rw [words_cons hle hstartMax] at hroom ⊢
        have hrest : Evals (applyWithin limit room) t scope
            (.form "range" [rangeNext, .symbol "end"]) (integers (words (start + 1) stop)) :=
          .ofCall rfl (.symbol (hglobal _ _ rfl hrange)) rfl
            (.cons (rangeNext_evals hstart hstartMax) (.cons (.symbol hend) .nil))
            (ih (hs.keeps hst) rangeId (Nat.lt_of_succ_lt_succ hroom))
        refine .ifFalse rfl (rangeTest_evals hstart hend) (by simp [Value.isTruthy, hlt]) ?_
        exact .strict rfl rfl rfl (.cons (.symbol hstart) (.cons hrest .nil)) rfl

/-- The application to the greatest word has no next word to go on with. -/
theorem range_fails (hs : Loaded s) (id : Nat) (hroom : (words start .maxValue).length ≤ room) :
    Yields s (applyWithin limit room (range.closure id) [.integer start, .integer .maxValue])
      (· = .error (.integerOverflow .add)) := by
  induction room generalizing s start id with
  | zero =>
      have hle := Int64.le_iff_toInt_le.1 start.le_maxValue
      rw [length_words] at hroom
      omega
  | succ room ih =>
      obtain ⟨rangeId, hrange⟩ := hs range (by simp [definitions])
      refine .enter rfl fun t scope hst hlocal hglobal => ?_
      have hstart := hlocal "start" (.integer start) rfl
      have hend := hlocal "end" (.integer .maxValue) rfl
      have hlt : ¬ Int64.maxValue < start := Int64.not_lt.2 start.le_maxValue
      have hcall : Evals (applyWithin limit room) t scope (.symbol "range")
          (.closure (range.closure rangeId)) :=
        .symbol (hglobal _ _ rfl hrange)
      have hrest : Fails (applyWithin limit room) t scope
          (.form "range" [rangeNext, .symbol "end"]) (.integerOverflow .add) := by
        obtain hmax | rfl := Int64.le_iff_lt_or_eq.1 start.le_maxValue
        · rw [words_cons start.le_maxValue hmax] at hroom
          exact .ofCall rfl hcall rfl (.cons (rangeNext_evals hstart hmax) (.cons (.symbol hend) .nil))
            (ih (hs.keeps hst) rangeId (Nat.le_of_succ_le_succ hroom))
        · exact .callFail rfl hcall rfl (.operandsFail (rangeNext_fails hstart))
      refine .ifFalse rfl (rangeTest_evals hstart hend) (by simp [Value.isTruthy, hlt]) ?_
      exact .strictFail rfl rfl rfl (.operandsFailLater (.symbol hstart) (.operandsFail hrest))

def rangeForm (start stop : Int64) : Node := .form "range" [.integer start, .integer stop]

theorem rangeForm_yields {id : Nat} {Q : Except Fault Value → Prop}
    (hrange : s.find? Session.root "range" = some (.closure (range.closure id)))
    (h : Yields s (apply limit (range.closure id) [.integer start, .integer stop]) Q) :
    Yields s (evaluate limit Session.root (rangeForm start stop)) Q :=
  .ofCall rfl (.symbol hrange) rfl (.cons (.integer start) (.cons (.integer stop) .nil)) h

/-- In every session that began with the library, whatever was run in it since, `range` lists the
integers between its bounds, both included, if the upper one is not the greatest word. The recursion
limit has to be one more than there are integers. Up to the greatest word there is an overflow
instead. -/
theorem session_ranges {m : Type → Type} [Monad m] (host : Host m) (settings : Settings) :
    ∃ s, Session.start host { settings with loadPrelude := true, preludePath := none } =
        pure (.ok s) ∧
      ∀ calls, let t := (s.callAll calls).store
        ∃ c, t.lookup Session.root "range" = .ok (.closure c) ∧
          ∀ start stop : Int64, ∃ ys : List Int64,
            ys.map Int64.toInt = Int.range start.toInt (stop.toInt + 1) ∧
            ∀ limit : Nat, 1 ≤ limit → stop.toInt - start.toInt + 2 ≤ limit →
              let result := if stop = .maxValue then .error (.integerOverflow .add)
                else .ok (integers ys)
              (apply limit c [.integer start, .integer stop]).outcome t = result ∧
              (evaluate limit Session.root (rangeForm start stop)).outcome t = result := by
  refine ⟨_, start_session host rfl rfl, fun calls => ?_⟩
  have hloaded := loaded_callAll { settings with loadPrelude := true, preludePath := none } calls
  generalize ((session _).callAll calls).store = t at hloaded ⊢
  obtain ⟨id, hrange⟩ := hloaded range (by simp [definitions])
  change t.find? Session.root "range" = _ at hrange
  refine ⟨range.closure id, by rw [Store.lookup, hrange], fun start stop => ?_⟩
  refine ⟨words start stop, map_toInt_words start stop, fun limit hpos hlimit => ?_⟩
  have hroom : (words start stop).length < limit := by
    rw [length_words]
    omega
  have h : Yields t (apply limit (range.closure id) [.integer start, .integer stop])
      (· = if stop = .maxValue then .error (.integerOverflow .add)
        else .ok (integers (words start stop))) := by
    obtain hmax | rfl := Int64.le_iff_lt_or_eq.1 stop.le_maxValue
    · rw [if_neg (Int64.ne_of_lt hmax)]
      exact range_yields hloaded id hmax hroom
    · rw [if_pos rfl]
      exact range_fails hloaded id (Nat.le_of_lt hroom)
  exact ⟨(h t (.refl t)).2, (rangeForm_yields hrange h t (.refl t)).2⟩

/-- The greatest word is the one integer between itself and itself, and `range` does not list it. -/
theorem range_maxValue :
    words .maxValue .maxValue = [.maxValue] ∧
      (evaluate 2 Session.root (rangeForm .maxValue .maxValue)).outcome store =
        .error (.integerOverflow .add) := by
  decide +kernel

end Prelude

end SmallLisp
