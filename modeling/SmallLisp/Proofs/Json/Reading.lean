import Mathlib.Data.List.Basic
import Mathlib.Data.List.TakeWhile
import SmallLisp.Json.Reader
import SmallLisp.Proofs.Json.Token

namespace SmallLisp.Json

variable {c : Char} {rest : List Char} {v : Json}

section Integers

theorem isPlain_of_isDigit (h : c.isDigit) : IsPlain c := by
  have hne {d : Char} (hd : d.isDigit = false) : c ≠ d := by
    rintro rfl
    rw [h] at hd
    cases hd
  constructor
  · simp [isSpace, hne (d := ' ') rfl, hne (d := '\t') rfl, hne (d := '\n') rfl,
      hne (d := '\r') rfl]
  · simp [isDelimiter, hne (d := '[') rfl, hne (d := ']') rfl, hne (d := '\x7b') rfl,
      hne (d := '\x7d') rfl, hne (d := ',') rfl, hne (d := ':') rfl]
  · exact hne rfl

theorem isDigit_toDigits (n : Nat) : ∀ c ∈ Nat.toDigits 10 n, c.isDigit :=
  fun _ hc => Nat.isDigit_of_mem_toDigits (by decide) (by decide) hc

theorem isPlain_ofInt (n : Int) : ∀ c ∈ Decimal.ofInt n, IsPlain c := by
  cases n with
  | ofNat n => exact fun c hc => isPlain_of_isDigit (isDigit_toDigits n c hc)
  | negSucc n =>
      refine List.forall_mem_cons.2 ⟨⟨rfl, rfl, by decide⟩, fun c hc => ?_⟩
      exact isPlain_of_isDigit (isDigit_toDigits (n + 1) c hc)

theorem ofInt_ne_nil (n : Int) : Decimal.ofInt n ≠ [] := by
  cases n with
  | ofNat n => exact Nat.toDigits_ne_nil
  | negSucc n => exact List.cons_ne_nil _ _

theorem digitChar_ne_zero {n : Nat} (h : n < 10) (hn : 0 < n) : n.digitChar ≠ '0' := by
  revert n
  decide

theorem head_toDigits {n : Nat} (h : 0 < n) : (Nat.toDigits 10 n).head? ≠ some '0' := by
  induction n using Nat.strongRecOn with
  | ind n ih =>
      by_cases hn : n < 10
      · rw [Nat.toDigits_of_lt_base hn]
        exact fun h0 => digitChar_ne_zero hn h (Option.some.inj h0)
      · rw [Nat.toDigits_of_base_le (by decide) (by omega),
          List.head?_append_of_ne_nil _ Nat.toDigits_ne_nil]
        exact ih (n / 10) (by omega) (by omega)

theorem isPlainDigits_toDigits (n : Nat) : isPlainDigits (Nat.toDigits 10 n) := by
  obtain rfl | hn := Nat.eq_zero_or_pos n
  · rfl
  · unfold isPlainDigits
    split
    · rfl
    · next h => exact absurd (by rw [h]; rfl) (head_toDigits hn)
    · simpa [isDigits] using isDigit_toDigits n

theorem unsigned?_toDigits (negative : Bool) (n : Nat) (h : negative → n ≠ 0) :
    unsigned? negative (Nat.toDigits 10 n) = some (integer (if negative then -n else n)) := by
  have hwhole : (Nat.toDigits 10 n).takeWhile Char.isDigit = Nat.toDigits 10 n :=
    List.takeWhile_eq_self_iff.2 (isDigit_toDigits n)
  have hrest : (Nat.toDigits 10 n).dropWhile Char.isDigit = [] :=
    List.dropWhile_eq_nil_iff.2 (isDigit_toDigits n)
  simpa [unsigned?, hwhole, hrest, isPlainDigits_toDigits, Nat.ofDigitChars_ten_toDigits] using h

theorem bareValue?_of_isDigit {cs : List Char} (h : c.isDigit) :
    bareValue? (c :: cs) = unsigned? false (c :: cs) := by
  unfold bareValue?
  split
  · next heq => cases heq; exact absurd h (by decide)
  · next heq => cases heq; exact absurd h (by decide)
  · next heq => cases heq; exact absurd h (by decide)
  · next heq => cases heq; exact absurd h (by decide)
  · rfl

theorem bareValue?_ofInt (n : Int) : bareValue? (Decimal.ofInt n) = some (integer n) := by
  cases n with
  | ofNat n =>
      obtain ⟨c, cs, hcs⟩ := List.exists_cons_of_ne_nil (Nat.toDigits_ne_nil (n := n) (b := 10))
      have hc : c.isDigit := isDigit_toDigits n c (hcs ▸ List.mem_cons_self)
      rw [Decimal.ofInt, hcs, bareValue?_of_isDigit hc, ← hcs, unsigned?_toDigits false n (by simp)]
      rfl
  | negSucc n =>
      have h := unsigned?_toDigits true (n + 1) fun _ => Nat.succ_ne_zero n
      exact h

end Integers

namespace Build

variable {b : Build} {cs closing : List Char}

def read? (b : Build) (cs : List Char) : Option Json := do
  (← (← Cut.tokens? .gap cs).foldlM step b).finish

theorem read?_of_tokens? {t : Token} (h : Cut.tokens? .gap cs = (Cut.tokens? .gap rest).map (t :: ·))
    (b : Build) : b.read? cs = (b.step t).bind (·.read? rest) := by
  rw [read?, h]
  cases hrest : Cut.tokens? .gap rest with
  | none => cases hstep : b.step t <;> simp [read?, hrest]
  | some ts => cases hstep : b.step t <;> simp [read?, hrest, hstep]

theorem read?_space (h : isSpace c) (b : Build) (cs : List Char) : b.read? (c :: cs) = b.read? cs := by
  rw [read?, Cut.tokens?_space h, read?]

theorem read?_delimiter (h : isDelimiter c) (b : Build) (cs : List Char) :
    b.read? (c :: cs) = (b.step (delimiter c)).bind (·.read? cs) :=
  read?_of_tokens? (Cut.tokens?_delimiter h cs) b

theorem read?_newlineOnto (level : Nat) (b : Build) (cs : List Char) :
    b.read? (newlineOnto level cs) = b.read? cs := by
  have hspaces (n : Nat) : b.read? (List.replicate n ' ' ++ cs) = b.read? cs := by
    induction n with
    | zero => rfl
    | succ n ih => rw [List.replicate_succ, List.cons_append, read?_space rfl, ih]
  rw [newlineOnto, read?_space rfl, hspaces]

def Ready (b : Build) : Prop := b.expected = .value ∨ b.expected = .itemOrClose

end Build

/-- What `write` puts in front of a text is read as the value `v`, wherever a value may come. -/
def Writes (v : Json) (write : List Char → List Char) : Prop :=
  ∀ (b : Build) (rest : List Char), b.Ready → Ends rest →
    b.read? (write rest) = Build.read? ⟨b.contexts, .after v⟩ rest

theorem writes_word (word : List Char) (hne : word ≠ []) (hword : ∀ c ∈ word, IsPlain c)
    (hv : bareValue? word = some v) : Writes v (word ++ ·) := by
  intro b rest hb hends
  rw [Build.read?_of_tokens? (Cut.tokens?_word hne hword hends hv)]
  obtain ⟨contexts, _⟩ := b
  obtain rfl | rfl := hb <;> rfl

theorem writes_string (s : String) : Writes (string s) (quoteOnto s) := by
  intro b rest hb _
  rw [Build.read?_of_tokens? (Cut.tokens?_quoteOnto s rest)]
  obtain ⟨contexts, _⟩ := b
  obtain rfl | rfl := hb <;> rfl

theorem Writes.space {write : List Char → List Char} (h : Writes v write) :
    Writes v (fun rest => ' ' :: write rest) := by
  intro b rest hb hends
  rw [Build.read?_space rfl]
  exact h b rest hb hends

theorem Writes.newline {write : List Char → List Char} (h : Writes v write) (level : Nat) :
    Writes v (fun rest => newlineOnto level (write rest)) := by
  intro b rest hb hends
  rw [Build.read?_newlineOnto]
  exact h b rest hb hends

/-- What `write` puts in front of a text is read as a member, wherever a key may come behind the
members `before`. -/
def WritesMember (m : String × Json) (write : List Char → List Char) : Prop :=
  ∀ (contexts : List Context) (before : List (String × Json)) (e : Expected) (rest : List Char),
    e = .key before ∨ e = .keyOrClose ∧ before = [] → Ends rest →
      Build.read? ⟨contexts, e⟩ (write rest) =
        Build.read? ⟨.member before m.1 :: contexts, .after m.2⟩ rest

theorem Writes.member {write : List Char → List Char} (h : Writes v write) (k : String) :
    WritesMember (k, v) (fun rest => quoteOnto k (':' :: write rest)) := by
  intro contexts before e rest he hends
  have hkey : Build.step ⟨contexts, e⟩ (.scalar (.string k)) = some ⟨contexts, .colon before k⟩ := by
    obtain rfl | ⟨rfl, rfl⟩ := he <;> rfl
  rw [Build.read?_of_tokens? (Cut.tokens?_quoteOnto k _), hkey, Option.bind_some,
    Build.read?_delimiter rfl]
  exact h ⟨.member before k :: contexts, .value⟩ rest (.inl rfl) hends

theorem WritesMember.newline {m : String × Json} {write : List Char → List Char}
    (h : WritesMember m write) (level : Nat) :
    WritesMember m (fun rest => newlineOnto level (write rest)) := by
  intro contexts before e rest he hends
  rw [Build.read?_newlineOnto]
  exact h contexts before e rest he hends

section Sequences

variable {rest closing : List Char}

theorem read?_items {write : Json → List Char → List Char}
    {writeItems : List Json → List Char → List Char}
    (hlast : ∀ v rest, writeItems [v] rest = write v rest)
    (hmore : ∀ v w vs rest,
      writeItems (v :: w :: vs) rest = write v (',' :: writeItems (w :: vs) rest))
    (hends : Ends closing) (hclosing : ∀ b : Build, b.read? closing = b.read? (']' :: rest))
    (contexts : List Context) {v : Json} {vs : List Json} (h : ∀ w ∈ v :: vs, Writes w (write w))
    (before : List Json) {e : Expected} (he : e = .value ∨ e = .itemOrClose) :
    Build.read? ⟨.item before :: contexts, e⟩ (writeItems (v :: vs) closing) =
      Build.read? ⟨contexts, .after (array (before.reverse ++ v :: vs))⟩ rest := by
  induction vs generalizing v before e with
  | nil =>
      rw [hlast, h v List.mem_cons_self ⟨.item before :: contexts, e⟩ closing he hends, hclosing,
        Build.read?_delimiter rfl]
      change Build.read? ⟨contexts, .after (array (v :: before).reverse)⟩ rest = _
      rw [List.reverse_cons]
  | cons w vs ih =>
      obtain ⟨hv, hvs⟩ := List.forall_mem_cons.1 h
      have hcomma : Ends (',' :: writeItems (w :: vs) closing) := ends_delimiter rfl _
      rw [hmore, hv ⟨.item before :: contexts, e⟩ _ he hcomma, Build.read?_delimiter rfl]
      refine (ih hvs (v :: before) (.inl rfl)).trans ?_
      rw [List.reverse_cons, List.append_assoc]
      rfl

theorem read?_members {write : String × Json → List Char → List Char}
    {writeMembers : List (String × Json) → List Char → List Char}
    (hlast : ∀ m rest, writeMembers [m] rest = write m rest)
    (hmore : ∀ m n ms rest,
      writeMembers (m :: n :: ms) rest = write m (',' :: writeMembers (n :: ms) rest))
    (hends : Ends closing) (hclosing : ∀ b : Build, b.read? closing = b.read? ('\x7d' :: rest))
    (contexts : List Context) {m : String × Json} {ms : List (String × Json)}
    (h : ∀ n ∈ m :: ms, WritesMember n (write n)) (before : List (String × Json)) {e : Expected}
    (he : e = .key before ∨ e = .keyOrClose ∧ before = []) :
    Build.read? ⟨contexts, e⟩ (writeMembers (m :: ms) closing) =
      Build.read? ⟨contexts, .after (object (before.reverse ++ m :: ms))⟩ rest := by
  induction ms generalizing m before e with
  | nil =>
      rw [hlast, h m List.mem_cons_self contexts before e closing he hends, hclosing,
        Build.read?_delimiter rfl]
      change Build.read? ⟨contexts, .after (object (m :: before).reverse)⟩ rest = _
      rw [List.reverse_cons]
  | cons n ms ih =>
      obtain ⟨hm, hms⟩ := List.forall_mem_cons.1 h
      have hcomma : Ends (',' :: writeMembers (n :: ms) closing) := ends_delimiter rfl _
      rw [hmore, hm contexts before e _ he hcomma, Build.read?_delimiter rfl]
      refine (ih hms (m :: before) (.inl rfl)).trans ?_
      rw [List.reverse_cons, List.append_assoc]
      rfl

end Sequences

/-- All numerals in the value are integers. -/
inductive Whole : Json → Prop
  | null : Whole null
  | boolean (b : Bool) : Whole (boolean b)
  | integer (n : Int) : Whole (integer n)
  | string (s : String) : Whole (string s)
  | array {items : List Json} (h : ∀ v ∈ items, Whole v) : Whole (array items)
  | object {members : List (String × Json)} (h : ∀ m ∈ members, Whole m.2) : Whole (object members)

theorem isPlain_of_all {word : List Char} (h : word.all (IsPlain ·)) : ∀ c ∈ word, IsPlain c :=
  fun c hc => of_decide_eq_true (List.all_eq_true.1 h c hc)

theorem writes_null : Writes null (scalarOnto null) :=
  writes_word ['n', 'u', 'l', 'l'] (by decide) (isPlain_of_all rfl) rfl

theorem writes_boolean (b : Bool) : Writes (boolean b) (scalarOnto (boolean b)) := by
  cases b with
  | true => exact writes_word ['t', 'r', 'u', 'e'] (by decide) (isPlain_of_all rfl) rfl
  | false => exact writes_word ['f', 'a', 'l', 's', 'e'] (by decide) (isPlain_of_all rfl) rfl

theorem writes_integer (n : Int) : Writes (integer n) (scalarOnto (integer n)) :=
  writes_word _ (ofInt_ne_nil n) (isPlain_ofInt n) (bareValue?_ofInt n)

theorem writes_array {items : List Json} {body : List Char → List Char}
    (h : ∀ contexts rest, Build.read? ⟨.item [] :: contexts, .itemOrClose⟩ (body rest) =
      Build.read? ⟨contexts, .after (array items)⟩ rest) :
    Writes (array items) (fun rest => '[' :: body rest) := by
  intro b rest hb _
  rw [Build.read?_delimiter rfl]
  obtain ⟨contexts, _⟩ := b
  obtain rfl | rfl := hb <;> exact h contexts rest

theorem writes_object {members : List (String × Json)} {body : List Char → List Char}
    (h : ∀ contexts rest, Build.read? ⟨contexts, .keyOrClose⟩ (body rest) =
      Build.read? ⟨contexts, .after (object members)⟩ rest) :
    Writes (object members) (fun rest => '\x7b' :: body rest) := by
  intro b rest hb _
  rw [Build.read?_delimiter rfl]
  obtain ⟨contexts, _⟩ := b
  obtain rfl | rfl := hb <;> exact h contexts rest

theorem compactItems_cons_cons (v w : Json) (vs : List Json) (rest : List Char) :
    compactItems (v :: w :: vs) rest = compactOnto v (',' :: compactItems (w :: vs) rest) := by
  rw [compactItems]
  exact List.cons_ne_nil w vs

theorem compactMembers_cons_cons (m n : String × Json) (ms : List (String × Json))
    (rest : List Char) :
    compactMembers (m :: n :: ms) rest =
      quoteOnto m.1 (':' :: compactOnto m.2 (',' :: compactMembers (n :: ms) rest)) := by
  rw [compactMembers]
  exact List.cons_ne_nil n ms

theorem prettyItems_cons_cons (level : Nat) (v w : Json) (vs : List Json) (rest : List Char) :
    prettyItems level (v :: w :: vs) rest =
      newlineOnto level (prettyOnto level v (',' :: prettyItems level (w :: vs) rest)) := by
  rw [prettyItems]
  exact List.cons_ne_nil w vs

theorem prettyMembers_cons_cons (level : Nat) (m n : String × Json) (ms : List (String × Json))
    (rest : List Char) :
    prettyMembers level (m :: n :: ms) rest =
      newlineOnto level (quoteOnto m.1
        (':' :: ' ' :: prettyOnto level m.2 (',' :: prettyMembers level (n :: ms) rest))) := by
  rw [prettyMembers]
  exact List.cons_ne_nil n ms

theorem Whole.writes_compact (h : Whole v) : Writes v v.compactOnto := by
  induction h with
  | null => exact writes_null
  | boolean b => exact writes_boolean b
  | integer n => exact writes_integer n
  | string s => exact writes_string s
  | @array items h ih =>
      cases items with
      | nil => exact writes_array fun contexts rest => Build.read?_delimiter rfl _ _
      | cons v vs =>
          refine writes_array fun contexts rest => ?_
          exact read?_items (fun _ _ => rfl) compactItems_cons_cons (ends_delimiter rfl rest)
            (fun _ => rfl) contexts ih [] (.inr rfl)
  | @object members h ih =>
      cases members with
      | nil => exact writes_object fun contexts rest => Build.read?_delimiter rfl _ _
      | cons m ms =>
          refine writes_object fun contexts rest => ?_
          exact read?_members (fun _ _ => rfl) compactMembers_cons_cons (ends_delimiter rfl rest)
            (fun _ => rfl) contexts (fun m hm => (ih m hm).member m.1) [] (.inr ⟨rfl, rfl⟩)

theorem Whole.writes_pretty (h : Whole v) (level : Nat) : Writes v (v.prettyOnto level) := by
  induction h generalizing level with
  | null => exact writes_null
  | boolean b => exact writes_boolean b
  | integer n => exact writes_integer n
  | string s => exact writes_string s
  | @array items h ih =>
      cases items with
      | nil => exact writes_array fun contexts rest => Build.read?_delimiter rfl _ _
      | cons v vs =>
          refine writes_array fun contexts rest => ?_
          exact read?_items (fun _ _ => rfl) (prettyItems_cons_cons (level + 1))
            (ends_newlineOnto level _) (fun b => Build.read?_newlineOnto level b _) contexts
            (fun w hw => (ih w hw (level + 1)).newline (level + 1)) [] (.inr rfl)
  | @object members h ih =>
      cases members with
      | nil => exact writes_object fun contexts rest => Build.read?_delimiter rfl _ _
      | cons m ms =>
          refine writes_object fun contexts rest => ?_
          exact read?_members (fun _ _ => rfl) (prettyMembers_cons_cons (level + 1))
            (ends_newlineOnto level _) (fun b => Build.read?_newlineOnto level b _) contexts
            (fun m hm => ((ih m hm (level + 1)).space.member m.1).newline (level + 1)) []
            (.inr ⟨rfl, rfl⟩)

theorem Writes.read?_ofList {write : List Char → List Char} (h : Writes v write) :
    Json.read? (String.ofList (write [])) = some v := by
  have hread := h {} [] (.inl rfl) nofun
  rw [Json.read?, String.toList_ofList]
  exact hread

theorem Whole.read?_text (h : Whole v) : read? v.text = some v := h.writes_compact.read?_ofList

theorem Whole.read?_prettyText (h : Whole v) : read? v.prettyText = some v :=
  (h.writes_pretty 0).read?_ofList

theorem read?_newline {source : String} (h : read? source = some v) :
    read? (source ++ "\n") = some v := by
  obtain ⟨ts, hts, hv⟩ := Option.bind_eq_some_iff.1 h
  rw [read?, String.toList_append]
  exact Option.bind_eq_some_iff.2 ⟨ts, Cut.tokens?_append_space rfl hts, hv⟩

end SmallLisp.Json
