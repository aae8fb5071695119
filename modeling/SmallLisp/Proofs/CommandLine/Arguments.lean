import Mathlib.Data.List.Basic
import SmallLisp.CommandLine.Options
import SmallLisp.Proofs.Reader.Rendering

namespace SmallLisp

namespace Switch

def long (s : Switch) : String := "--" ++ s.longName

theorem toList_long (s : Switch) : s.long.toList = '-' :: '-' :: s.longName.toList :=
  String.toList_append

theorem longName_ne_nil (s : Switch) : s.longName.toList ≠ [] := by
  cases s <;> decide

end Switch

namespace Usage

variable {s : Switch} {arg v : String} {c : Char} {cs : List Char} {us : List Usage}

theorem ofLong_flag (h : ¬ s.takesValue) : ofLong s.longName.toList = ([flag s], none) := by
  cases s with
  | noPrelude | dumpAst | verbose | help => rfl
  | input | string | file | config | maxRecursionDepth => exact absurd rfl h

theorem ofLong_longName (h : s.takesValue) : ofLong s.longName.toList = ([], some s) := by
  cases s with
  | input | string | file | config | maxRecursionDepth => rfl
  | noPrelude | dumpAst | verbose | help => cases h

theorem ofLong_longName_append (h : s.takesValue) (v : List Char) :
    ofLong (s.longName.toList ++ '=' :: v) = ([valued s (String.ofList v)], none) := by
  cases s with
  | input | string | file | config | maxRecursionDepth => rfl
  | noPrelude | dumpAst | verbose | help => cases h

theorem ne_dashes (harg : arg.toList = '-' :: '-' :: cs) (hcs : cs ≠ []) : arg ≠ "--" := by
  rintro rfl
  exact hcs (by simpa using harg.symm)

theorem ofArguments_of_ofLong (harg : arg.toList = '-' :: '-' :: cs) (hcs : cs ≠ [])
    (h : ofLong cs = (us, none)) (rest : List String) :
    ofArguments (arg :: rest) = us ++ ofArguments rest := by
  have hne : ¬ cs.isEmpty := List.isEmpty_iff.not.2 hcs
  simp only [ofArguments, harg, if_neg hne, h, if_neg (ne_dashes harg hcs)]

theorem ofArguments_flag (h : ¬ s.takesValue) (rest : List String) :
    ofArguments (s.long :: rest) = flag s :: ofArguments rest :=
  ofArguments_of_ofLong s.toList_long s.longName_ne_nil (ofLong_flag h) rest

theorem ofArguments_long (h : s.takesValue) (hv : isValue v) (rest : List String) :
    ofArguments (s.long :: v :: rest) = valued s v :: ofArguments rest := by
  have hne : ¬ s.longName.toList.isEmpty := List.isEmpty_iff.not.2 s.longName_ne_nil
  simp only [ofArguments, s.toList_long, if_neg hne, ofLong_longName h, if_pos hv, List.nil_append]

theorem ofArguments_long_append (h : s.takesValue) (v : String) (rest : List String) :
    ofArguments ((s.long ++ "=" ++ v) :: rest) = valued s v :: ofArguments rest := by
  have harg : (s.long ++ "=" ++ v).toList =
      '-' :: '-' :: (s.longName.toList ++ '=' :: v.toList) := by
    rw [String.toList_append, String.toList_append, s.toList_long, List.append_assoc]
    rfl
  have hcs : s.longName.toList ++ '=' :: v.toList ≠ [] := by simp
  rw [ofArguments_of_ofLong harg hcs (ofLong_longName_append h v.toList), String.ofList_toList]
  rfl

theorem ofArguments_input (hv : isValue v) (rest : List String) :
    ofArguments ("--input" :: v :: rest) = valued .input v :: ofArguments rest := by
  rw [show "--input" = Switch.input.long by decide, ofArguments_long rfl hv]

/-- What is made of letters behind one dash, with the words after them. -/
def ofLettersThen (cs : List Char) (rest : List String) : List Usage :=
  match ofLetters cs with
  | (us, none) => us ++ ofArguments rest
  | (us, some s) =>
      match rest with
      | [] => us ++ [misuse]
      | v :: rest => us ++ (if isValue v then valued s v :: ofArguments rest else [misuse])

theorem ofArguments_letters (harg : arg.toList = '-' :: c :: cs) (hc : c ≠ '-')
    (rest : List String) : ofArguments (arg :: rest) = ofLettersThen (c :: cs) rest := by
  have hne : arg ≠ "--" := by
    rintro rfl
    cases harg
    exact hc rfl
  rcases h : ofLetters (c :: cs) with ⟨us, needing⟩
  rw [ofArguments, harg, ofLettersThen, h]
  split
  next hmatch =>
    split at hmatch
    · next he =>
        cases he
        exact absurd rfl hc
    · next he =>
        cases he
        cases h.symm.trans hmatch
        cases needing with
        | none => exact if_neg hne
        | some s => rfl
    · next he => exact (he c cs rfl).elim

theorem ofLettersThen_verbose (cs : List Char) (rest : List String) :
    ofLettersThen ('v' :: cs) rest = flag .verbose :: ofLettersThen cs rest := by
  have h : ofLetters ('v' :: cs) = (flag .verbose :: (ofLetters cs).1, (ofLetters cs).2) := rfl
  rw [ofLettersThen, ofLettersThen, h]
  rcases ofLetters cs with ⟨us, _ | s⟩
  · rfl
  · cases rest <;> rfl

theorem ofLettersThen_config (hv : isValue v) (rest : List String) :
    ofLettersThen ['c'] (v :: rest) = valued .config v :: ofArguments rest := by
  change [] ++ (if isValue v then _ else _) = _
  rw [if_pos hv]
  rfl

theorem ofLettersThen_config_equals (v : String) (rest : List String) :
    ofLettersThen ('c' :: '=' :: v.toList) rest = valued .config v :: ofArguments rest := by
  have h : ofLetters ('c' :: '=' :: v.toList) =
      ([valued .config (String.ofList v.toList)], none) := rfl
  rw [ofLettersThen, h, String.ofList_toList]
  rfl

theorem ofLettersThen_config_append (hne : v ≠ "") (hv : v.toList.head? ≠ some '=')
    (rest : List String) :
    ofLettersThen ('c' :: v.toList) rest = valued .config v :: ofArguments rest := by
  have h : ofLetters ('c' :: v.toList) = ([valued .config (String.ofList v.toList)], none) := by
    cases hcs : v.toList with
    | nil => exact absurd (String.toList_eq_nil_iff.1 hcs) hne
    | cons c cs =>
        have hc : c ≠ '=' := by simpa [hcs] using hv
        have hletter : Switch.ofLetter? 'c' = some .config := by decide
        have htakes : Switch.config.takesValue := rfl
        rw [ofLetters, hletter]
        dsimp only
        rw [if_pos htakes]
        -- the value is not empty and begins with no equals sign, so it is taken as it stands
        split
        · next h => cases h
        · next h => cases h; exact absurd rfl hc
        · rfl
  rw [ofLettersThen, h, String.ofList_toList]
  rfl

end Usage

namespace Options

variable {o o' : Options} {s : Switch} {v : String} {ds : List Char}

theorem add_flag (hs : s ∉ o.given) (h : { o with given := s :: o.given }.setFlag s = .ok o') :
    o.add (.flag s) = .ok o' := by
  rw [add, give, if_neg hs]
  exact h

theorem add_valued (hs : s ∉ o.given)
    (h : { o with given := s :: o.given }.setValue? v s = some o') :
    o.add (.valued s v) = .ok o' := by
  have hgive : o.give s = .ok { o with given := s :: o.given } := if_neg hs
  simp only [add, hgive, bind, Except.bind, h]
  rfl

theorem foldlM_input {s : InputSource} (ho : .input ∉ o.given) (hs : InputSource.ofName? v = some s)
    (us : List Usage) :
    (Usage.valued .input v :: us).foldlM add o =
      us.foldlM add { o with given := .input :: o.given, input := s } := by
  rw [List.foldlM_cons, add_valued ho (by rw [setValue?, hs]; rfl)]
  rfl

theorem depth?_eq (hds : IsDigits ds) (hv : v.toList = ds ∨ v.toList = '+' :: ds)
    (hlt : Nat.ofDigitChars 10 ds 0 < UInt64.size) : depth? v = some (Nat.ofDigitChars 10 ds 0) := by
  have hn : Decimal.toNat? ds = some (Nat.ofDigitChars 10 ds 0) := toNat?_of_isDigits hds
  obtain hv | hv := hv
  · rw [depth?, hv]
    split
    · exact absurd (hds.2 '+' List.mem_cons_self) (by decide)
    · rw [hn]
      exact if_pos hlt
  · rw [depth?, hv]
    change (Decimal.toNat? ds).bind _ = _
    rw [hn]
    exact if_pos hlt

theorem isValue_depth (hds : IsDigits ds) (hv : v.toList = ds ∨ v.toList = '+' :: ds) :
    Usage.isValue v := by
  obtain ⟨d, ds, rfl⟩ := List.exists_cons_of_ne_nil hds.1
  have hd : d ≠ '-' := fun h => absurd (hds.2 d List.mem_cons_self) (h ▸ by decide)
  obtain hv | hv := hv <;> simp [Usage.isValue, hv, hd]

end Options

/-- What the options of a command line ask for, beside what is read. -/
structure Wishes where
  config : Option String := none
  noPrelude : Bool := false
  maxRecursionDepth : Option Nat := none
  dumpAst : Bool := false
  verbose : Bool := false

namespace Wishes

inductive ConfigWords (path : String) : List String → Prop
  | long (h : path = "-" ∨ path.toList.head? ≠ some '-') : ConfigWords path ["--config", path]
  | longEquals : ConfigWords path ["--config=" ++ path]
  | letter (h : path = "-" ∨ path.toList.head? ≠ some '-') : ConfigWords path ["-c", path]
  | letterEquals : ConfigWords path ["-c=" ++ path]
  | letterJoined (h : path.toList.head? ≠ some '=') : ConfigWords path ["-c" ++ path]

/-- The words that ask for one thing more. -/
inductive Adds : List String → Wishes → Wishes → Prop
  | noPrelude {w : Wishes} (hw : w.noPrelude = false) :
      Adds ["--no-prelude"] w { w with noPrelude := true }
  | dumpAst {w : Wishes} (hw : w.dumpAst = false) : Adds ["--dump-ast"] w { w with dumpAst := true }
  | verbose {w : Wishes} (hw : w.verbose = false) : Adds ["--verbose"] w { w with verbose := true }
  | verboseLetter {w : Wishes} (hw : w.verbose = false) : Adds ["-v"] w { w with verbose := true }
  | config {words : List String} {w : Wishes} {path : String} (hw : w.config = none)
      (hpath : path ≠ "") (hwords : ConfigWords path words) : Adds words w { w with config := some path }
  | letters {words : List String} {w w' : Wishes} {text : String}
      (h : Adds (("-c" ++ text) :: words) w w') (hw : w'.verbose = false) :
      Adds (("-vc" ++ text) :: words) w { w' with verbose := true }
  | maxRecursionDepth {w : Wishes} {v : String} {ds : List Char} (hw : w.maxRecursionDepth = none)
      (hds : IsDigits ds) (hv : v.toList = ds ∨ v.toList = '+' :: ds)
      (hlt : Nat.ofDigitChars 10 ds 0 < UInt64.size) :
      Adds ["--max-recursion-depth", v] w
        { w with maxRecursionDepth := some (Nat.ofDigitChars 10 ds 0) }
  | maxRecursionDepthEquals {w : Wishes} {v : String} {ds : List Char}
      (hw : w.maxRecursionDepth = none) (hds : IsDigits ds)
      (hv : v.toList = ds ∨ v.toList = '+' :: ds) (hlt : Nat.ofDigitChars 10 ds 0 < UInt64.size) :
      Adds ["--max-recursion-depth=" ++ v] w
        { w with maxRecursionDepth := some (Nat.ofDigitChars 10 ds 0) }

/-- The command lines without an option that says what is read, and what they ask for. Each option
is given once at most. -/
inductive Words : List String → Wishes → Prop
  | nil : Words [] {}
  | dashes : Words ["--"] {}
  | cons {args words : List String} {w w' : Wishes} (h : Words args w) (hadds : Adds words w w') :
      Words (words ++ args) w'

/-- The words before and behind those that say what is read. -/
inductive Around : List String → List String → Wishes → Prop
  | behind {after : List String} {w : Wishes} (h : Words after w) : Around [] after w
  | cons {before after words : List String} {w w' : Wishes} (h : Around before after w)
      (hadds : Adds words w w') : Around (words ++ before) after w'

inductive InputWords : List String → Input → Prop
  | string (source : String) :
      InputWords ["--input", "string", "--string=" ++ source] ⟨.string, none, some source⟩
  | file {path : String} (hpath : path ≠ "") :
      InputWords ["--input", "file", "--file=" ++ path] ⟨.file, some path, none⟩
  | pipe : InputWords ["--input", "pipe"] ⟨.pipe, none, none⟩

def asks (w : Wishes) (i? : Option Input) : Switch → Bool
  | .config => w.config.isSome
  | .noPrelude => w.noPrelude
  | .maxRecursionDepth => w.maxRecursionDepth.isSome
  | .dumpAst => w.dumpAst
  | .verbose => w.verbose
  | .input | .string | .file => i?.isSome
  | .help => false

def added (w : Wishes) (i? : Option Input) (o : Options) : Options :=
  { o with
    input := i?.elim o.input Input.source
    string := (i?.bind Input.string).or o.string
    file := (i?.bind Input.file).or o.file
    config := w.config.or o.config
    noPrelude := w.noPrelude || o.noPrelude
    maxRecursionDepth := w.maxRecursionDepth.or o.maxRecursionDepth
    dumpAst := w.dumpAst || o.dumpAst
    verbose := w.verbose || o.verbose }

def options (w : Wishes) (i : Input) : Options where
  input := i.source
  string := i.string
  file := i.file
  config := w.config
  noPrelude := w.noPrelude
  maxRecursionDepth := w.maxRecursionDepth
  dumpAst := w.dumpAst
  verbose := w.verbose

/-- The uses ask for what is wished, and read, whatever else was asked for before. -/
def AskedBy (w : Wishes) (i? : Option Input) (us : List Usage) : Prop :=
  ∀ o : Options, (∀ s, w.asks i? s → s ∉ o.given) →
    ∃ given, us.foldlM Options.add o = .ok { w.added i? o with given }

variable {w w' : Wishes} {i? : Option Input} {us : List Usage}

theorem askedBy_nil : AskedBy {} none [] := fun o _ => ⟨o.given, rfl⟩

theorem AskedBy.cons (h : w.AskedBy i? us) {u : Usage} {s : Switch} (hs : ¬ w.asks i? s)
    (hasks : ∀ t, w'.asks i? t = (decide (t = s) || w.asks i? t))
    (hadd : ∀ o : Options, s ∉ o.given → ∃ o', o.add u = .ok o' ∧ o'.given = s :: o.given ∧
      ∀ given, { w.added i? o' with given } = { w'.added i? o with given }) :
    w'.AskedBy i? (u :: us) := by
  intro o ho
  obtain ⟨o', hu, hgiven, heq⟩ := hadd o (ho s (by simp [hasks]))
  obtain ⟨given, hus⟩ := h o' fun t ht => by
    rw [hgiven, List.mem_cons, not_or]
    exact ⟨fun he => hs (he ▸ ht), ho t (by simp [hasks, ht])⟩
  refine ⟨given, ?_⟩
  rw [List.foldlM_cons, hu, ← heq given]
  exact hus

theorem AskedBy.config {path : String} (h : w.AskedBy i? us) (hw : w.config = none)
    (hpath : path ≠ "") :
    AskedBy { w with config := some path } i? (.valued .config path :: us) := by
  have hvalue : Options.path? path = some path := if_neg (String.isEmpty_iff.not.2 hpath)
  refine h.cons (s := .config) (by simp [asks, hw]) (fun t => by cases t <;> simp [asks, hw]) ?_
  exact fun o ho => ⟨_, Options.add_valued ho (by rw [Options.setValue?, hvalue]; rfl), rfl,
    fun _ => by simp [added, hw]⟩

theorem AskedBy.maxRecursionDepth {v : String} {ds : List Char} (h : w.AskedBy i? us)
    (hw : w.maxRecursionDepth = none) (hds : IsDigits ds)
    (hv : v.toList = ds ∨ v.toList = '+' :: ds) (hlt : Nat.ofDigitChars 10 ds 0 < UInt64.size) :
    AskedBy { w with maxRecursionDepth := some (Nat.ofDigitChars 10 ds 0) } i?
      (.valued .maxRecursionDepth v :: us) := by
  have hvalue : Options.depth? v = some (Nat.ofDigitChars 10 ds 0) := Options.depth?_eq hds hv hlt
  refine h.cons (s := .maxRecursionDepth) (by simp [asks, hw])
    (fun t => by cases t <;> simp [asks, hw]) ?_
  exact fun o ho => ⟨_, Options.add_valued ho (by rw [Options.setValue?, hvalue]; rfl), rfl,
    fun _ => by simp [added, hw]⟩

theorem AskedBy.verbose (h : w.AskedBy i? us) (hw : w.verbose = false) :
    AskedBy { w with verbose := true } i? (.flag .verbose :: us) := by
  refine h.cons (s := .verbose) (by simp [asks, hw]) (fun t => by cases t <;> simp [asks, hw]) ?_
  exact fun o ho => ⟨_, Options.add_flag ho rfl, rfl, fun _ => by simp [added, hw]⟩

theorem ConfigWords.ofArguments {path : String} {words : List String} (h : ConfigWords path words)
    (hpath : path ≠ "") (rest : List String) :
    Usage.ofArguments (words ++ rest) = .valued .config path :: Usage.ofArguments rest := by
  have hvalue (h : path = "-" ∨ path.toList.head? ≠ some '-') : Usage.isValue path := by
    simpa [Usage.isValue] using h
  cases h with
  | long h => exact Usage.ofArguments_long (s := .config) rfl (hvalue h) rest
  | longEquals => exact Usage.ofArguments_long_append (s := .config) rfl path rest
  | letter h =>
      rw [List.cons_append, Usage.ofArguments_letters rfl (by decide)]
      exact Usage.ofLettersThen_config (hvalue h) rest
  | letterEquals =>
      rw [List.cons_append, Usage.ofArguments_letters String.toList_append (by decide)]
      exact Usage.ofLettersThen_config_equals path rest
  | letterJoined h =>
      rw [List.cons_append, Usage.ofArguments_letters String.toList_append (by decide)]
      exact Usage.ofLettersThen_config_append hpath h rest

theorem Adds.askedBy {words rest : List String} (hadds : Adds words w w')
    (h : w.AskedBy i? (Usage.ofArguments rest)) :
    w'.AskedBy i? (Usage.ofArguments (words ++ rest)) := by
  -- by induction, since a letter may stand in front of the words of another option
  induction hadds with
  | noPrelude hw =>
      rw [show "--no-prelude" = Switch.noPrelude.long by decide, List.singleton_append,
        Usage.ofArguments_flag (by decide)]
      refine h.cons (s := .noPrelude) (by simp [asks, hw])
        (fun t => by cases t <;> simp [asks, hw]) ?_
      exact fun o ho => ⟨_, Options.add_flag ho rfl, rfl, fun _ => by simp [added, hw]⟩
  | dumpAst hw =>
      rw [show "--dump-ast" = Switch.dumpAst.long by decide, List.singleton_append,
        Usage.ofArguments_flag (by decide)]
      refine h.cons (s := .dumpAst) (by simp [asks, hw])
        (fun t => by cases t <;> simp [asks, hw]) ?_
      exact fun o ho => ⟨_, Options.add_flag ho rfl, rfl, fun _ => by simp [added, hw]⟩
  | verbose hw =>
      rw [show "--verbose" = Switch.verbose.long by decide, List.singleton_append,
        Usage.ofArguments_flag (by decide)]
      exact h.verbose hw
  | verboseLetter hw =>
      rw [List.singleton_append, Usage.ofArguments_letters (c := 'v') rfl (by decide),
        Usage.ofLettersThen_verbose]
      exact h.verbose hw
  | config hw hpath hwords =>
      rw [hwords.ofArguments hpath]
      exact h.config hw hpath
  | letters _ hw ih =>
      have ih := ih h
      rw [List.cons_append, Usage.ofArguments_letters String.toList_append (by decide)] at ih ⊢
      exact Usage.ofLettersThen_verbose _ _ ▸ ih.verbose hw
  | maxRecursionDepth hw hds hv hlt =>
      rw [show "--max-recursion-depth" = Switch.maxRecursionDepth.long by decide, List.cons_append,
        List.singleton_append, Usage.ofArguments_long rfl (Options.isValue_depth hds hv)]
      exact h.maxRecursionDepth hw hds hv hlt
  | maxRecursionDepthEquals hw hds hv hlt =>
      rw [show "--max-recursion-depth=" = Switch.maxRecursionDepth.long ++ "=" by decide,
        List.singleton_append, Usage.ofArguments_long_append rfl]
      exact h.maxRecursionDepth hw hds hv hlt

theorem Words.askedBy {args : List String} (h : w.Words args) :
    w.AskedBy none (Usage.ofArguments args) := by
  induction h with
  | nil => exact askedBy_nil
  | dashes => exact askedBy_nil
  | cons _ hadds ih => exact hadds.askedBy ih

theorem AskedBy.input (h : w.AskedBy none us) {i : Input} (uses : List Usage)
    (hadd : ∀ o : Options, .input ∉ o.given → .string ∉ o.given → .file ∉ o.given →
      ∃ o', uses.foldlM Options.add o = .ok o' ∧
        (∀ s ∈ o'.given, s = .input ∨ s = .string ∨ s = .file ∨ s ∈ o.given) ∧
        ∀ given, { w.added none o' with given } = { w.added (some i) o with given }) :
    w.AskedBy (some i) (uses ++ us) := by
  intro o ho
  obtain ⟨o', huses, hgiven, heq⟩ := hadd o (ho .input rfl) (ho .string rfl) (ho .file rfl)
  obtain ⟨given, hus⟩ := h o' fun s hs hmem => by
    -- what is asked for besides is none of the options that say what is read
    rcases hgiven s hmem with rfl | rfl | rfl | hmem
    · cases hs
    · cases hs
    · cases hs
    · refine ho s ?_ hmem
      cases s with
      | input | string | file => rfl
      | config | noPrelude | maxRecursionDepth | dumpAst | verbose | help => exact hs
  refine ⟨given, ?_⟩
  rw [List.foldlM_append, huses, ← heq given]
  exact hus

theorem InputWords.askedBy {words rest : List String} {i : Input} (hwords : InputWords words i)
    (h : w.AskedBy none (Usage.ofArguments rest)) :
    w.AskedBy (some i) (Usage.ofArguments (words ++ rest)) := by
  cases hwords with
  | string source =>
      rw [List.cons_append, List.cons_append, List.singleton_append,
        Usage.ofArguments_input (by decide), show "--string=" = Switch.string.long ++ "=" by decide, Usage.ofArguments_long_append rfl]
      refine h.input [.valued .input "string", .valued .string source] fun o hi hs _ => ?_
      have hs : Switch.string ∉ Switch.input :: o.given := by simpa using hs
      rw [Options.foldlM_input (s := .string) hi rfl, List.foldlM_cons, Options.add_valued hs rfl]
      exact ⟨_, rfl, by simp +contextual, fun _ => by simp [added]⟩
  | @file path hpath =>
      rw [List.cons_append, List.cons_append, List.singleton_append,
        Usage.ofArguments_input (by decide), show "--file=" = Switch.file.long ++ "=" by decide, Usage.ofArguments_long_append rfl]
      refine h.input [.valued .input "file", .valued .file path] fun o hi _ hf => ?_
      have hf : Switch.file ∉ Switch.input :: o.given := by simpa using hf
      have hvalue : Options.path? path = some path := if_neg (String.isEmpty_iff.not.2 hpath)
      rw [Options.foldlM_input (s := .file) hi rfl, List.foldlM_cons,
        Options.add_valued hf (by rw [Options.setValue?, hvalue]; rfl)]
      exact ⟨_, rfl, by simp +contextual, fun _ => by simp [added]⟩
  | pipe =>
      rw [List.cons_append, List.singleton_append, Usage.ofArguments_input (by decide)]
      refine h.input [.valued .input "pipe"] fun o hi _ _ => ?_
      rw [Options.foldlM_input (s := .pipe) hi rfl]
      exact ⟨_, rfl, by simp +contextual, fun _ => by simp [added]⟩

theorem Around.exists_options {before after words : List String} {i : Input}
    (h : w.Around before after) (hwords : InputWords words i) :
    ∃ given, Options.ofArguments (before ++ words ++ after) = .ok { w.options i with given } := by
  have hasked : w.AskedBy (some i) (Usage.ofArguments (before ++ words ++ after)) := by
    rw [List.append_assoc]
    induction h with
    | behind h => exact hwords.askedBy h.askedBy
    | cons _ hadds ih =>
        rw [List.append_assoc]
        exact hadds.askedBy ih
  obtain ⟨given, hus⟩ := hasked {} fun _ _ => List.not_mem_nil
  refine ⟨given, hus.trans (congrArg Except.ok ?_)⟩
  simp [added, options]

end Wishes

end SmallLisp
