import SmallLisp.Proofs.Eval.Frames
import SmallLisp.Session

namespace SmallLisp

abbrev Node.form (head : String) (operands : List Node) : Node := .list (.symbol head :: operands)

/-- A function that a program defines. -/
structure Definition where
  name : String
  params : List String
  body : Node

namespace Definition

def node (d : Definition) : Node :=
  .form "define" [.symbol d.name, .form "lambda" [.list (d.params.map .symbol), d.body]]

def closure (d : Definition) (id : Nat) : Closure := ⟨id, d.params, d.body, Session.root⟩

def bindings (ds : List Definition) (id : Nat) : List (String × Value) :=
  (ds.zipIdx id).map fun p => (p.1.name, .closure (p.1.closure p.2))

theorem bindings_cons (d : Definition) (ds : List Definition) (id : Nat) :
    bindings (d :: ds) id = (d.name, .closure (d.closure id)) :: bindings ds (id + 1) := rfl

end Definition

theorem parameters_symbols {seen ps : List String} (hps : ps.Nodup) (hseen : ∀ p ∈ ps, p ∉ seen) :
    parameters seen (ps.map .symbol) = .ok (seen.reverse ++ ps) := by
  induction ps generalizing seen with
  | nil => rw [List.map_nil, parameters, List.append_nil]
  | cons p ps ih =>
      obtain ⟨hp, hps⟩ := List.nodup_cons.1 hps
      obtain ⟨hseen, hrest⟩ := List.forall_mem_cons.1 hseen
      rw [List.map_cons, parameters, if_neg hseen, ih hps ?_, List.reverse_cons, List.append_assoc]
      · rfl
      · intro q hq hmem
        obtain rfl | hmem := List.mem_cons.1 hmem
        · exact hp hq
        · exact hrest q hq hmem

def Store.flat (bindings : List (String × Value)) (closures : Nat) : Store :=
  ⟨#[⟨bindings, none⟩], closures⟩

theorem Definition.evaluate {d : Definition} (hd : d.params.Nodup) {bs : List (String × Value)}
    (hbs : bs.lookup d.name = none) (limit id : Nat) :
    SmallLisp.evaluate limit Session.root d.node (Store.flat bs id) =
      .ok (.symbol d.name) (Store.flat ((d.name, .closure (d.closure id)) :: bs) (id + 1)) := by
  have hps : parameters [] (d.params.map .symbol) = .ok d.params :=
    parameters_symbols hd fun _ _ => List.not_mem_nil
  have hbinds : (Store.flat bs (id + 1)).binds Session.root d.name = false := by
    change (bs.lookup d.name).isSome = false
    rw [hbs]
    rfl
  have hdefine : (Store.flat bs (id + 1)).define Session.root d.name (.closure (d.closure id)) =
      (.ok (), Store.flat ((d.name, .closure (d.closure id)) :: bs) (id + 1)) := by
    rw [Store.define, hbinds]
    rfl
  rw [SmallLisp.evaluate, node, Node.eval_define _ _ rfl, Node.eval_lambda _ _ rfl, makeClosure, hps]
  change (Run.attempt (·.define Session.root d.name (.closure (d.closure id))) >>= fun _ =>
    pure (Value.symbol d.name) : Run Store Value) (Store.flat bs (id + 1)) = _
  rw [Run.bind_of_ok (Run.attempt_of_ok hdefine)]
  rfl

/-- Definitions of names that are not bound yet bind them, in order, and do nothing else. -/
theorem Session.evaluateAll_definitions {ds : List Definition}
    (hparams : ∀ d ∈ ds, d.params.Nodup) (hnames : (ds.map Definition.name).Nodup)
    {bs : List (String × Value)} (hbs : ∀ d ∈ ds, bs.lookup d.name = none) (settings : Settings)
    (id : Nat) (last : Option Value) :
    ∃ v, (Session.mk settings (Store.flat bs id)).evaluateAll last (ds.map Definition.node) =
      (.ok v, ⟨settings, Store.flat ((Definition.bindings ds id).reverse ++ bs) (id + ds.length)⟩) := by
  induction ds generalizing bs id last with
  | nil => exact ⟨last, rfl⟩
  | cons d ds ih =>
      obtain ⟨hd, hparams⟩ := List.forall_mem_cons.1 hparams
      obtain ⟨hfresh, hbs⟩ := List.forall_mem_cons.1 hbs
      obtain ⟨hname, hnames⟩ := List.nodup_cons.1 hnames
      have hnext : ∀ d' ∈ ds,
          ((d.name, Value.closure (d.closure id)) :: bs).lookup d'.name = none := by
        intro d' hd'
        have hne : (d'.name == d.name) = false := by
          rw [beq_eq_false_iff_ne]
          exact fun he => hname (he ▸ List.mem_map_of_mem hd')
        rw [List.lookup_cons, hne]
        exact hbs d' hd'
      obtain ⟨v, hv⟩ := ih hparams hnames hnext (id + 1) (some (.symbol d.name))
      refine ⟨v, ?_⟩
      rw [List.map_cons, evaluateAll, Session.evaluate, perform, d.evaluate hd hfresh]
      change (Session.mk settings _).evaluateAll _ _ = _
      rw [hv, Definition.bindings_cons, List.reverse_cons, List.append_assoc, List.length_cons,
        Nat.add_right_comm]
      rfl

theorem Session.load_of_evaluateAll {s t : Session} {text : SourceText} {ns : List Node}
    {v : Option Value} (hread : readAll text.content = .ok ns)
    (heval : s.evaluateAll none ns = (.ok v, t)) : s.load text = .ok t := by
  simp only [load, hread, heval]

namespace Prelude

open Node (form)

def not : Definition where
  name := "not"
  params := ["b"]
  body := form "if" [.symbol "b", .boolean false, .boolean true]

def or : Definition where
  name := "or"
  params := ["a", "b"]
  body := form "if" [.symbol "a", .boolean true,
    form "if" [.symbol "b", .boolean true, .boolean false]]

def and : Definition where
  name := "and"
  params := ["a", "b"]
  body := form "if" [.symbol "a", form "if" [.symbol "b", .boolean true, .boolean false],
    .boolean false]

def xor : Definition where
  name := "xor"
  params := ["a", "b"]
  body := form "and" [form "or" [.symbol "a", .symbol "b"],
    form "not" [form "and" [.symbol "a", .symbol "b"]]]

def atLeast : Definition where
  name := ">="
  params := ["a", "b"]
  body := form "or" [form ">" [.symbol "a", .symbol "b"], form "=" [.symbol "a", .symbol "b"]]

def atMost : Definition where
  name := "<="
  params := ["a", "b"]
  body := form "not" [form ">" [.symbol "a", .symbol "b"]]

def distinct : Definition where
  name := "/="
  params := ["a", "b"]
  body := form "not" [form "=" [.symbol "a", .symbol "b"]]

def sum : Definition where
  name := "sum"
  params := ["lst"]
  body := form "if" [form "empty" [.symbol "lst"], .integer 0,
    form "+" [form "head" [.symbol "lst"], form "sum" [form "tail" [.symbol "lst"]]]]

def length : Definition where
  name := "length"
  params := ["lst"]
  body := form "if" [form "empty" [.symbol "lst"], .integer 0,
    form "+" [.integer 1, form "length" [form "tail" [.symbol "lst"]]]]

def append : Definition where
  name := "append"
  params := ["xs", "ys"]
  body := form "if" [form "empty" [.symbol "xs"], .symbol "ys",
    form "cons" [form "head" [.symbol "xs"],
      form "append" [form "tail" [.symbol "xs"], .symbol "ys"]]]

def filter : Definition where
  name := "filter"
  params := ["pred", "lst"]
  body := form "if" [form "empty" [.symbol "lst"], Node.quoted (.list []),
    form "if" [form "pred" [form "head" [.symbol "lst"]],
      form "cons" [form "head" [.symbol "lst"],
        form "filter" [.symbol "pred", form "tail" [.symbol "lst"]]],
      form "filter" [.symbol "pred", form "tail" [.symbol "lst"]]]]

def map : Definition where
  name := "map"
  params := ["f", "lst"]
  body := form "if" [form "empty" [.symbol "lst"], Node.quoted (.list []),
    form "cons" [form "f" [form "head" [.symbol "lst"]],
      form "map" [.symbol "f", form "tail" [.symbol "lst"]]]]

def reverse : Definition where
  name := "reverse"
  params := ["lst"]
  body := form "if" [form "empty" [.symbol "lst"], Node.quoted (.list []),
    form "append" [form "reverse" [form "tail" [.symbol "lst"]],
      form "cons" [form "head" [.symbol "lst"], Node.quoted (.list [])]]]

def range : Definition where
  name := "range"
  params := ["start", "end"]
  body := form "if" [form ">" [.symbol "start", .symbol "end"], Node.quoted (.list []),
    form "cons" [.symbol "start",
      form "range" [form "+" [.symbol "start", .integer 1], .symbol "end"]]]

def sortLess : Node :=
  form "filter" [form "lambda" [.list [.symbol "x"],
    form "<" [.symbol "x", form "head" [.symbol "lst"]]], form "tail" [.symbol "lst"]]

def sortRest : Node :=
  form "filter" [form "lambda" [.list [.symbol "x"],
    form ">=" [.symbol "x", form "head" [.symbol "lst"]]], form "tail" [.symbol "lst"]]

def sort : Definition where
  name := "sort"
  params := ["lst"]
  body := form "if" [form "empty" [.symbol "lst"], Node.quoted (.list []),
    form "append" [form "sort" [sortLess],
      form "cons" [form "head" [.symbol "lst"], form "sort" [sortRest]]]]

def definitions : List Definition :=
  [not, or, and, xor, atLeast, atMost, distinct, sum, length, append, filter, map, reverse, range,
    sort]

set_option maxRecDepth 10000 in
theorem readAll_source : readAll source = .ok (definitions.map Definition.node) := by
  have h : source.toList = _ := String.toList_ofList
  rw [readAll, readForms, h]
  decide +kernel

theorem definitions_names : (definitions.map Definition.name).Nodup := by decide

theorem definitions_params : ∀ d ∈ definitions, d.params.Nodup := by decide

def bindings : List (String × Value) := (Definition.bindings definitions 0).reverse

theorem bindings_names : bindings.map (·.1) = (definitions.map Definition.name).reverse := rfl

def store : Store := Store.flat bindings definitions.length

def session (settings : Settings) : Session := ⟨settings, store⟩

theorem load_source (settings : Settings) (name : String) :
    (Session.blank settings).load ⟨source, name⟩ = .ok (session settings) := by
  obtain ⟨v, hv⟩ := Session.evaluateAll_definitions definitions_params definitions_names
    (fun _ _ => rfl : ∀ d ∈ definitions, ([] : List (String × Value)).lookup d.name = none)
    settings 0 none
  rw [List.append_nil, Nat.zero_add] at hv
  exact Session.load_of_evaluateAll readAll_source hv

theorem start_session {m : Type → Type} [Monad m] (host : Host m) {settings : Settings}
    (hload : settings.loadPrelude) (hpath : settings.preludePath = none) :
    Session.start host settings = pure (.ok (session settings)) := by
  rw [Session.start, if_pos hload, hpath]
  change pure ((Session.blank settings).load ⟨source, _⟩) = _
  rw [load_source]

end Prelude

end SmallLisp
