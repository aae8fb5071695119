import Mathlib.Data.Set.List
import SmallLisp.Node.Json
import SmallLisp.Proofs.CommandLine.Batch
import SmallLisp.Proofs.Json.Reading

namespace SmallLisp

/-- The shape of the values that stand for nodes. -/
inductive Json.IsNode : Json → Prop
  | boolean (b : Bool) : IsNode (.object [("boolean", .boolean b)])
  | integer {n : Int} (h : Integer.Fits n) : IsNode (.object [("integer", .integer n)])
  | symbol (name : String) : IsNode (.object [("symbol", .string name)])
  | list {items : List Json} (h : ∀ v ∈ items, IsNode v) : IsNode (.object [("list", .array items)])

theorem Json.IsNode.whole {v : Json} (h : v.IsNode) : v.Whole := by
  induction h with
  | boolean b => exact .object (List.forall_mem_singleton.2 (.boolean b))
  | @integer n => exact .object (List.forall_mem_singleton.2 (.integer n))
  | symbol name => exact .object (List.forall_mem_singleton.2 (.string name))
  | list _ ih => exact .object (List.forall_mem_singleton.2 (.array ih))

namespace Node

mutual

theorem isNode_toJson : (n : Node) → n.toJson.IsNode
  | boolean b => .boolean b
  | integer n => .integer (Integer.fits_toInt n)
  | symbol name => .symbol name
  | list items => .list (isNode_toJsonList items)

theorem isNode_toJsonList : (ns : List Node) → ∀ v ∈ toJsonList ns, v.IsNode
  | [] => nofun
  | n :: ns => List.forall_mem_cons.2 ⟨isNode_toJson n, isNode_toJsonList ns⟩

end

mutual

theorem ofJson?_toJson : (n : Node) → ofJson? n.toJson = some n
  | boolean _ | symbol _ => rfl
  | integer n => by rw [toJson, ofJson?, Integer.ofInt?_toInt, Option.map_some]
  | list items => by rw [toJson, ofJson?, ofJsonList?_toJsonList items, Option.map_some]

theorem ofJsonList?_toJsonList : (ns : List Node) → ofJsonList? (toJsonList ns) = some ns
  | [] => rfl
  | n :: ns => by
      rw [toJsonList, ofJsonList?, ofJson?_toJson n, ofJsonList?_toJsonList ns]
      rfl

end

mutual

theorem eq_toJson_of_ofJson? : (n : Node) → {v : Json} → ofJson? v = some n → v = n.toJson
  | n, v, h => by
      rw [ofJson?.eq_def] at h
      split at h
      · cases h
        rfl
      · obtain ⟨w, hw, rfl⟩ := Option.map_eq_some_iff.1 h
        rw [toJson, Integer.toInt_of_ofInt? hw]
      · cases h
        rfl
      · obtain ⟨ns, hns, rfl⟩ := Option.map_eq_some_iff.1 h
        rw [toJson, eq_toJsonList_of_ofJsonList? ns hns]
      · cases h

theorem eq_toJsonList_of_ofJsonList? :
    (ns : List Node) → {vs : List Json} → ofJsonList? vs = some ns → vs = toJsonList ns
  | ns, [], h => by
      cases h
      rfl
  | ns, v :: vs, h => by
      obtain ⟨n, hn, h⟩ := Option.bind_eq_some_iff.1 h
      obtain ⟨ms, hms, h⟩ := Option.bind_eq_some_iff.1 h
      cases h
      rw [toJsonList, eq_toJson_of_ofJson? n hn, eq_toJsonList_of_ofJsonList? ms hms]

end

theorem toJsonList_eq_map : (ns : List Node) → toJsonList ns = ns.map toJson
  | [] => rfl
  | n :: ns => congrArg (n.toJson :: ·) (toJsonList_eq_map ns)

end Node

theorem Json.IsNode.exists_toJson {v : Json} (h : v.IsNode) : ∃ n : Node, n.toJson = v := by
  induction h with
  | boolean b => exact ⟨.boolean b, rfl⟩
  | @integer n hn =>
      rcases hw : Integer.ofInt? n with _ | w
      · exact absurd hn (Integer.ofInt?_eq_none.1 hw)
      · exact ⟨.integer w, by rw [Node.toJson, Integer.toInt_of_ofInt? hw]⟩
  | symbol name => exact ⟨.symbol name, rfl⟩
  | @list items _ ih =>
      obtain ⟨ns, rfl⟩ : items ∈ Set.range (List.map Node.toJson) := Set.range_list_map _ ▸ ih
      exact ⟨.list ns, by rw [Node.toJson, Node.toJsonList_eq_map]⟩

/-- Every node is read back from its JSON form, on one line or indented, and no value but the form of
a node stands for it; what stands for a node at all is told by its shape. So what the command writes
of a program, from whatever source, is read back as the nodes of the program. -/
theorem Node.json_exact :
    (∀ n : Node, Json.read? n.toJson.text = some n.toJson ∧
      Json.read? n.toJson.prettyText = some n.toJson ∧ ofJson? n.toJson = some n) ∧
    (∀ v n, ofJson? v = some n → v = n.toJson) ∧
    (∀ v, (∃ n, ofJson? v = some n) ↔ v.IsNode) ∧
    ∀ (w : World) (wishes : Wishes) (before words after : List String) (s : Settings)
      (source : String) (ns : List Node) (render : List Notice → String),
      w.Asks source words → wishes.Around before after → wishes.dumpAst →
      wishes.Effective w.files s → readAll source = .ok ns →
      ∃ r vs, w.ofArguments render (before ++ words ++ after) = .ok r ∧ r.status = 0 ∧
        Json.read? r.stdout = some (.array vs) ∧ ofJsonList? vs = some ns := by
  refine ⟨fun n => ?_, fun v n => eq_toJson_of_ofJson? n, fun v => ⟨?_, fun h => ?_⟩, ?_⟩
  · have hwhole := n.isNode_toJson.whole
    exact ⟨hwhole.read?_text, hwhole.read?_prettyText, ofJson?_toJson n⟩
  · rintro ⟨n, h⟩
    exact eq_toJson_of_ofJson? n h ▸ isNode_toJson n
  · obtain ⟨n, rfl⟩ := h.exists_toJson
    exact ⟨n, ofJson?_toJson n⟩
  · intro w wishes before words after s source ns render hwords hargs hdump hs hns
    obtain ⟨r, hr, hstatus, hstdout⟩ :=
      CommandLine.exists_stdout_dump hwords hargs hs hdump hns render
    have hwhole : (Json.array (ns.map toJson)).Whole :=
      .array (List.forall_mem_map.2 fun n _ => n.isNode_toJson.whole)
    refine ⟨r, ns.map toJson, hr, hstatus, ?_, ?_⟩
    · rw [hstdout]
      exact Json.read?_newline hwhole.read?_prettyText
    · rw [← toJsonList_eq_map, ofJsonList?_toJsonList]

theorem Node.json_exact_escaped :
    let source := "'\"\\é -9223372036854775808 ()"
    let w : World := { files := fun _ => .error .missing, stdin := source.toUTF8 }
    let ns := [list [symbol "quote", symbol "\"\\é"], integer Int64.minValue, list []]
    readAll source = .ok ns ∧
    ∃ r vs, w.ofArguments (fun _ => "") ["--input", "pipe", "--dump-ast"] = .ok r ∧ r.status = 0 ∧
      Json.read? r.stdout = some (.array vs) ∧ ofJsonList? vs = some ns := by
  intro source w ns
  have hread : readAll source = .ok ns := by decide +kernel
  exact ⟨hread, Node.json_exact.2.2.2 w { dumpAst := true } [] ["--input", "pipe"] ["--dump-ast"] {}
    source ns _ (.pipe (decodeText_toUTF8 source)) (.behind (.cons .nil (.dumpAst rfl))) rfl
    ⟨{}, .inl ⟨rfl, rfl⟩, rfl, by decide⟩ hread⟩

end SmallLisp
