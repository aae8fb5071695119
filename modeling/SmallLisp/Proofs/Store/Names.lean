import Mathlib.Data.List.Sort
import SmallLisp.Proofs.Session
import SmallLisp.Proofs.Store.Visibility
import SmallLisp.Repl

namespace SmallLisp

variable {s : Store} {env : FrameId} {name m : String} {names others : List String}

theorem nameBytes_injective : Function.Injective nameBytes := by
  intro a b h
  have hdata : a.toUTF8.data = b.toUTF8.data := Array.toList_inj.1 h
  exact String.toByteArray_inj.1 (ByteArray.ext hdata)

/-- Names in the order of their bytes, none of which comes twice. -/
def Ascending (names : List String) : Prop :=
  names.Pairwise fun a b => nameBytes a < nameBytes b

theorem mem_insertName : m ∈ insertName name names ↔ m = name ∨ m ∈ names := by
  induction names with
  | nil => exact List.mem_cons
  | cons n ns ih =>
      rw [insertName]
      split
      · next h => rw [h, List.mem_cons, ← or_assoc, or_self]
      · split
        · exact List.mem_cons
        · rw [List.mem_cons, ih, List.mem_cons, or_left_comm]

theorem Ascending.insertName (h : Ascending names) (name : String) :
    Ascending (insertName name names) := by
  induction names with
  | nil => exact List.pairwise_singleton _ _
  | cons n ns ih =>
      obtain ⟨hn, hns⟩ := List.pairwise_cons.1 h
      rw [SmallLisp.insertName]
      split
      · exact h
      · next hne =>
          split
          · next hlt =>
              refine List.pairwise_cons.2 ⟨List.forall_mem_cons.2 ⟨hlt, fun m hm => ?_⟩, h⟩
              exact List.lt_trans hlt (hn m hm)
          · next hnlt =>
              have hlt : nameBytes n < nameBytes name := by
                by_contra hle
                exact hne (nameBytes_injective (Std.Trichotomous.trichotomous _ _ hnlt hle))
              refine List.pairwise_cons.2 ⟨fun m hm => ?_, ih hns⟩
              obtain rfl | hm := mem_insertName.1 hm
              · exact hlt
              · exact hn m hm

theorem mem_sortNames : m ∈ sortNames names ↔ m ∈ names := by
  induction names with
  | nil => rfl
  | cons n ns ih => rw [sortNames, List.foldr_cons, mem_insertName, List.mem_cons, ← ih, sortNames]

theorem ascending_sortNames (names : List String) : Ascending (sortNames names) := by
  induction names with
  | nil => exact .nil
  | cons n ns ih => exact ih.insertName n

theorem sortNames_congr (h : ∀ m, m ∈ names ↔ m ∈ others) : sortNames names = sortNames others := by
  have hmem : ∀ m, m ∈ sortNames names ↔ m ∈ sortNames others := fun m => by
    rw [mem_sortNames, mem_sortNames, h]
  have hnodup (ns : List String) : (sortNames ns).Nodup := by
    refine (ascending_sortNames ns).imp fun hlt he => ?_
    rw [he] at hlt
    exact List.lt_irrefl _ hlt
  refine ((List.perm_ext_iff_of_nodup (hnodup _) (hnodup _)).2 fun m => hmem m).eq_of_pairwise ?_
    (ascending_sortNames names) (ascending_sortNames others)
  exact fun a b _ _ hab hba => absurd hba (List.lt_asymm hab)

namespace Store

/-- The listing at a frame is that of its own names together with the listing at the frame around it. -/
theorem Reachable.names_eq (hs : s.Reachable) {f : Frame} (hf : s.frames[env]? = some f) :
    s.names env = sortNames (f.names ++ (f.parent.map s.names).getD []) := by
  cases hp : f.parent with
  | none =>
      rw [names, chain_root hf hp, List.flatMap_singleton]
      exact congrArg sortNames (List.append_nil f.names).symm
  | some p =>
      rw [names, hs.madeOf.chain_inner hf hp, List.flatMap_cons]
      refine sortNames_congr fun m => ?_
      rw [List.mem_append, List.mem_append]
      exact or_congr_right mem_sortNames.symm

theorem Reachable.find?_eq (hs : s.Reachable) {f : Frame} (hf : s.frames[env]? = some f)
    (name : String) :
    s.find? env name = (f.find? name).or (f.parent.bind fun p => s.find? p name) := by
  cases hp : f.parent with
  | none =>
      rw [find?, chain_root hf hp, List.findSome?_singleton]
      exact Option.or_none.symm
  | some p => exact hs.madeOf.find?_eq hf hp name

end Store

end SmallLisp
