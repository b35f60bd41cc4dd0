import Stencil.Json.Fields
/-!
# Record — a written record, read back

A record that is written with its declared fields in their order gives all of them (`fields?_record`), a tagged one its
kind and its fields (`tagged?_record`), and a list what its items give (`list?_array`).
-/
namespace Stencil
namespace Json

@[simp] theorem isSound_str (s : String) : (str s).isSound = true := rfl

@[simp] theorem isSound_bool (b : Bool) : (Json.bool b).isSound = true := rfl

@[simp] theorem isSound_array (items : List Json) : (array items).isSound = items.all isSound := by
  rw [isSound]
  induction items with
  | nil => rfl
  | cons j js ih => rw [itemsSound, ih, List.all_cons]

@[simp] theorem isSound_record (members : List (String × Json)) : (record members).isSound = members.all (·.2.isSound) := by
  rw [record, isSound]
  induction members with
  | nil => rfl
  | cons m ms ih => rw [List.map_cons, membersSound, ih, List.all_cons, Option.isSome_some, Bool.true_and]

theorem height_array_le {items : List Json} {n : Nat} (h : ∀ j ∈ items, j.height ≤ n) : (array items).height ≤ n + 1 := by
  refine Nat.succ_le_succ ?_
  show itemsHeight items ≤ n
  induction items with
  | nil => exact Nat.zero_le n
  | cons j js ih =>
    obtain ⟨hj, hjs⟩ := List.forall_mem_cons.1 h
    exact Nat.max_le.2 ⟨hj, ih hjs⟩

theorem height_record_le {members : List (String × Json)} {n : Nat} (h : ∀ m ∈ members, m.2.height ≤ n) :
    (record members).height ≤ n + 1 := by
  refine Nat.succ_le_succ ?_
  show membersHeight (members.map fun m => (some m.1, m.2)) ≤ n
  induction members with
  | nil => exact Nat.zero_le n
  | cons m ms ih =>
    obtain ⟨hm, hms⟩ := List.forall_mem_cons.1 h
    exact Nat.max_le.2 ⟨hm, ih hms⟩

theorem mapM_map_eq_some {α β : Type} {read : β → Option α} {write : α → β} (h : ∀ a, read (write a) = some a) :
    ∀ xs : List α, (xs.map write).mapM read = some xs
  | [] => rfl
  | x :: xs => by
    rw [List.map_cons, List.mapM_cons, h, mapM_map_eq_some h xs]
    rfl

theorem named?_map (members : List (String × Json)) : named? (members.map fun m => (some m.1, m.2)) = some members := by
  refine mapM_map_eq_some (fun m => ?_) members
  rfl

/-- A record that holds declared fields alone gives them, in whatever order and however many they are. -/
theorem fields?_record_of_mem {members : List (String × Json)} {names : List String} (closed : Bool)
    (hnames : ∀ m ∈ members, m.1 ∈ names) (hnodup : (members.map Prod.fst).Nodup) :
    (record members).fields? closed names = some ⟨members⟩ := by
  have hknown : members.filter (fun m => names.contains m.1) = members :=
    List.filter_eq_self.2 fun m hm => List.contains_iff_mem.2 (hnames m hm)
  rw [record, fields?, named?_map]
  simp only [hknown, hnodup, true_and, implies_true, if_true]

/-- **A record gives the fields that it was written with.** -/
theorem fields?_record {members : List (String × Json)} {names : List String} (closed : Bool)
    (hnames : members.map Prod.fst = names) (hnodup : names.Nodup) :
    (record members).fields? closed names = some ⟨members⟩ := by
  refine fields?_record_of_mem closed (fun m hm => ?_) (hnames ▸ hnodup)
  rw [← hnames]
  exact List.mem_map_of_mem hm

namespace Fields

variable {members : List (String × Json)} {name : String} {j : Json} {α : Type} {read : Json → Option α} {default a : α}

theorem optional?_of_mem (hnodup : (members.map Prod.fst).Nodup) (h : (name, j) ∈ members) (hread : read j = some a) :
    (⟨members⟩ : Fields).optional? name default read = some a := by
  obtain ⟨before, after, rfl⟩ := List.append_of_mem h
  have hother : ∀ m ∈ before, m.1 ≠ name := by
    intro m hm hname
    rw [List.map_append, List.map_cons] at hnodup
    exact (List.nodup_append.1 hnodup).2.2 m.1 (List.mem_map_of_mem hm) name List.mem_cons_self hname
  have hfind : (before ++ (name, j) :: after).lookup name = some j :=
    List.lookup_eq_some_iff.2 ⟨before, after, rfl, fun m hm => bne_iff_ne.2 (hother m hm).symm⟩
  simp only [optional?, find?, hfind, hread]

theorem optional?_of_absent (h : ∀ m ∈ members, m.1 ≠ name) :
    (⟨members⟩ : Fields).optional? name default read = some default := by
  have hfind : members.lookup name = none := List.lookup_eq_none_iff.2 fun m hm => bne_iff_ne.2 (h m hm).symm
  simp only [optional?, find?, hfind]

end Fields

/-- **A tagged record gives its kind and the fields beside it.** -/
theorem tagged?_record {kinds : List String} {kind : String} {members : List (String × Json)} {around : Nat}
    (numbered : Bool) (hkind : kind ∈ kinds) (hnames : ∀ m ∈ members, m.1 ≠ "kind")
    (hsound : ∀ m ∈ members, m.2.isSound = true)
    (hheight : around + (record (("kind", .str kind) :: members)).height ≤ nestingLimit) :
    (record (("kind", .str kind) :: members)).tagged? around numbered kinds = some (kind, record members) := by
  have hall : (record (("kind", .str kind) :: members)).isSound = true := by
    rw [isSound_record, List.all_cons, isSound_str, Bool.true_and]
    exact List.all_eq_true.2 hsound
  have hother : ∀ m ∈ members.map (fun m => (some m.1, m.2)), (m.1 == some "kind") = false := by
    intro _ hm
    obtain ⟨m, hmem, rfl⟩ := List.mem_map.1 hm
    simpa using hnames m hmem
  have hpart : ((some "kind", str kind) :: members.map fun m => (some m.1, m.2)).partition (fun m => m.1 == some "kind") =
      ([(some "kind", str kind)], members.map fun m => (some m.1, m.2)) := by
    rw [List.partition_eq_filter_filter, List.filter_cons_of_pos rfl, List.filter_cons_of_neg (by simp),
      List.filter_eq_nil_iff.2 fun m hm => by rw [hother m hm]; decide,
      List.filter_eq_self.2 fun m hm => by rw [Function.comp_apply, hother m hm]; rfl]
  have hkind' : kind? numbered kinds (str kind) = some kind := by
    rw [str, kind?, if_pos (List.contains_iff_mem.2 hkind)]
  unfold tagged?
  rw [if_pos (by rw [hall, decide_eq_true hheight, Bool.and_self])]
  simp only [record, List.map_cons, hpart, hkind', Option.map_some]

theorem height_le_of_tagged? {j rest : Json} {around : Nat} {numbered : Bool} {kinds : List String} {kind : String}
    (h : j.tagged? around numbered kinds = some (kind, rest)) : around + j.height ≤ nestingLimit := by
  unfold tagged? at h
  split at h
  · next hkept => exact of_decide_eq_true (Bool.and_eq_true_iff.1 hkept).2
  · cases h

theorem list?_array {α : Type} {read : Json → Option α} {write : α → Json} (h : ∀ a, read (write a) = some a) (xs : List α) :
    list? read (.array (xs.map write)) = some xs := mapM_map_eq_some h xs

end Json
end Stencil
