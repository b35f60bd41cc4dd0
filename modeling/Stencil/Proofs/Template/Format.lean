import Stencil.Proofs.Json.Record
import Stencil.Template.Format
/-!
# Format — trees, read back from their Json

Each part of a tree is read back from the value that is written for it, from the branches of a message to the file.  A
tagged part first gives its kind, which decides the fields that are read after it.  What is written for a part is nested
at most four deep, so a part is read back wherever it stands in a file (`Node.ofJsonWithin?_toJson`).
-/
namespace Stencil

open Json (fields?_record tagged?_record list?_array nestingLimit)

theorem MessageCase.ofJson?_toJson (c : MessageCase) : ofJson? c.toJson = some c := by
  rw [ofJson?, toJson, fields?_record false (by rfl) (by decide)]
  rfl

theorem MessageCase.isSound_toJson (c : MessageCase) : c.toJson.isSound = true := rfl

theorem MessageCase.height_array_toJson_le (cases : List MessageCase) :
    (Json.array (cases.map MessageCase.toJson)).height ≤ 2 := by
  refine Json.height_array_le fun j hj => ?_
  obtain ⟨c, -, rfl⟩ := List.mem_map.1 hj
  exact Nat.le_refl 1

variable {around : Nat}

namespace MessageBody

theorem branches?_record (selector : String) (cases : List MessageCase) :
    branches? (.record [("var", .str selector), ("cases", .array (cases.map MessageCase.toJson))]) =
      some (selector, cases) := by
  rw [branches?, fields?_record false (by rfl) (by decide)]
  show (Json.list? MessageCase.ofJson? (.array (cases.map MessageCase.toJson)) >>= _) = _
  rw [list?_array MessageCase.ofJson?_toJson]
  rfl

theorem isSound_toJson (b : MessageBody) : b.toJson.isSound = true := by
  have hcases : ∀ cases : List MessageCase, (Json.array (cases.map MessageCase.toJson)).isSound = true := fun cases => by
    simp [MessageCase.isSound_toJson]
  cases b with
  | text s => rfl
  | plural selector cases => simp [toJson, hcases]
  | select selector cases => simp [toJson, hcases]

theorem height_toJson_le (b : MessageBody) : b.toJson.height ≤ 3 := by
  have hbranches : ∀ kind selector : String, ∀ cases : List MessageCase,
      (Json.record [("kind", .str kind), ("var", .str selector), ("cases", .array (cases.map MessageCase.toJson))]).height
        ≤ 3 := fun kind selector cases => Json.height_record_le (List.forall_mem_cons.2 ⟨Nat.zero_le 2,
          List.forall_mem_cons.2 ⟨Nat.zero_le 2, List.forall_mem_singleton.2 (MessageCase.height_array_toJson_le cases)⟩⟩)
  cases b with
  | text s => exact (by decide : 1 ≤ 3)
  | plural selector cases => exact hbranches "plural" selector cases
  | select selector cases => exact hbranches "select" selector cases

theorem ofJsonWithin?_toJson (numbered : Bool) (h : around + 3 ≤ nestingLimit) (b : MessageBody) :
    ofJsonWithin? around numbered b.toJson = some b := by
  have hheight : around + b.toJson.height ≤ nestingLimit := Nat.le_trans (Nat.add_le_add_left b.height_toJson_le around) h
  cases b with
  | text s =>
    rw [ofJsonWithin?, toJson, tagged?_record numbered (by decide) (by simp) (by simp) hheight]
    simp only [bind, Option.bind_some]
    rw [fields?_record false (by rfl) (by decide)]
    rfl
  | plural selector cases =>
    rw [ofJsonWithin?, toJson, tagged?_record numbered (by decide) (by simp) (by simp [MessageCase.isSound_toJson]) hheight]
    simp only [bind, Option.bind_some]
    rw [branches?_record]
    rfl
  | select selector cases =>
    rw [ofJsonWithin?, toJson, tagged?_record numbered (by decide) (by simp) (by simp [MessageCase.isSound_toJson]) hheight]
    simp only [bind, Option.bind_some]
    rw [branches?_record]
    rfl

theorem ofJson?_toJson (numbered : Bool) (b : MessageBody) : ofJson? numbered b.toJson = some b :=
  ofJsonWithin?_toJson numbered (by decide) b

end MessageBody

theorem Message.ofJsonWithin?_members (numbered : Bool) (h : around + 4 ≤ nestingLimit) (m : Message) :
    ofJsonWithin? around numbered (.record m.members) = some m := by
  rw [ofJsonWithin?, fields?_record false (by rfl) (by decide)]
  show (MessageBody.ofJsonWithin? (around + 1) numbered m.body.toJson >>= _) = _
  rw [MessageBody.ofJsonWithin?_toJson numbered (by omega)]
  rfl

theorem Message.ofJson?_toJson (numbered : Bool) (m : Message) : ofJson? numbered m.toJson = some m :=
  ofJsonWithin?_members numbered (by decide) m

theorem Node.height_toJson_le (n : Node) : n.toJson.height ≤ 4 := by
  cases n with
  | message m =>
    refine Json.height_record_le (List.forall_mem_cons.2 ⟨Nat.zero_le 3, List.forall_mem_cons.2 ⟨Nat.zero_le 3, ?_⟩⟩)
    exact List.forall_mem_singleton.2 m.body.height_toJson_le
  | _ => exact (by decide : 1 ≤ 4)

/-- **A node is read back wherever it stands**, as long as there is room for four arrays and objects. -/
theorem Node.ofJsonWithin?_toJson (h : around + 4 ≤ nestingLimit) (n : Node) :
    ofJsonWithin? around n.toJson = some n := by
  have hheight : around + n.toJson.height ≤ nestingLimit := Nat.le_trans (Nat.add_le_add_left n.height_toJson_le around) h
  cases n with
  | rawText text =>
    rw [ofJsonWithin?, toJson, tagged?_record false (by decide) (by simp) (by simp) hheight]
    simp only [bind, Option.bind_some]
    rw [fields?_record false (by rfl) (by decide)]
    rfl
  | print expression injected =>
    rw [ofJsonWithin?, toJson, tagged?_record false (by decide) (by simp) (by simp) hheight]
    simp only [bind, Option.bind_some]
    rw [fields?_record false (by rfl) (by decide)]
    rfl
  | message m =>
    rw [ofJsonWithin?, toJson, tagged?_record false (by decide) (by simp [Message.members])
      (by simp [Message.members, MessageBody.isSound_toJson]) hheight]
    simp only [bind, Option.bind_some]
    rw [Message.ofJsonWithin?_members true h]
    rfl
  | messageText id text =>
    rw [ofJsonWithin?, toJson, tagged?_record false (by decide) (by simp) (by simp) hheight]
    simp only [bind, Option.bind_some]
    rw [fields?_record false (by rfl) (by decide)]
    rfl
  | bidi ltr rtl =>
    rw [ofJsonWithin?, toJson, tagged?_record false (by decide) (by simp) (by simp) hheight]
    simp only [bind, Option.bind_some]
    rw [fields?_record false (by rfl) (by decide)]
    rfl

/-- What is read as a node is not nested too far where it stands. -/
theorem Node.height_le_of_ofJsonWithin? {j : Json} {n : Node} (h : ofJsonWithin? around j = some n) :
    around + j.height ≤ nestingLimit := by
  obtain ⟨tagged, htagged, -⟩ := Option.bind_eq_some_iff.1 h
  exact Json.height_le_of_tagged? htagged

theorem Node.ofJson?_toJson (n : Node) : ofJson? n.toJson = some n := ofJsonWithin?_toJson (by decide) n

theorem Template.ofJsonWithin?_toJson (h : around + 6 ≤ nestingLimit) (t : Template) :
    ofJsonWithin? around t.toJson = some t := by
  rw [ofJsonWithin?, toJson, fields?_record false (by rfl) (by decide)]
  show (Json.list? (Node.ofJsonWithin? (around + 2)) (.array (t.body.map Node.toJson)) >>= _) = _
  rw [list?_array (Node.ofJsonWithin?_toJson (by omega))]
  rfl

theorem Template.ofJson?_toJson (t : Template) : ofJson? t.toJson = some t := ofJsonWithin?_toJson (by decide) t

/-- **A template file is read back from its Json.** -/
theorem TemplateFile.ofJson?_toJson (f : TemplateFile) : ofJson? f.toJson = some f := by
  rw [ofJson?, toJson, fields?_record false (by rfl) (by decide)]
  show (Json.list? (Template.ofJsonWithin? 2) (.array (f.templates.map Template.toJson)) >>= _) = _
  rw [list?_array (Template.ofJsonWithin?_toJson (by decide))]
  rfl

end Stencil
