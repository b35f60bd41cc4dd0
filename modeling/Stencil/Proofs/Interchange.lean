import Mathlib.Logic.Function.Basic
import Stencil.Proofs.Bundle.Loading
import Stencil.Proofs.Json.Reading
import Stencil.Proofs.Template.Format
/-!
# Interchange — trees and bundles as texts

What the compiler reads from a text it can write as one, on one line or on many, and the text it writes is read as the
value that was written (`interchange_roundTrips`).  So a text that is accepted may be replaced by one that is written for
its value, and no two values share a text.
-/
namespace Stencil

/-- The layouts of a written value. -/
def layouts : List (Json → String) := [Json.render, Json.pretty]

/-- **Written values are read back**: reading undoes writing, what is read from any text survives another turn, and
different values have different texts. -/
structure RoundTrips {α : Type} (write : α → Json) (read : String → Option α) : Prop where
  read_write : ∀ layout ∈ layouts, ∀ a, read (layout (write a)) = some a
  reread : ∀ layout ∈ layouts, ∀ s a, read s = some a → read (layout (write a)) = read s
  injective : ∀ layout ∈ layouts, Function.Injective fun a => layout (write a)

theorem parse?_layout {layout : Json → String} (h : layout ∈ layouts) (j : Json) : Json.parse? (layout j) = some j := by
  rcases List.mem_cons.1 h with rfl | h
  · exact Json.parse?_render j
  · rw [List.mem_singleton.1 h]
    exact Json.parse?_pretty j

theorem roundTrips_of_inverse {α : Type} {write : α → Json} {ofJson? : Json → Option α} {read : String → Option α}
    (hread : ∀ s, read s = (Json.parse? s).bind ofJson?) (h : ∀ a, ofJson? (write a) = some a) :
    RoundTrips write read := by
  have hwritten : ∀ layout ∈ layouts, ∀ a, read (layout (write a)) = some a := fun layout hl a => by
    rw [hread, parse?_layout hl, Option.bind_some, h]
  refine ⟨hwritten, fun layout hl s a hs => (hwritten layout hl a).trans hs.symm, fun layout hl a b hab => ?_⟩
  have hsame : read (layout (write a)) = read (layout (write b)) := congrArg read hab
  rw [hwritten layout hl, hwritten layout hl] at hsame
  exact Option.some.inj hsame

theorem Bundle.toOption_ofText (s : String) : (ofText s).toOption = (Json.parse? s).bind ofJson? := by
  rw [ofText]
  cases (Json.parse? s).bind ofJson? <;> rfl

/-- **Every part of a tree and every bundle is read back from its text.** -/
theorem interchange_roundTrips :
    RoundTrips TemplateFile.toJson TemplateFile.ofText? ∧
    RoundTrips Template.toJson (fun s => (Json.parse? s).bind Template.ofJson?) ∧
    RoundTrips Node.toJson (fun s => (Json.parse? s).bind Node.ofJson?) ∧
    (∀ numbered, RoundTrips Message.toJson fun s => (Json.parse? s).bind (Message.ofJson? numbered)) ∧
    (∀ numbered, RoundTrips MessageBody.toJson fun s => (Json.parse? s).bind (MessageBody.ofJson? numbered)) ∧
    RoundTrips MessageCase.toJson (fun s => (Json.parse? s).bind MessageCase.ofJson?) ∧
    RoundTrips Bundle.toJson (fun s => (Bundle.ofText s).toOption) := by
  refine ⟨?_, ?_, ?_, fun numbered => ?_, fun numbered => ?_, ?_, ?_⟩
  · exact roundTrips_of_inverse (fun _ => rfl) TemplateFile.ofJson?_toJson
  · exact roundTrips_of_inverse (fun _ => rfl) Template.ofJson?_toJson
  · exact roundTrips_of_inverse (fun _ => rfl) Node.ofJson?_toJson
  · exact roundTrips_of_inverse (fun _ => rfl) (Message.ofJson?_toJson numbered)
  · exact roundTrips_of_inverse (fun _ => rfl) (MessageBody.ofJson?_toJson numbered)
  · exact roundTrips_of_inverse (fun _ => rfl) MessageCase.ofJson?_toJson
  · exact roundTrips_of_inverse Bundle.toOption_ofText Bundle.ofJson?_toJson

end Stencil
