import Stencil.Bundle.Loading
import Stencil.Proofs.Json.Record
/-!
# Loading — bundles, read back from their Json

Texts that are inserted in the order of their ids stay in it (`messages_insertAll`), so a bundle is rebuilt from its
own texts (`ofList_messages`) and read back from its Json.
-/
namespace Stencil
namespace Bundle

theorem insertEntry_of_last {id text : String} : ∀ {entries : List (String × String)}, (∀ e ∈ entries, e.1 < id) →
    insertEntry id text entries = entries ++ [(id, text)]
  | [], _ => rfl
  | (id', text') :: rest, h => by
    have hlt : id' < id := h (id', text') List.mem_cons_self
    rw [insertEntry, if_neg (String.lt_asymm hlt), if_pos hlt, insertEntry_of_last fun e he => h e (List.mem_cons_of_mem _ he)]
    rfl

/-- The texts of a bundle after further ones in ascending order. -/
theorem messages_insertAll : ∀ (entries : List (String × String)) (b : Bundle),
    (b.messages ++ entries).Pairwise (fun x y => x.1 < y.1) →
      (entries.foldl (fun b e => b.insert e.1 e.2) b).messages = b.messages ++ entries
  | [], b, _ => (List.append_nil _).symm
  | (id, text) :: rest, b, h => by
    have hlast : (b.insert id text).messages = b.messages ++ [(id, text)] := by
      refine insertEntry_of_last fun e he => ?_
      exact (List.pairwise_append.1 h).2.2 e he (id, text) List.mem_cons_self
    have hall : (b.insert id text).messages ++ rest = b.messages ++ (id, text) :: rest := by
      rw [hlast, List.append_assoc, List.singleton_append]
    rw [List.foldl_cons, messages_insertAll rest _ (hall ▸ h), hall]

theorem locale_insertAll (entries : List (String × String)) (b : Bundle) :
    (entries.foldl (fun b e => b.insert e.1 e.2) b).locale = b.locale := by
  induction entries generalizing b with
  | nil => rfl
  | cons e entries ih => exact ih (b.insert e.1 e.2)

theorem ext {b b' : Bundle} (hlocale : b.locale = b'.locale) (hmessages : b.messages = b'.messages) : b = b' := by
  obtain ⟨_, _, _⟩ := b
  obtain ⟨_, _, _⟩ := b'
  cases hlocale
  cases hmessages
  rfl

/-- **A bundle is made up of its texts.** -/
theorem ofList_messages (b : Bundle) : ofList b.locale b.messages = b :=
  ext (locale_insertAll _ _) (messages_insertAll b.messages { locale := b.locale } b.ascending)

theorem entries?_record (messages : List (String × String)) :
    entries? (.record (messages.map fun m => (m.1, .str m.2))) = some messages := by
  rw [Json.record, entries?, Json.named?_map]
  refine Json.mapM_map_eq_some (fun m => ?_) messages
  rfl

/-- **A bundle is read back from its Json.** -/
theorem ofJson?_toJson (b : Bundle) : ofJson? b.toJson = some b := by
  rw [ofJson?, toJson, Json.fields?_record false (by rfl) (by decide)]
  show (entries? (.record (b.messages.map fun m => (m.1, .str m.2))) >>= _) = _
  rw [entries?_record]
  exact congrArg some (ofList_messages b)

end Bundle
end Stencil
