/-!
# Bundle — translated texts by message id

A bundle belongs to a locale and holds at most one text for an id, in ascending order of the ids by code point, so two
bundles with the same texts are equal.  Main statements: `get_insert_self`, `get_insert_of_ne` and `get_eq_some_iff`.
-/
namespace Stencil

structure Bundle where
  locale : String
  messages : List (String × String) := []
  ascending : messages.Pairwise (fun a b => a.1 < b.1) := by exact List.Pairwise.nil
deriving Repr, DecidableEq

namespace Bundle

/-- The entries with the text of one id set; a text that was there is replaced. -/
def insertEntry (id text : String) : List (String × String) → List (String × String)
  | [] => [(id, text)]
  | (id', text') :: rest =>
    if id < id' then (id, text) :: (id', text') :: rest
    else if id' < id then (id', text') :: insertEntry id text rest
    else (id, text) :: rest

theorem mem_insertEntry {id text : String} {e : String × String} :
    ∀ {entries : List (String × String)}, e ∈ insertEntry id text entries → e = (id, text) ∨ e ∈ entries
  | [], h => by simpa [insertEntry] using h
  | (id', text') :: rest, h => by
    unfold insertEntry at h
    split at h
    · simpa using h
    · split at h
      · rcases List.mem_cons.1 h with rfl | h
        · simp
        · rcases mem_insertEntry h with h | h <;> simp [h]
      · rcases List.mem_cons.1 h with h | h
        · exact Or.inl h
        · exact Or.inr (by simp [h])

theorem eq_of_not_lt {a b : String} (h1 : ¬ a < b) (h2 : ¬ b < a) : a = b :=
  String.le_antisymm (String.not_lt.1 h2) (String.not_lt.1 h1)

theorem ascending_insertEntry (id text : String) :
    ∀ {entries : List (String × String)}, entries.Pairwise (fun a b => a.1 < b.1) →
      (insertEntry id text entries).Pairwise (fun a b => a.1 < b.1)
  | [], _ => by simp [insertEntry]
  | (id', text') :: rest, h => by
    obtain ⟨hhead, htail⟩ := List.pairwise_cons.1 h
    unfold insertEntry
    split
    · next hlt =>
      refine List.pairwise_cons.2 ⟨fun e he => ?_, h⟩
      rcases List.mem_cons.1 he with rfl | he
      · exact hlt
      · exact String.lt_trans hlt (hhead e he)
    · next hnlt =>
      split
      · next hgt =>
        refine List.pairwise_cons.2 ⟨fun e he => ?_, ascending_insertEntry id text htail⟩
        rcases mem_insertEntry he with rfl | he
        · exact hgt
        · exact hhead e he
      · next hngt =>
        obtain rfl := eq_of_not_lt hnlt hngt
        exact List.pairwise_cons.2 ⟨hhead, htail⟩

/-- Sets the text of an id. -/
def insert (b : Bundle) (id text : String) : Bundle where
  locale := b.locale
  messages := insertEntry id text b.messages
  ascending := ascending_insertEntry id text b.ascending

/-- The text of an id. -/
def get (b : Bundle) (id : String) : Option String := b.messages.lookup id

def size (b : Bundle) : Nat := b.messages.length

def isEmpty (b : Bundle) : Bool := b.messages.isEmpty

/-- The bundle with the given texts, the last one for an id given twice. -/
def ofList (locale : String) (entries : List (String × String)) : Bundle :=
  entries.foldl (fun b e => b.insert e.1 e.2) { locale }

theorem lookup_insertEntry (id text key : String) :
    ∀ entries : List (String × String), (insertEntry id text entries).lookup key =
      if key = id then some text else entries.lookup key
  | [] => by
    by_cases h : key = id
    · simp [insertEntry, h]
    · simp [insertEntry, List.lookup_cons, beq_eq_false_iff_ne.2 h, h]
  | (id', text') :: rest => by
    have ih := lookup_insertEntry id text key rest
    unfold insertEntry
    split
    · by_cases h : key = id
      · simp [h]
      · simp [List.lookup_cons, beq_eq_false_iff_ne.2 h, h]
    · next hnlt =>
      split
      · next hgt =>
        by_cases h' : key = id'
        · subst h'
          have : key ≠ id := fun e => String.lt_irrefl _ (e ▸ hgt)
          simp [this]
        · have : (key == id') = false := by simpa using h'
          simp [List.lookup_cons, this, ih]
      · next hngt =>
        obtain rfl := eq_of_not_lt hnlt hngt
        by_cases h : key = id
        · simp [h]
        · simp [List.lookup_cons, beq_eq_false_iff_ne.2 h, h]

/-- **The inserted text is found.** -/
theorem get_insert_self (b : Bundle) (id text : String) : (b.insert id text).get id = some text := by
  simp [get, insert, lookup_insertEntry]

/-- **Inserting one text leaves the others.** -/
theorem get_insert_of_ne (b : Bundle) {id key : String} (text : String) (h : key ≠ id) :
    (b.insert id text).get key = b.get key := by
  simp [get, insert, lookup_insertEntry, h]

theorem lookup_eq_some_iff {id text : String} : ∀ {entries : List (String × String)},
    entries.Pairwise (fun a b => a.1 < b.1) → (entries.lookup id = some text ↔ (id, text) ∈ entries)
  | [], _ => by simp
  | (id', text') :: rest, h => by
    obtain ⟨hhead, htail⟩ := List.pairwise_cons.1 h
    rw [List.lookup_cons, List.mem_cons, Prod.mk.injEq]
    by_cases hid : id = id'
    · -- No other entry has the id of the first.
      have hrest : (id, text) ∉ rest := fun hmem => String.lt_irrefl id (hid ▸ hhead _ hmem)
      simp [hid, hid ▸ hrest, eq_comm]
    · simp [beq_eq_false_iff_ne.2 hid, hid, lookup_eq_some_iff htail]

/-- **What is found is what the bundle holds.** -/
theorem get_eq_some_iff {b : Bundle} {id text : String} : b.get id = some text ↔ (id, text) ∈ b.messages :=
  lookup_eq_some_iff b.ascending

theorem get_eq_none_iff {b : Bundle} {id : String} : b.get id = none ↔ ∀ text, (id, text) ∉ b.messages := by
  simp only [Option.eq_none_iff_forall_ne_some, ne_eq, get_eq_some_iff]

end Bundle
end Stencil
