import Mathlib.Tactic.SplitIfs
import Stencil.Proofs.Json.Number
/-!
# Lexing — a written text, read as its lexemes

`Closed` is a text that reads as the same lexemes whatever comes next, `Lexes` one that needs a blank, a mark or a quote
after it, since a word in it may go on, and `Follows` a closed text that starts with one.  They compose, and so both
layouts of a value read as its lexemes (`lexes_render`, `lexes_prettyAt`).  Quoted texts are closed and give the text back
(`closed_quoteText`).
-/
namespace Stencil
namespace Json

/-! ## Judgments -/

/-- The lexemes at the end of a text. -/
def Scanner.lexemes? (s : Scanner) (text : List Char) : Option (List Token) := (text.foldlM Scanner.step s).bind Scanner.finish

theorem Scanner.lexemes?_cons (s : Scanner) (c : Char) (text : List Char) :
    s.lexemes? (c :: text) = (s.step c).bind fun s => s.lexemes? text := by
  rw [lexemes?, List.foldlM_cons]
  cases s.step c <;> rfl

/-- A text that no word before it runs into. -/
def EndsWord (text : List Char) : Prop := ∀ c ∈ text.head?, Scanner.endsWord c = true

/-- A text that reads as the lexemes, whatever comes next. -/
def Closed (s : String) (ts : List Token) : Prop := ∀ before rest,
  Scanner.lexemes? ⟨.between, before⟩ (s.toList ++ rest) = Scanner.lexemes? ⟨.between, ts.reverse ++ before⟩ rest

/-- A text that reads as the lexemes where no word goes on after it. -/
def Lexes (s : String) (ts : List Token) : Prop := ∀ before rest, EndsWord rest →
  Scanner.lexemes? ⟨.between, before⟩ (s.toList ++ rest) = Scanner.lexemes? ⟨.between, ts.reverse ++ before⟩ rest

/-- A closed text that may come after a word. -/
structure Follows (s : String) (ts : List Token) : Prop where
  closed : Closed s ts
  endsWord : ∀ rest, EndsWord (s.toList ++ rest)

theorem Closed.lexes {s : String} {ts : List Token} (h : Closed s ts) : Lexes s ts := fun before rest _ => h before rest

theorem Closed.append {s s' : String} {ts ts' : List Token} (h : Closed s ts) (h' : Closed s' ts') :
    Closed (s ++ s') (ts ++ ts') := by
  intro before rest
  rw [String.toList_append, List.append_assoc, h, h', List.reverse_append, List.append_assoc]

theorem Lexes.append {s s' : String} {ts ts' : List Token} (h : Lexes s ts) (h' : Follows s' ts') :
    Closed (s ++ s') (ts ++ ts') := by
  intro before rest
  rw [String.toList_append, List.append_assoc, h _ _ (h'.endsWord rest), h'.closed, List.reverse_append,
    List.append_assoc]

theorem Follows.append {s s' : String} {ts ts' : List Token} (h : Follows s ts) (h' : Closed s' ts') :
    Follows (s ++ s') (ts ++ ts') := by
  refine ⟨h.closed.append h', fun rest => ?_⟩
  rw [String.toList_append, List.append_assoc]
  exact h.endsWord (s'.toList ++ rest)

/-- **A whole text reads as its lexemes.** -/
theorem Lexes.tokens? {s : String} {ts : List Token} (h : Lexes s ts) : tokens? s.toList = some ts := by
  have hscan := h [] [] (fun _ hc => nomatch hc)
  rw [List.append_nil, List.append_nil] at hscan
  calc Json.tokens? s.toList = Scanner.lexemes? ⟨.between, []⟩ s.toList := rfl
    _ = Scanner.lexemes? ⟨.between, ts.reverse⟩ [] := hscan
    _ = some ts.reverse.reverse := rfl
    _ = some ts := by rw [List.reverse_reverse]

/-! ## Marks, blanks and words -/

theorem follows_mark {c : Char} {t : Token} (ht : mark? c = some t) (hb : isBlank c = false) (hq : c ≠ '"') :
    Follows (String.ofList [c]) [t] := by
  refine ⟨fun before rest => ?_, fun rest d hd => ?_⟩
  · rw [String.toList_ofList, List.singleton_append, Scanner.lexemes?_cons, Scanner.step, Scanner.between, hb, ht]
    simp only [Bool.false_eq_true, if_false, if_neg hq]
    rfl
  · rw [String.toList_ofList] at hd
    cases hd
    rw [Scanner.endsWord, ht]
    simp

theorem follows_blank {c : Char} (hb : isBlank c = true) : Follows (String.ofList [c]) [] := by
  refine ⟨fun before rest => ?_, fun rest d hd => ?_⟩
  · rw [String.toList_ofList, List.singleton_append, Scanner.lexemes?_cons, Scanner.step, Scanner.between, if_pos hb]
    rfl
  · rw [String.toList_ofList] at hd
    cases hd
    rw [Scanner.endsWord, hb, Bool.true_or, Bool.true_or]

theorem closed_blanks : ∀ s : List Char, (∀ c ∈ s, isBlank c = true) → Closed (String.ofList s) []
  | [], _ => fun _ _ => rfl
  | c :: s, h => by
    have hs : String.ofList (c :: s) = String.ofList [c] ++ String.ofList s := by
      rw [← String.ofList_append, List.singleton_append]
    rw [hs]
    exact (follows_blank (h c List.mem_cons_self)).closed.append
      (closed_blanks s fun d hd => h d (List.mem_cons_of_mem _ hd))

theorem follows_newline (depth : Nat) : Follows (newline depth) [] := by
  have hs : newline depth = String.ofList ['\n'] ++ String.ofList (List.replicate (2 * depth) ' ') := by
    rw [← String.ofList_append, List.singleton_append, newline]
  rw [hs]
  refine (follows_blank rfl).append (closed_blanks _ fun c hc => ?_)
  rw [List.eq_of_mem_replicate hc]
  rfl

theorem lexemes?_word (before : List Token) (rest : List Char) : ∀ (s read : List Char),
    (∀ c ∈ s, Scanner.endsWord c = false) →
      Scanner.lexemes? ⟨.word read, before⟩ (s ++ rest) = Scanner.lexemes? ⟨.word (s.reverse ++ read), before⟩ rest
  | [], _, _ => rfl
  | c :: s, read, h => by
    have hc := h c List.mem_cons_self
    rw [List.cons_append, Scanner.lexemes?_cons, Scanner.step]
    simp only [hc, Bool.false_eq_true, if_false, Option.bind_some]
    rw [lexemes?_word before rest s _ fun d hd => h d (List.mem_cons_of_mem _ hd), List.reverse_cons, List.append_assoc,
      List.singleton_append]

theorem lexes_word {s : String} {v : Json} (hne : s.toList ≠ []) (hany : s.toList.any Scanner.endsWord = false)
    (hv : word? s.toList = some v) : Lexes s [.scalar v] := by
  intro before rest hrest
  have hs : ∀ c ∈ s.toList, Scanner.endsWord c = false :=
    fun c hc => Bool.eq_false_iff.2 (List.any_eq_false.1 hany c hc)
  obtain ⟨c, w, hw⟩ := List.exists_cons_of_ne_nil hne
  rw [hw] at hs hv ⊢
  have hc := hs c List.mem_cons_self
  have hstart : Scanner.between before c = ⟨.word [c], before⟩ := by
    simp only [Scanner.endsWord, Bool.or_eq_false_iff, beq_eq_false_iff_ne, Option.isSome_eq_false_iff,
      Option.isNone_iff_eq_none] at hc
    obtain ⟨⟨hb, hq⟩, hm⟩ := hc
    rw [Scanner.between, hb, if_neg (by decide), if_neg hq, hm]
  have hread : (w.reverse ++ [c]).reverse = c :: w := by simp
  rw [List.cons_append, Scanner.lexemes?_cons, Scanner.step]
  simp only [hstart, Option.bind_some]
  rw [lexemes?_word before rest w [c] fun d hd => hs d (List.mem_cons_of_mem _ hd)]
  cases rest with
  | nil =>
    simp only [Scanner.lexemes?, List.foldlM_nil, pure, Option.bind_some, Scanner.finish, hread, hv]
    rfl
  | cons d rest =>
    have hd : Scanner.endsWord d = true := hrest d rfl
    rw [Scanner.lexemes?_cons, Scanner.lexemes?_cons, Scanner.step]
    simp only [hd, if_true, hread, hv]
    rfl

/-! ## Quoted texts -/

theorem hexDigit?_digitChar : ∀ d < 16, hexDigit? (Nat.digitChar d) = some d := by decide

theorem lexemes?_hexQuad {n : Nat} (hn : n < 65536) (units : List Nat) (before : List Token) (rest : List Char) :
    Scanner.lexemes? ⟨.hex units 3 0, before⟩ (hexQuad n ++ rest) = Scanner.lexemes? ⟨.text (n :: units), before⟩ rest := by
  have hdigit : ∀ m, hexDigit? (Nat.digitChar (m % 16)) = some (m % 16) := fun m =>
    hexDigit?_digitChar _ (Nat.mod_lt _ (by decide))
  simp only [hexQuad, List.map_cons, List.map_nil, List.cons_append, List.nil_append, Scanner.lexemes?_cons, Scanner.step,
    hdigit, Option.map_some, Option.bind_some]
  have hvalue : (((0 * 16 + n / 4096 % 16) * 16 + n / 256 % 16) * 16 + n / 16 % 16) * 16 + n % 16 = n := by omega
  rw [hvalue]

theorem lexemes?_quoteChar (c : Char) (units : List Nat) (before : List Token) (rest : List Char) :
    Scanner.lexemes? ⟨.text units, before⟩ (quoteChar c ++ rest) =
      Scanner.lexemes? ⟨.text (c.toNat :: units), before⟩ rest := by
  unfold quoteChar
  split_ifs with hq hb _ _ _ _ _ hc
  -- First the characters with an escape of their own, then the control characters left, then all others.
  iterate 7 (subst c; rfl)
  · exact lexemes?_hexQuad (by omega) units before rest
  · rw [List.singleton_append, Scanner.lexemes?_cons, Scanner.step]
    simp only [if_neg hq, if_neg hb, if_neg hc, Option.bind_some]

theorem lexemes?_flatMap_quoteChar (before : List Token) (rest : List Char) : ∀ (s : List Char) (units : List Nat),
    Scanner.lexemes? ⟨.text units, before⟩ (s.flatMap quoteChar ++ rest) =
      Scanner.lexemes? ⟨.text ((s.map Char.toNat).reverse ++ units), before⟩ rest
  | [], _ => rfl
  | c :: s, units => by
    rw [List.flatMap_cons, List.append_assoc, lexemes?_quoteChar, lexemes?_flatMap_quoteChar before rest s, List.map_cons,
      List.reverse_cons, List.append_assoc, List.singleton_append]

/-- **A quoted text reads as that text.** -/
theorem closed_quoteText (t : Option String) : Closed (quoteText t) [.scalar (.text t)] := by
  intro before rest
  cases t with
  | none => rfl
  | some s =>
    have hunits : Text.ofUnits ((s.toList.map Char.toNat).reverse ++ []).reverse = some s.toList := by
      rw [List.append_nil, List.reverse_reverse, Text.ofUnits_map_toNat]
    rw [quoteText, quote, String.toList_ofList, List.cons_append, List.append_assoc, Scanner.lexemes?_cons]
    show Scanner.lexemes? ⟨.text [], before⟩ _ = _
    rw [lexemes?_flatMap_quoteChar, List.singleton_append, Scanner.lexemes?_cons, Scanner.step]
    simp only [if_true, hunits, Option.map_some, String.ofList_toList]
    rfl

/-! ## Values -/

mutual

/-- The lexemes of a value. -/
def lexemes : Json → List Token
  | .array [] => [.openArray, .closeArray]
  | .array (j :: js) => .openArray :: (lexemes j ++ itemLexemes js)
  | .object [] => [.openObject, .closeObject]
  | .object ((key, j) :: ms) => .openObject :: .scalar (.text key) :: .colon :: (lexemes j ++ memberLexemes ms)
  | v => [.scalar v]

/-- The lexemes of the items after the first, and of the end of the array. -/
def itemLexemes : List Json → List Token
  | [] => [.closeArray]
  | j :: js => .comma :: (lexemes j ++ itemLexemes js)

/-- The lexemes of the members after the first, and of the end of the object. -/
def memberLexemes : List (Option String × Json) → List Token
  | [] => [.closeObject]
  | (key, j) :: ms => .comma :: .scalar (.text key) :: .colon :: (lexemes j ++ memberLexemes ms)

end

theorem lexes_null : Lexes "null" [.scalar .null] := lexes_word (by decide) rfl rfl

theorem lexes_bool (b : Bool) : Lexes (renderBool b) [.scalar (.bool b)] := by
  cases b with
  | false => exact lexes_word (by decide) rfl rfl
  | true => exact lexes_word (by decide) rfl rfl

theorem mem_of_endsWord {c : Char} (h : Scanner.endsWord c = true) :
    c ∈ [' ', '\t', '\n', '\r', '"', '\x7b', '\x7d', '[', ']', ':', ','] := by
  simp only [Scanner.endsWord, isBlank, mark?, Bool.or_eq_true, beq_iff_eq] at h
  split_ifs at h <;> simp_all [or_assoc]

theorem endsWord_of_isNumeric {c : Char} (h : IsNumeric c) : Scanner.endsWord c = false := by
  refine Bool.eq_false_iff.2 fun he => ?_
  have hnone : ([' ', '\t', '\n', '\r', '"', '\x7b', '\x7d', '[', ']', ':', ','].any fun d =>
      d.isDigit || d == '-' || d == 'e') = false := rfl
  refine List.any_eq_false.1 hnone c (mem_of_endsWord he) ?_
  rw [Bool.or_eq_true, Bool.or_eq_true, beq_iff_eq, beq_iff_eq, or_assoc]
  exact h

theorem lexes_number (n : Number) : Lexes (renderNumber n) [.scalar (.number n)] := by
  have hword := word?_renderNumber n
  have hany : (renderNumber n).toList.any Scanner.endsWord = false := List.any_eq_false.2 fun c hc =>
    Bool.eq_false_iff.1 (endsWord_of_isNumeric (isNumeric_of_mem_renderNumber hc))
  refine lexes_word (fun h => ?_) hany hword
  rw [h] at hword
  cases hword

theorem follows_openArray : Follows "[" [.openArray] := follows_mark (c := '[') rfl rfl (by decide)

theorem follows_closeArray : Follows "]" [.closeArray] := follows_mark (c := ']') rfl rfl (by decide)

theorem follows_openObject : Follows "\x7b" [.openObject] := follows_mark (c := '\x7b') rfl rfl (by decide)

theorem follows_closeObject : Follows "\x7d" [.closeObject] := follows_mark (c := '\x7d') rfl rfl (by decide)

theorem follows_comma : Follows "," [.comma] := follows_mark (c := ',') rfl rfl (by decide)

theorem follows_colon : Follows ":" [.colon] := follows_mark (c := ':') rfl rfl (by decide)

theorem closed_colonBlank : Closed ": " [.colon] := (follows_colon.append (follows_blank (c := ' ') rfl).closed).closed

/-- A member in a layout, up to what follows it. -/
theorem closed_member (key : Option String) {colon s tail : String} {ts ts' : List Token} (hcolon : Closed colon [.colon])
    (hs : Lexes s ts) (htail : Follows tail ts') :
    Closed (quoteText key ++ (colon ++ (s ++ tail))) (.scalar (.text key) :: .colon :: (ts ++ ts')) :=
  (closed_quoteText key).append (hcolon.append (hs.append htail))

/-- The end of an array or object on a line of its own. -/
theorem follows_newline_append {s : String} {ts : List Token} (depth : Nat) (h : Follows s ts) :
    Follows (newline depth ++ s) ts := (follows_newline depth).append h.closed

mutual

/-- **A value on one line reads as its lexemes.** -/
theorem lexes_render : ∀ j : Json, Lexes j.render (lexemes j)
  | .null => lexes_null
  | .bool b => lexes_bool b
  | .number n => lexes_number n
  | .text t => (closed_quoteText t).lexes
  | .array [] => (follows_openArray.append follows_closeArray.closed).closed.lexes
  | .array (j :: js) => by
    rw [render, String.append_assoc, String.append_assoc]
    exact (follows_openArray.closed.append ((lexes_render j).append (follows_renderItems js))).lexes
  | .object [] => (follows_openObject.append follows_closeObject.closed).closed.lexes
  | .object ((key, j) :: ms) => by
    rw [render, String.append_assoc, String.append_assoc, String.append_assoc, String.append_assoc]
    exact (follows_openObject.closed.append
      (closed_member key follows_colon.closed (lexes_render j) (follows_renderMembers ms))).lexes

theorem follows_renderItems : ∀ js : List Json, Follows (renderItems js ++ "]") (itemLexemes js)
  | [] => follows_closeArray
  | j :: js => by
    rw [renderItems, String.append_assoc, String.append_assoc]
    exact follows_comma.append ((lexes_render j).append (follows_renderItems js))

theorem follows_renderMembers : ∀ ms : List (Option String × Json), Follows (renderMembers ms ++ "\x7d") (memberLexemes ms)
  | [] => follows_closeObject
  | (key, j) :: ms => by
    rw [renderMembers, String.append_assoc, String.append_assoc, String.append_assoc, String.append_assoc]
    exact follows_comma.append
      (closed_member key follows_colon.closed (lexes_render j) (follows_renderMembers ms))

end

mutual

/-- **A value on lines of its own reads as the same lexemes.** -/
theorem lexes_prettyAt (depth : Nat) : ∀ j : Json, Lexes (j.prettyAt depth) (lexemes j)
  | .null => lexes_null
  | .bool b => lexes_bool b
  | .number n => lexes_number n
  | .text t => (closed_quoteText t).lexes
  | .array [] => (follows_openArray.append follows_closeArray.closed).closed.lexes
  | .array (j :: js) => by
    rw [prettyAt, String.append_assoc, String.append_assoc, String.append_assoc, String.append_assoc]
    exact (follows_openArray.closed.append ((follows_newline _).closed.append
      ((lexes_prettyAt (depth + 1) j).append (follows_prettyItems depth (depth + 1) js)))).lexes
  | .object [] => (follows_openObject.append follows_closeObject.closed).closed.lexes
  | .object ((key, j) :: ms) => by
    rw [prettyAt, String.append_assoc, String.append_assoc, String.append_assoc, String.append_assoc,
      String.append_assoc, String.append_assoc]
    exact (follows_openObject.closed.append ((follows_newline _).closed.append
      (closed_member key closed_colonBlank (lexes_prettyAt (depth + 1) j)
        (follows_prettyMembers depth (depth + 1) ms)))).lexes

theorem follows_prettyItems (outer depth : Nat) :
    ∀ js : List Json, Follows (prettyItems depth js ++ (newline outer ++ "]")) (itemLexemes js)
  | [] => by
    rw [prettyItems, String.empty_append]
    exact follows_newline_append outer follows_closeArray
  | j :: js => by
    rw [prettyItems, String.append_assoc, String.append_assoc, String.append_assoc]
    exact follows_comma.append ((follows_newline _).closed.append
      ((lexes_prettyAt depth j).append (follows_prettyItems outer depth js)))

theorem follows_prettyMembers (outer depth : Nat) : ∀ ms : List (Option String × Json),
    Follows (prettyMembers depth ms ++ (newline outer ++ "\x7d")) (memberLexemes ms)
  | [] => by
    rw [prettyMembers, String.empty_append]
    exact follows_newline_append outer follows_closeObject
  | (key, j) :: ms => by
    rw [prettyMembers, String.append_assoc, String.append_assoc, String.append_assoc, String.append_assoc,
      String.append_assoc]
    exact follows_comma.append ((follows_newline _).closed.append
      (closed_member key closed_colonBlank (lexes_prettyAt depth j) (follows_prettyMembers outer depth ms)))

end

end Json
end Stencil
