import Stencil.Proofs.Php.Name
import Stencil.Proofs.Php.Routine
/-!
# Reading — a rendered program is read back

Every line that is written reads as whole tokens (`Lexes`), a script as those of its lines (`WritesAll`), and the tokens
of a body as its statements (`ReadsAs`).  So the text of a program reads as the routines it was rendered from, whatever
its literals hold (`routines?_render`).
-/
namespace Stencil
namespace Php

/-! ## What is written -/

/-- From one buffer to the other some text was added, and it reads as the given tokens. -/
def Writes (ts : List Token) (b b' : SourceBuffer) : Prop :=
  b'.indentation = b.indentation ∧ ∃ added, b'.text = b.text ++ added ∧ Lexes added ts

theorem Writes.refl (b : SourceBuffer) : Writes [] b b := ⟨rfl, "", by rw [String.append_empty], rfl⟩

theorem Writes.trans {ts us : List Token} {b b' b'' : SourceBuffer} (h : Writes ts b b') (h' : Writes us b' b'') :
    Writes (ts ++ us) b b'' := by
  obtain ⟨hi, added, ha, hts⟩ := h
  obtain ⟨hi', added', ha', hus⟩ := h'
  exact ⟨hi'.trans hi, added ++ added', by rw [ha', ha, String.append_assoc], hts.append hus⟩

theorem lexes_margin {indentation : String} (h : Lexes indentation []) :
    ∀ level, Lexes (SourceBuffer.margin indentation level) []
  | 0 => rfl
  | level + 1 => h.append (lexes_margin h level)

theorem writes_line {b : SourceBuffer} (hb : Lexes b.indentation []) {s : String} {ts : List Token} (hs : Lexes s ts) :
    Writes ts b (b.line s) := by
  refine ⟨rfl, SourceBuffer.margin b.indentation b.level ++ s ++ "\n", ?_, ?_⟩
  · rw [SourceBuffer.line, String.append_assoc, String.append_assoc, String.append_assoc]
  · have h := ((lexes_margin hb b.level).append hs).append (show Lexes "\n" [] from rfl)
    rwa [List.nil_append, List.append_nil] at h

theorem runAll_cons_snd (s : Script Empty) (rest : List (Script Empty)) (b : SourceBuffer) :
    (Script.runAll (s :: rest) b).2 = (Script.runAll rest (Script.run s b).2).2 := by
  rw [Script.runAll]
  simp only
  split
  · next cause _ => cases cause
  · rfl

theorem runAll_append_snd (ss ss' : List (Script Empty)) (b : SourceBuffer) :
    (Script.runAll (ss ++ ss') b).2 = (Script.runAll ss' (Script.runAll ss b).2).2 := by
  induction ss generalizing b with
  | nil => rfl
  | cons s ss ih => rw [List.cons_append, runAll_cons_snd, runAll_cons_snd, ih]

/-- A script that cannot fail adds the given tokens to every buffer that is indented by blanks. -/
def WritesAll (ss : List (Script Empty)) (ts : List Token) : Prop :=
  ∀ b : SourceBuffer, Lexes b.indentation [] → Writes ts b (Script.runAll ss b).2

namespace WritesAll

theorem nil : WritesAll [] [] := fun b _ => .refl b

theorem append {ss ss' : List (Script Empty)} {ts ts' : List Token} (h : WritesAll ss ts) (h' : WritesAll ss' ts') :
    WritesAll (ss ++ ss') (ts ++ ts') := by
  intro b hb
  have hw := h b hb
  rw [runAll_append_snd]
  exact hw.trans (h' _ (by rw [hw.1]; exact hb))

theorem line {s : String} {ts : List Token} (h : Lexes s ts) : WritesAll [.line s] ts := by
  intro b hb
  rw [runAll_cons_snd]
  exact writes_line hb h

theorem blank : WritesAll [.blank] [] := by
  intro b _
  rw [runAll_cons_snd]
  exact ⟨rfl, "\n", rfl, rfl⟩

theorem block {header : String} {body : List (Script Empty)} {ts us : List Token}
    (hh : Lexes (header ++ " \x7b") (ts ++ [.mark '\x7b'])) (h : WritesAll body us) :
    WritesAll [.block header body] (ts ++ [.mark '\x7b'] ++ us ++ [.mark '\x7d']) := by
  intro b hb
  rw [runAll_cons_snd]
  have hopen := writes_line hb hh
  have hbody := h (b.line (header ++ " \x7b")).indent hb
  have hclose := writes_line (b := (Script.runAll body (b.line (header ++ " \x7b")).indent).2.dedent)
    (by rw [SourceBuffer.dedent, hbody.1]; exact hb) (show Lexes "\x7d" [.mark '\x7d'] from rfl)
  exact (hopen.trans hbody).trans hclose

end WritesAll

/-! ## What is read -/

def Token.isBreak (t : Token) : Bool := t == .mark '\x7b' || t == .mark '\x7d' || t == .mark ';'

theorem routinesFrom?_append {ts : List Token} (h : ∀ t ∈ ts, t.isBreak = false) (current : Option Routine)
    (pending rest : List Token) :
    routinesFrom? current pending (ts ++ rest) = routinesFrom? current (pending ++ ts) rest := by
  induction ts generalizing pending with
  | nil => rw [List.append_nil, List.nil_append]
  | cons t ts ih =>
    have ht := h t List.mem_cons_self
    simp only [Token.isBreak, Bool.or_eq_false_iff, beq_eq_false_iff_ne] at ht
    obtain ⟨⟨hopen, hclose⟩, hsemi⟩ := ht
    have ih := ih (fun u hu => h u (List.mem_cons_of_mem _ hu)) (pending ++ [t])
    rw [List.append_assoc, List.singleton_append] at ih
    rw [List.cons_append, ← ih]
    cases current with
    | none => rw [routinesFrom?, if_neg hopen]
    | some r => rw [routinesFrom?, if_neg hclose, if_neg hsemi]

/-- Tokens that read as the given statements wherever a statement may start. -/
def ReadsAs (ts : List Token) (ss : List Statement) : Prop :=
  ∀ (r : Routine) (rest : List Token), routinesFrom? (some r) [] (ts ++ rest) =
    routinesFrom? (some { r with statements := r.statements ++ ss }) [] rest

namespace ReadsAs

theorem nil : ReadsAs [] [] := by
  intro r rest
  rw [List.append_nil, List.nil_append]

theorem append {ts us : List Token} {ss ss' : List Statement} (h : ReadsAs ts ss) (h' : ReadsAs us ss') :
    ReadsAs (ts ++ us) (ss ++ ss') := by
  intro r rest
  rw [List.append_assoc, h, h', List.append_assoc]

theorem statement {ts : List Token} {s : Statement} (hs : statement? ts = some s) (ht : ∀ t ∈ ts, t.isBreak = false) :
    ReadsAs (ts ++ [.mark ';']) [s] := by
  intro r rest
  rw [List.append_assoc, routinesFrom?_append ht, List.nil_append, List.singleton_append, routinesFrom?,
    if_neg (by decide), if_pos rfl, hs, Option.bind_some]

end ReadsAs

theorem routinesFrom?_open (pending rest : List Token) : routinesFrom? none pending (.mark '\x7b' :: rest) =
    (opening? pending).bind fun r => routinesFrom? (some r) [] rest := by
  rw [routinesFrom?, if_pos rfl]

theorem routinesFrom?_close (r : Routine) (rest : List Token) :
    routinesFrom? (some r) [] (.mark '\x7d' :: rest) = (routinesFrom? none [] rest).map (r :: ·) := by
  rw [routinesFrom?, if_pos rfl, if_pos rfl]

theorem routinesFrom?_routine {opening body : List Token} {r : Routine} {ss : List Statement}
    (ho : opening? opening = some r) (ht : ∀ t ∈ opening, t.isBreak = false) (hb : ReadsAs body ss) (rest : List Token) :
    routinesFrom? none [] (opening ++ [.mark '\x7b'] ++ body ++ [.mark '\x7d'] ++ rest) =
      (routinesFrom? none [] rest).map ({ r with statements := r.statements ++ ss } :: ·) := by
  simp only [List.append_assoc, List.cons_append, List.nil_append]
  rw [routinesFrom?_append ht, List.nil_append, routinesFrom?_open, ho, Option.bind_some, hb, routinesFrom?_close]

/-! ## Programs -/

def Expression.term : Expression → Term
  | .literal text => .literal text
  | .use v => .var v.name
  | .escaped root keys => .escaped root keys
  | .byDirection ltr rtl => .byDirection rtl ltr

def parameterNames (takesInjected : Bool) : List String := if takesInjected then ["data", "ij"] else ["data"]

def Function.routine (takesInjected : Bool) (f : Function) : Routine where
  name := f.name
  parameters := parameterNames takesInjected
  statements := .assign "output" "" :: (f.definitions.map fun d => .assign d.target.name d.text) ++
    (f.appended.map fun e => .append "output" e.term) ++ [.result "output"]

def Expression.tokens : Expression → List Token
  | .literal text => [.literal text]
  | .use v => [.var v.name]
  | .escaped root keys => [.word "htmlspecialchars", .mark '(', .var root.name] ++
      keys.flatMap (fun key => [.mark '[', .literal key, .mark ']']) ++ [.mark ')']
  | .byDirection ltr rtl => [.mark '(', .word "Bidi", .operator "::", .word "isRtl", .mark '(', .mark ')', .operator "?",
      .literal rtl, .operator ":", .literal ltr, .mark ')']

theorem isBreak_of_mem_tokens {e : Expression} : ∀ t ∈ e.tokens, t.isBreak = false := by
  cases e with
  | escaped root keys =>
    intro t ht
    simp only [Expression.tokens, List.mem_append, List.mem_flatMap, List.mem_cons, List.not_mem_nil, or_false] at ht
    rcases ht with ((rfl | rfl | rfl) | ⟨key, -, rfl | rfl | rfl⟩) | rfl <;> rfl
  | literal text =>
    intro t ht
    rw [List.mem_singleton.1 ht]
    rfl
  | use v =>
    intro t ht
    rw [List.mem_singleton.1 ht]
    rfl
  | byDirection ltr rtl =>
    intro t ht
    simp only [Expression.tokens, List.mem_cons, List.not_mem_nil, or_false] at ht
    rcases ht with rfl | rfl | rfl | rfl | rfl | rfl | rfl | rfl | rfl | rfl | rfl <;> rfl

theorem accessKeys?_tokens (keys : List String) :
    accessKeys? (keys.flatMap (fun key => [.mark '[', .literal key, .mark ']']) ++ [.mark ')']) = some keys := by
  induction keys with
  | nil => rfl
  | cons key keys ih =>
    rw [List.flatMap_cons, List.append_assoc]
    simp only [List.cons_append, List.nil_append, accessKeys?]
    rw [ih, Option.map_some]

theorem term?_tokens (e : Expression) : term? e.tokens = some e.term := by
  cases e with
  | escaped root keys =>
    have hroot : root? root.name = some root := by cases root <;> rfl
    rw [Expression.tokens, List.append_assoc]
    simp only [List.cons_append, List.nil_append, term?]
    rw [hroot, accessKeys?_tokens]
    rfl
  | _ => rfl

theorem lexes_keys (keys : List String) : Lexes (String.join (keys.map fun key => "[" ++ quote key ++ "]"))
    (keys.flatMap fun key => [.mark '[', .literal key, .mark ']']) := by
  induction keys with
  | nil => rfl
  | cons key keys ih =>
    rw [List.map_cons, String.join_cons, List.flatMap_cons]
    have hopen : Lexes "[" [.mark '['] := rfl
    have hclose : Lexes "]" [.mark ']'] := rfl
    exact ((hopen.append (lexes_quote key)).append hclose).append ih

theorem lexes_renderAccess (root : Root) (keys : List String) : Lexes (renderAccess root keys ++ ")")
    (.var root.name :: keys.flatMap (fun key => [.mark '[', .literal key, .mark ']']) ++ [.mark ')']) := by
  have hclose : Lexes ")" [.mark ')'] := rfl
  have hword : ∀ c ∈ root.name.toList, isWordChar c = true := by cases root <;> exact List.all_eq_true.1 rfl
  have hroot : root.render = "$" ++ root.name := by cases root <;> rfl
  rw [renderAccess, hroot, String.append_assoc]
  refine Lexes.var hword ((lexes_keys keys).append hclose) ?_
  cases keys with
  | nil => exact ⟨')', [], rfl, rfl⟩
  | cons key keys =>
    rw [List.map_cons, String.join_cons, String.append_assoc, String.append_assoc, String.append_assoc]
    exact ⟨'[', _, by rw [String.toList_append]; rfl, rfl⟩

theorem lexes_call (root : Root) (keys : List String) :
    Lexes ("htmlspecialchars(" ++ renderAccess root keys ++ ")") (Expression.escaped root keys).tokens := by
  have hcall : Lexes "htmlspecialchars(" [.word "htmlspecialchars", .mark '('] := rfl
  rw [String.append_assoc]
  exact hcall.append (lexes_renderAccess root keys)

theorem lexes_choice (ltr rtl : String) : Lexes ("(" ++ runtimeIsRtl ++ " ? " ++ quote rtl ++ " : " ++ quote ltr ++ ")")
    (Expression.byDirection ltr rtl).tokens := by
  have hcall : Lexes ("(" ++ runtimeIsRtl ++ " ? ") [.mark '(', .word "Bidi", .operator "::", .word "isRtl", .mark '(',
    .mark ')', .operator "?"] := rfl
  have hcolon : Lexes " : " [.operator ":"] := rfl
  have hclose : Lexes ")" [.mark ')'] := rfl
  exact (((hcall.append (lexes_quote rtl)).append hcolon).append (lexes_quote ltr)).append hclose

theorem lexes_render (e : Expression) : Lexes (e.render ++ ";") (e.tokens ++ [.mark ';']) := by
  have hend : Lexes ";" [.mark ';'] := rfl
  cases e with
  | literal text => exact (lexes_quote text).append hend
  | use v =>
    have h := Lexes.var (fun c hc => Variable.isWordChar_of_mem_name (v := v) hc) hend ⟨';', [], rfl, rfl⟩
    rw [← v.render_eq] at h
    exact h
  | escaped root keys => exact (lexes_call root keys).append hend
  | byDirection ltr rtl => exact (lexes_choice ltr rtl).append hend

def LinesRead (ss : List (Script Empty)) (statements : List Statement) : Prop :=
  ∃ ts, WritesAll ss ts ∧ ReadsAs ts statements

namespace LinesRead

theorem nil : LinesRead [] [] := ⟨[], .nil, .nil⟩

theorem append {ss ss' : List (Script Empty)} {rs rs' : List Statement} (h : LinesRead ss rs) (h' : LinesRead ss' rs') :
    LinesRead (ss ++ ss') (rs ++ rs') := by
  obtain ⟨ts, hw, hr⟩ := h
  obtain ⟨ts', hw', hr'⟩ := h'
  exact ⟨ts ++ ts', hw.append hw', hr.append hr'⟩

theorem map {α : Type} {line : α → Script Empty} {statement : α → Statement}
    (h : ∀ a, LinesRead [line a] [statement a]) : ∀ as : List α, LinesRead (as.map line) (as.map statement)
  | [] => nil
  | a :: as => (h a).append (map h as)

theorem line {s : String} (ts : List Token) {statement : Statement} (hl : Lexes s (ts ++ [.mark ';']))
    (hs : statement? ts = some statement) (ht : ∀ t ∈ ts, t.isBreak = false) : LinesRead [.line s] [statement] :=
  ⟨_, .line hl, .statement hs ht⟩

theorem definition (d : Definition) : LinesRead [.line d.render] [.assign d.target.name d.text] := by
  have hend : Lexes ";" [.mark ';'] := rfl
  have hassign : Lexes " = " [.operator "="] := rfl
  have hvar := Lexes.var (fun c hc => Variable.isWordChar_of_mem_name (v := d.target) hc) hassign ⟨' ', _, rfl, rfl⟩
  rw [Definition.render, d.target.render_eq]
  refine line [.var d.target.name, .operator "=", .literal d.text] ?_ rfl ?_
  · exact (hvar.append (lexes_quote d.text)).append hend
  · simp [Token.isBreak]

theorem append_line (e : Expression) :
    LinesRead [.line ("$output .= " ++ e.render ++ ";")] [.append "output" e.term] := by
  have houtput : Lexes "$output .= " [.var "output", .operator ".="] := rfl
  rw [String.append_assoc]
  refine line (.var "output" :: .operator ".=" :: e.tokens) (houtput.append (lexes_render e)) ?_ ?_
  · rw [statement?, term?_tokens, Option.map_some]
  · intro t ht
    rcases List.mem_cons.1 ht with rfl | ht
    · rfl
    · rcases List.mem_cons.1 ht with rfl | ht
      · rfl
      · exact isBreak_of_mem_tokens t ht

end LinesRead

theorem linesRead_body (f : Function) (takesInjected : Bool) :
    LinesRead (.line "$output = '';" :: (f.definitions.map fun d => .line d.render) ++
      (f.appended.map fun e => .line ("$output .= " ++ e.render ++ ";")) ++ [.line "return $output;"])
      (f.routine takesInjected).statements := by
  have hstart : LinesRead [.line "$output = '';"] [.assign "output" ""] :=
    .line [.var "output", .operator "=", .literal ""] rfl rfl (by simp [Token.isBreak])
  have hresult : LinesRead [.line "return $output;"] [.result "output"] :=
    .line [.word "return", .var "output"] rfl rfl (by simp [Token.isBreak])
  exact ((hstart.append (.map .definition f.definitions)).append (.map .append_line f.appended)).append hresult

def parameterTokens (takesInjected : Bool) : List Token :=
  [.word "array", .var "data", .operator "=", .word "array", .mark '(', .mark ')'] ++
    (if takesInjected then
      [.mark ',', .word "array", .var "ij", .operator "=", .word "array", .mark '(', .mark ')'] else []) ++
    [.mark ')']

theorem lexes_parameters (takesInjected : Bool) : Lexes ("(" ++ parameters takesInjected ++ ")" ++ " \x7b")
    (.mark '(' :: parameterTokens takesInjected ++ [.mark '\x7b']) := by
  cases takesInjected <;> rfl

/-- **The text of a function reads as its routine.** -/
theorem writesAll_script {f : Function} (hname : ∀ c ∈ f.name.toList, isWordChar c = true) (takesInjected : Bool) :
    ∃ ts, WritesAll [f.script takesInjected] ts ∧ ∀ rest, routinesFrom? none [] (ts ++ rest) =
      (routinesFrom? none [] rest).map (f.routine takesInjected :: ·) := by
  obtain ⟨body, hw, hr⟩ := linesRead_body f takesInjected
  have hfunction : Lexes "function " [.word "function"] := rfl
  have hparameters := lexes_parameters takesInjected
  have hheader : "function " ++ f.name ++ "(" ++ parameters takesInjected ++ ")" ++ " \x7b" =
      "function " ++ (f.name ++ ("(" ++ parameters takesInjected ++ ")" ++ " \x7b")) := by
    simp only [String.append_assoc]
  obtain ⟨opening, hl, ho, ht⟩ : ∃ opening, Lexes (f.name ++ ("(" ++ parameters takesInjected ++ ")" ++ " \x7b"))
      (opening ++ [.mark '\x7b']) ∧ opening? (.word "function" :: opening) =
        some { name := f.name, parameters := parameterNames takesInjected } ∧ ∀ t ∈ opening, t.isBreak = false := by
    by_cases hne : f.name = ""
    · refine ⟨.mark '(' :: parameterTokens takesInjected, ?_, ?_, ?_⟩
      · rw [hne, String.empty_append]
        exact hparameters
      · rw [hne]
        cases takesInjected <;> rfl
      · cases takesInjected <;> decide
    · refine ⟨.word f.name :: .mark '(' :: parameterTokens takesInjected, ?_, ?_, ?_⟩
      · exact Lexes.word hne hname hparameters ⟨'(', _, by simp only [String.toList_append]; rfl, rfl⟩
      · cases takesInjected <;> rfl
      · intro t htm
        rcases List.mem_cons.1 htm with rfl | htm
        · rfl
        · clear hheader hparameters
          cases takesInjected with
          | false => exact (by decide : ∀ t ∈ .mark '(' :: parameterTokens false, t.isBreak = false) t htm
          | true => exact (by decide : ∀ t ∈ .mark '(' :: parameterTokens true, t.isBreak = false) t htm
  have hopening : Lexes ("function " ++ f.name ++ "(" ++ parameters takesInjected ++ ")" ++ " \x7b")
      (.word "function" :: opening ++ [.mark '\x7b']) := by
    rw [hheader]
    exact hfunction.append hl
  refine ⟨_, WritesAll.block hopening hw, fun rest => ?_⟩
  refine (routinesFrom?_routine ho ?_ hr rest).trans ?_
  · intro t htm
    rcases List.mem_cons.1 htm with rfl | htm
    · rfl
    · exact ht t htm
  · rfl

theorem writesAll_functions (takesInjected : Bool) : ∀ fs : List Function,
    (∀ f ∈ fs, ∀ c ∈ f.name.toList, isWordChar c = true) →
    ∃ ts, WritesAll (fs.flatMap fun f => [.blank, f.script takesInjected]) ts ∧
      routinesFrom? none [] ts = some (fs.map (Function.routine takesInjected))
  | [], _ => ⟨[], .nil, rfl⟩
  | f :: fs, h => by
    obtain ⟨us, hus, hread⟩ := writesAll_functions takesInjected fs fun g hg => h g (List.mem_cons_of_mem _ hg)
    obtain ⟨ts, hts, hf⟩ := writesAll_script (h f List.mem_cons_self) takesInjected
    refine ⟨ts ++ us, (WritesAll.blank.append hts).append hus, ?_⟩
    rw [hf, hread, Option.map_some, List.map_cons]

theorem runAll_lines (indentation : String) (lines : List String) (text : String) :
    (Script.runAll (lines.map Script.line : List (Script Empty)) { indentation, text }).2 =
      { indentation, text := text ++ String.join (lines.map (· ++ "\n")) } := by
  induction lines generalizing text with
  | nil =>
    rw [List.map_nil, List.map_nil, String.join_nil, String.append_empty]
    rfl
  | cons s lines ih =>
    have hline : SourceBuffer.line { indentation, text } s = { indentation, text := text ++ (s ++ "\n") } := by
      rw [SourceBuffer.line, SourceBuffer.margin, String.append_empty, String.append_assoc]
    rw [List.map_cons, List.map_cons, String.join_cons, ← String.append_assoc, ← ih, ← hline]
    rfl

theorem runAll_banner (origin : String) : (Script.runAll ((banner origin).map Script.line : List (Script Empty))
    { indentation := "    " }).2 = { indentation := "    ", text := preamble origin } := by
  have hfront : "<?php\n// This file was automatically generated from " =
      "<?php" ++ ("\n" ++ "// This file was automatically generated from ") :=
    String.toList_inj.1 (by rw [String.toList_append, String.toList_append]; rfl)
  have hback : ".\n// Please don't edit this file by hand.\n" =
      "." ++ ("\n" ++ ("// Please don't edit this file by hand." ++ "\n")) :=
    String.toList_inj.1 (by rw [String.toList_append, String.toList_append, String.toList_append]; rfl)
  unfold preamble
  rw [runAll_lines, hfront, hback, banner]
  simp only [List.map_cons, List.map_nil, String.join_cons, String.join_nil, String.append_assoc, String.empty_append]
  rfl

/-- **A rendered program is read back.** -/
theorem routines?_render {p : File} (hp : ∀ f ∈ p.functions, ∀ c ∈ f.name.toList, isWordChar c = true) :
    routines? p.origin p.render = some (p.functions.map (Function.routine p.takesInjected)) := by
  obtain ⟨ts, hw, hread⟩ := writesAll_functions p.takesInjected p.functions hp
  obtain ⟨-, added, htext, hl⟩ := hw { indentation := "    ", text := preamble p.origin }
    (show Lexes "    " [] from rfl)
  have hrender : p.render = preamble p.origin ++ added := by
    rw [File.render, Script.render, File.script, runAll_append_snd, runAll_banner, htext]
  rw [routines?, hrender, String.toList_append, List.isPrefixOf?_eq_some_iff_append_eq.2 rfl]
  have htokens : tokens? added.toList = some ts := by
    rw [tokens?, hl]
    simp only [Reading.finish?, Option.map_some, List.append_nil]
  simp only [Option.bind_eq_bind, Option.bind_some, htokens, hread]

end Php
end Stencil
