import Stencil.Proofs.Php.Quoted
/-!
# Token — generated code as a reader sees it

A reader goes through the text once, character by character.  Words, variables and operators go on as long as they can;
any other character outside a literal stands for itself, blanks apart.  A single-quoted literal ends at the first quote
that no backslash escapes; a backslash escapes a quote or a backslash, and anywhere else it is itself.  The literal that
is written for a text reads as that text, whatever follows it (`lexes_quote`).
-/
namespace Stencil
namespace Php

inductive Token
  | word (name : String)
  | var (name : String)
  | operator (symbol : String)
  | mark (c : Char)
  | literal (text : String)
deriving Repr, DecidableEq

/-- What a reader is in the middle of, with the characters of it that were read. -/
inductive Reading
  | between
  | word (read : List Char)
  | var (read : List Char)
  | operator (read : List Char)
  | literal (read : List Char)
  /-- In a literal, after a backslash. -/
  | backslash (read : List Char)
deriving Repr, DecidableEq

def isBlank (c : Char) : Bool := c == ' ' || c == '\n' || c == '\t' || c == '\r'

def isWordChar (c : Char) : Bool := c.isAlphanum || c == '_'

def isOperatorChar (c : Char) : Bool := c == '.' || c == '=' || c == '?' || c == ':'

namespace Reading

def start (c : Char) : List Token × Reading :=
  if isBlank c then ([], between)
  else if c = '\'' then ([], literal [])
  else if c = '$' then ([], var [])
  else if isWordChar c then ([], word [c])
  else if isOperatorChar c then ([], operator [c])
  else ([.mark c], between)

/-- One more character of a run, or the first one after it. -/
def go (run : List Char → Reading) (token : String → Token) (inRun : Char → Bool) (read : List Char) (c : Char) :
    List Token × Reading :=
  if inRun c then ([], run (read ++ [c])) else (token (.ofList read) :: (start c).1, (start c).2)

/-- The tokens that a character completes, and what the reader is in afterwards. -/
def step : Reading → Char → List Token × Reading
  | between, c => start c
  | word read, c => go word .word isWordChar read c
  | var read, c => go var .var isWordChar read c
  | operator read, c => go operator .operator isOperatorChar read c
  | literal read, c =>
    if c = '\'' then ([.literal (.ofList read)], between)
    else if c = '\\' then ([], backslash read)
    else ([], literal (read ++ [c]))
  | backslash read, c =>
    if c = '\'' ∨ c = '\\' then ([], literal (read ++ [c])) else ([], literal (read ++ ['\\', c]))

def scan : Reading → List Char → List Token × Reading
  | r, [] => ([], r)
  | r, c :: cs =>
    let rest := scan (step r c).2 cs
    ((step r c).1 ++ rest.1, rest.2)

/-- The token that the end of the text completes; a literal has to be closed. -/
def finish? : Reading → Option (List Token)
  | between => some []
  | word read => some [.word (.ofList read)]
  | var read => some [.var (.ofList read)]
  | operator read => some [.operator (.ofList read)]
  | literal _ | backslash _ => none

theorem scan_append (s t : List Char) (r : Reading) :
    scan r (s ++ t) = ((scan r s).1 ++ (scan (scan r s).2 t).1, (scan (scan r s).2 t).2) := by
  induction s generalizing r with
  | nil => rfl
  | cons c s ih => rw [List.cons_append, scan, ih, scan, List.append_assoc]

theorem scan_backslash {c : Char} (hq : c ≠ '\'') (hb : c ≠ '\\') (s read : List Char) :
    scan (backslash read) (c :: s) = scan (literal (read ++ ['\\'])) (c :: s) := by
  rw [scan, scan]
  simp only [step, hq, hb, or_self, if_false, List.append_assoc, List.cons_append, List.nil_append]

/-- In a literal the scanner reads what a reader of literals reads. -/
theorem scan_inside {s : List Char} {r : List Char × List Char} (h : inside? s = some r) (read : List Char) :
    scan (literal read) s =
      (.literal (.ofList (read ++ r.1)) :: (scan between r.2).1, (scan between r.2).2) := by
  fun_induction inside? s generalizing r read with
  | case1 rest =>
    cases h
    rw [List.append_nil, scan]
    rfl
  | case2 rest ih =>
    obtain ⟨q, hq, rfl⟩ := Option.map_eq_some_iff.1 h
    have hread := ih hq (read ++ ['\\'])
    rw [List.append_assoc] at hread
    exact hread
  | case3 rest ih =>
    obtain ⟨q, hq, rfl⟩ := Option.map_eq_some_iff.1 h
    have hread := ih hq (read ++ ['\''])
    rw [List.append_assoc] at hread
    exact hread
  | case4 c rest hquote hback hbackQuote ih =>
    obtain ⟨q, hq, rfl⟩ := Option.map_eq_some_iff.1 h
    have hread := ih hq (read ++ [c])
    rw [List.append_assoc] at hread
    refine Eq.trans ?_ hread
    by_cases hc : c = '\\'
    · subst hc
      cases rest with
      | nil => cases hq
      | cons d rest =>
        have hd : d ≠ '\'' := fun h => hbackQuote rest rfl (by rw [h])
        have hd' : d ≠ '\\' := fun h => hback rest rfl (by rw [h])
        exact scan_backslash hd hd' rest read
    · rw [scan]
      simp only [step, if_neg hquote, if_neg hc, List.nil_append]
  | case5 => cases h

theorem scan_run (run : List Char → Reading) {token : String → Token} {inRun : Char → Bool}
    (hstep : ∀ read c, step (run read) c = go run token inRun read c) {s : List Char} (hs : ∀ c ∈ s, inRun c = true)
    {d : Char} (hd : inRun d = false) (t read : List Char) :
    scan (run read) (s ++ d :: t) =
      (token (.ofList (read ++ s)) :: (scan between (d :: t)).1, (scan between (d :: t)).2) := by
  induction s generalizing read with
  | nil =>
    rw [List.nil_append, List.append_nil, scan, scan, hstep, go, hd]
    rfl
  | cons c s ih =>
    have hc : inRun c = true := hs c List.mem_cons_self
    rw [List.cons_append, scan, hstep, go, if_pos hc, ih fun e he => hs e (List.mem_cons_of_mem _ he)]
    simp only [List.nil_append, List.append_assoc, List.singleton_append]

end Reading

theorem start_of_isWordChar {c : Char} (h : isWordChar c = true) : Reading.start c = ([], .word [c]) := by
  have hb : isBlank c = false := by
    cases hb : isBlank c with
    | false => rfl
    | true =>
      simp only [isBlank, Bool.or_eq_true, beq_iff_eq] at hb
      rcases hb with ((rfl | rfl) | rfl) | rfl <;> exact absurd h (by decide)
  have hq : c ≠ '\'' := by
    rintro rfl
    exact absurd h (by decide)
  have hd : c ≠ '$' := by
    rintro rfl
    exact absurd h (by decide)
  rw [Reading.start, hb, if_neg (by decide), if_neg hq, if_neg hd, if_pos h]

/-- A text that reads as whole tokens, whatever comes next. -/
def Lexes (s : String) (ts : List Token) : Prop := Reading.scan .between s.toList = (ts, .between)

def tokens? (s : List Char) : Option (List Token) :=
  let r := Reading.scan .between s
  r.2.finish?.map (r.1 ++ ·)

theorem Lexes.append {s t : String} {ss ts : List Token} (hs : Lexes s ss) (ht : Lexes t ts) :
    Lexes (s ++ t) (ss ++ ts) := by
  unfold Lexes at *
  rw [String.toList_append, Reading.scan_append, hs]
  simp only [ht]

/-- A text that no word runs into. -/
def EndsWord (t : String) : Prop := ∃ d rest, t.toList = d :: rest ∧ isWordChar d = false

theorem Lexes.word {name t : String} {ts : List Token} (hne : name ≠ "") (hname : ∀ c ∈ name.toList, isWordChar c = true)
    (ht : Lexes t ts) (he : EndsWord t) : Lexes (name ++ t) (.word name :: ts) := by
  obtain ⟨d, rest, hd, hdw⟩ := he
  unfold Lexes at *
  rcases hn : name.toList with _ | ⟨c, s⟩
  · exact absurd (String.toList_eq_nil_iff.1 hn) hne
  · rw [hn] at hname
    have hstart := start_of_isWordChar (hname c List.mem_cons_self)
    have hrun := Reading.scan_run .word (fun _ _ => rfl) (fun e he => hname e (List.mem_cons_of_mem _ he)) hdw
      rest [c]
    rw [String.toList_append, hn, List.cons_append, Reading.scan, Reading.step, hstart, hd]
    simp only
    rw [hrun, ← hd, ht, List.singleton_append, ← hn, String.ofList_toList]
    rfl

theorem Lexes.var {name t : String} {ts : List Token} (hname : ∀ c ∈ name.toList, isWordChar c = true)
    (ht : Lexes t ts) (he : EndsWord t) : Lexes ("$" ++ name ++ t) (.var name :: ts) := by
  obtain ⟨d, rest, hd, hdw⟩ := he
  unfold Lexes at *
  have hrun := Reading.scan_run .var (fun _ _ => rfl) hname hdw rest []
  have hdollar : ("$" ++ name ++ t).toList = '$' :: (name.toList ++ d :: rest) := by
    rw [String.toList_append, String.toList_append, hd]
    rfl
  rw [hdollar, Reading.scan, show Reading.between.step '$' = ([], .var []) from rfl]
  simp only
  rw [hrun, ← hd, ht]
  simp only [List.nil_append, String.ofList_toList]

/-- **A literal reads as its text.** -/
theorem lexes_quote (s : String) : Lexes (quote s) [.literal s] := by
  unfold Lexes quote
  rw [String.toList_ofList, Reading.scan]
  have h := Reading.scan_inside (inside?_escape_append s.toList []) []
  rw [List.nil_append, String.ofList_toList] at h
  rw [show Reading.between.step '\'' = ([], .literal []) from rfl]
  exact h

example : tokens? "'it\\'s \\n'".toList = some [.literal "it's \\n"] := rfl

end Php
end Stencil
