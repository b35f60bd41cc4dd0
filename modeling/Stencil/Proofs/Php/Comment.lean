import Stencil.Proofs.Php.Compile
import Stencil.Proofs.SourceBuffer
/-!
# Comment — the line that names the template file

A line comment ends at the first line feed, carriage return or closing tag.  The path of a template file is written into
such a comment as it is, so it stays inside of it exactly when it holds none of the three (`emit_path_in_comment_iff`).
All other text of a file is the same for every path, so that, for paths that stay inside, only the comment tells two files
apart.
-/
namespace Stencil
namespace Php

/-! ## Line comments -/

/-- Whether a line comment ends before a character and what follows it. -/
def EndsComment (c : Char) (rest : List Char) : Prop := c = '\n' ∨ c = '\r' ∨ c = '?' ∧ rest.head? = some '>'

instance (c : Char) (rest : List Char) : Decidable (EndsComment c rest) :=
  inferInstanceAs (Decidable (_ ∨ _ ∨ _ ∧ _))

/-- The comment that a text starts with. -/
def lineComment : List Char → List Char
  | [] => []
  | c :: cs => if EndsComment c cs then [] else c :: lineComment cs

/-- A text that no comment ends in. -/
structure StaysInLine (s : List Char) : Prop where
  lineFeed : '\n' ∉ s
  carriageReturn : '\r' ∉ s
  closingTag : ¬['?', '>'] <:+: s

variable {s t : List Char}

/-- Of what follows only the first character counts. -/
theorem EndsComment.imp {c : Char} (h : EndsComment c s) (hnext : c = '?' → s.head? = some '>' → t.head? = some '>') :
    EndsComment c t := by
  obtain hfeed | hreturn | ⟨hc, hclose⟩ := h
  · exact .inl hfeed
  · exact .inr (.inl hreturn)
  · exact .inr (.inr ⟨hc, hnext hc hclose⟩)

theorem staysInLine_nil : StaysInLine [] := ⟨List.not_mem_nil, List.not_mem_nil, by decide⟩

theorem closingTag_prefix_cons {c : Char} : ['?', '>'] <+: c :: s ↔ c = '?' ∧ s.head? = some '>' := by
  rw [List.cons_prefix_cons, eq_comm]
  cases s with
  | nil => simp
  | cons d s => simp [List.cons_prefix_cons, eq_comm]

theorem staysInLine_cons {c : Char} : StaysInLine (c :: s) ↔ ¬EndsComment c s ∧ StaysInLine s := by
  constructor
  · rintro ⟨hfeed, hreturn, htag⟩
    rw [List.mem_cons, not_or] at hfeed hreturn
    rw [List.infix_cons_iff, not_or, closingTag_prefix_cons] at htag
    refine ⟨?_, hfeed.2, hreturn.2, htag.2⟩
    rintro (rfl | rfl | hclose)
    · exact hfeed.1 rfl
    · exact hreturn.1 rfl
    · exact htag.1 hclose
  · rintro ⟨hends, hfeed, hreturn, htag⟩
    simp only [EndsComment, not_or] at hends
    refine ⟨?_, ?_, ?_⟩
    · exact fun h => (List.mem_cons.1 h).elim (fun h => hends.1 h.symm) hfeed
    · exact fun h => (List.mem_cons.1 h).elim (fun h => hends.2.1 h.symm) hreturn
    · rw [List.infix_cons_iff, closingTag_prefix_cons]
      exact fun h => h.elim hends.2.2 htag

theorem StaysInLine.mono (h : StaysInLine t) (hs : s <:+: t) : StaysInLine s :=
  ⟨fun hmem => h.lineFeed (hs.subset hmem), fun hmem => h.carriageReturn (hs.subset hmem),
    fun htag => h.closingTag (htag.trans hs)⟩

/-- Two texts joined, unless they make a closing tag between them. -/
theorem StaysInLine.append (hs : StaysInLine s) (ht : StaysInLine t)
    (hjoin : ¬(s.getLast? = some '?' ∧ t.head? = some '>')) : StaysInLine (s ++ t) := by
  induction s with
  | nil => exact ht
  | cons c s ih =>
    obtain ⟨hends, hs⟩ := staysInLine_cons.1 hs
    cases s with
    | nil =>
      refine staysInLine_cons.2 ⟨fun h => hends (h.imp fun hc hclose => ?_), ht⟩
      exact absurd ⟨congrArg some hc, hclose⟩ hjoin
    | cons d s =>
      rw [List.getLast?_cons_cons] at hjoin
      exact staysInLine_cons.2 ⟨hends, ih hs hjoin⟩

theorem head?_of_lineComment {c : Char} (h : (lineComment s).head? = some c) : s.head? = some c := by
  cases s with
  | nil => exact h
  | cons d s =>
    rw [lineComment] at h
    split at h
    · cases h
    · exact h

theorem staysInLine_lineComment (s : List Char) : StaysInLine (lineComment s) := by
  induction s with
  | nil => exact staysInLine_nil
  | cons c s ih =>
    by_cases hends : EndsComment c s
    · rw [lineComment, if_pos hends]
      exact staysInLine_nil
    · rw [lineComment, if_neg hends]
      exact staysInLine_cons.2 ⟨fun h => hends (h.imp fun _ hclose => head?_of_lineComment hclose), ih⟩

theorem lineComment_eq_self_iff : lineComment s = s ↔ StaysInLine s := by
  constructor
  · intro h
    rw [← h]
    exact staysInLine_lineComment s
  · intro h
    induction s with
    | nil => rfl
    | cons c s ih =>
      obtain ⟨hends, hs⟩ := staysInLine_cons.1 h
      rw [lineComment, if_neg hends, ih hs]

instance (s : List Char) : Decidable (StaysInLine s) := decidable_of_iff _ lineComment_eq_self_iff

theorem lineComment_append (hs : StaysInLine s) (t : List Char) : lineComment (s ++ '\n' :: t) = s := by
  induction s with
  | nil => rw [List.nil_append, lineComment, if_pos (.inl rfl)]
  | cons c s ih =>
    obtain ⟨hends, hs⟩ := staysInLine_cons.1 hs
    have hgoes : ¬EndsComment c (s ++ '\n' :: t) := by
      cases s with
      | nil => exact fun h => hends (h.imp fun _ hclose => absurd (Option.some.inj hclose) (by decide))
      | cons d s => exact hends
    rw [List.cons_append, lineComment, if_neg hgoes, ih hs]

/-! ## Text without its comments -/

/-- Where a character of a source text stands. -/
inductive Region
  /-- Outside the tags. -/
  | page
  | code
  | comment
  /-- Between single quotes. -/
  | literal
deriving Repr, DecidableEq

/-- A text that starts in the given region, less its line comments.  The character that ends a comment stays, as does a
closing tag; between quotes nothing starts a comment. -/
def withoutComments : Region → List Char → List Char
  | _, [] => []
  | .page, '<' :: '?' :: 'p' :: 'h' :: 'p' :: cs => '<' :: '?' :: 'p' :: 'h' :: 'p' :: withoutComments .code cs
  | .page, c :: cs => c :: withoutComments .page cs
  | .code, '?' :: '>' :: cs => '?' :: '>' :: withoutComments .page cs
  | .code, '/' :: '/' :: cs => withoutComments .comment cs
  | .code, '\'' :: cs => '\'' :: withoutComments .literal cs
  | .code, c :: cs => c :: withoutComments .code cs
  | .comment, '?' :: '>' :: cs => '?' :: '>' :: withoutComments .page cs
  | .comment, c :: cs => if c = '\n' ∨ c = '\r' then c :: withoutComments .code cs else withoutComments .comment cs
  | .literal, '\\' :: c :: cs => '\\' :: c :: withoutComments .literal cs
  | .literal, '\'' :: cs => '\'' :: withoutComments .code cs
  | .literal, c :: cs => c :: withoutComments .literal cs

example : withoutComments .page "<?php\n// a ' b\r$c = '// d\\'';// e ?>f // g".toList =
    "<?php\n\r$c = '// d\\'';?>f // g".toList := by decide

/-- In a comment everything is left out up to its end. -/
theorem withoutComments_comment (s : List Char) :
    withoutComments .comment s = withoutComments .code (s.drop (lineComment s).length) := by
  induction s with
  | nil => rfl
  | cons c s ih =>
    by_cases hends : EndsComment c s
    · rw [lineComment, if_pos hends]
      obtain rfl | rfl | ⟨rfl, hclose⟩ := hends
      · rfl
      · rfl
      · obtain ⟨s, rfl⟩ : ∃ s', s = '>' :: s' := ⟨s.tail, (List.cons_head?_tail hclose).symm⟩
        rfl
    · rw [lineComment, if_neg hends, List.length_cons, List.drop_succ_cons, ← ih]
      simp only [EndsComment, not_or] at hends
      rw [withoutComments, if_neg (not_or.2 ⟨hends.1, hends.2.1⟩)]
      rintro s' rfl rfl
      exact hends.2.2 ⟨rfl, rfl⟩

theorem withoutComments_line (hs : StaysInLine s) (t : List Char) :
    withoutComments .code ('/' :: '/' :: (s ++ '\n' :: t)) = '\n' :: withoutComments .code t := by
  have hopen : withoutComments .code ('/' :: '/' :: (s ++ '\n' :: t)) = withoutComments .comment (s ++ '\n' :: t) := rfl
  rw [hopen, withoutComments_comment, lineComment_append hs, List.drop_left]
  rfl

/-! ## The head of a file -/

/-- What stands before the path in the comment that names it. -/
def naming : String := "// This file was automatically generated from "

/-- **Every character of the path is in the comment that names it**, which starts on the line after the tag. -/
def PathInComment (path text : String) : Prop :=
  ∃ code, text.toList = "<?php\n".toList ++ code ∧ (naming ++ path).toList <+: lineComment code

theorem toList_preamble (path : String) : (preamble path).toList =
    "<?php\n".toList ++ ((naming ++ path ++ ".").toList ++ "\n// Please don't edit this file by hand.\n".toList) := by
  have hfront : "<?php\n// This file was automatically generated from " =
      "<?php\n" ++ "// This file was automatically generated from " :=
    String.toList_inj.1 (by rw [String.toList_append]; rfl)
  have hback : ".\n// Please don't edit this file by hand.\n" =
      "." ++ "\n// Please don't edit this file by hand.\n" :=
    String.toList_inj.1 (by rw [String.toList_append]; rfl)
  unfold preamble naming
  simp only [hfront, hback, String.toList_append, List.append_assoc]

theorem staysInLine_named_iff {path : String} :
    StaysInLine (naming ++ path ++ ".").toList ↔ StaysInLine path.toList := by
  rw [String.toList_append, String.toList_append]
  constructor
  · exact fun h => h.mono ⟨naming.toList, ".".toList, rfl⟩
  · intro h
    have hnaming : StaysInLine naming.toList := by decide
    have hpoint : StaysInLine ".".toList := by decide
    refine (hnaming.append h ?_).append hpoint ?_
    · exact fun hjoin => absurd hjoin.1 (by decide)
    · exact fun hjoin => absurd hjoin.2 (by decide)

theorem lineComment_preamble {path : String} (h : StaysInLine path.toList) (code : List Char) :
    lineComment ((naming ++ path ++ ".").toList ++ "\n// Please don't edit this file by hand.\n".toList ++ code) =
      (naming ++ path ++ ".").toList := by
  have hline : "\n// Please don't edit this file by hand.\n".toList =
    '\n' :: "// Please don't edit this file by hand.\n".toList := rfl
  rw [List.append_assoc, hline, List.cons_append, lineComment_append (staysInLine_named_iff.2 h)]

theorem withoutComments_tag (code : List Char) :
    withoutComments .page ("<?php\n".toList ++ code) = "<?php\n".toList ++ withoutComments .code code := rfl

theorem withoutComments_preamble {path : String} (h : StaysInLine path.toList) (code : String) :
    withoutComments .page (preamble path ++ code).toList = "<?php\n\n\n".toList ++ withoutComments .code code.toList := by
  obtain ⟨s, hs⟩ : ∃ s, (naming ++ path ++ ".").toList = '/' :: '/' :: s := by
    rw [String.toList_append, String.toList_append]
    exact ⟨_, rfl⟩
  have hnamed : StaysInLine s := (staysInLine_named_iff.2 h).mono ⟨['/', '/'], [], by rw [hs, List.append_nil]; rfl⟩
  obtain ⟨t, ht, hrequest⟩ : ∃ t, "\n// Please don't edit this file by hand.\n".toList =
      '\n' :: '/' :: '/' :: (t ++ ['\n']) ∧ StaysInLine t :=
    ⟨" Please don't edit this file by hand.".toList, rfl, by decide⟩
  have htext : (preamble path ++ code).toList =
      "<?php\n".toList ++ '/' :: '/' :: (s ++ '\n' :: '/' :: '/' :: (t ++ '\n' :: code.toList)) := by
    rw [String.toList_append, toList_preamble, hs, ht]
    simp only [List.append_assoc, List.cons_append, List.nil_append]
  rw [htext, withoutComments_tag, withoutComments_line hnamed, withoutComments_line hrequest]
  rfl

theorem staysInLine_of_pathInComment {path text : String} (h : PathInComment path text) : StaysInLine path.toList := by
  obtain ⟨code, -, hin⟩ := h
  refine (staysInLine_lineComment code).mono (List.IsInfix.trans ?_ hin.isInfix)
  rw [String.toList_append]
  exact (List.suffix_append _ _).isInfix

/-! ## Files -/

/-- The text of a program is the same for every origin, the head apart. -/
theorem render_eq (p : File) : ∃ code, ∀ origin, ({ p with origin } : File).render = preamble origin ++ code := by
  refine ⟨(Script.runAll (p.functions.flatMap fun function => [.blank, function.script p.takesInjected])
    { indentation := "    " }).2.text, fun origin => ?_⟩
  rw [File.render, Script.render, File.script, runAll_append_snd, runAll_banner]
  have hprepend : SourceBuffer.prepend (preamble origin) { indentation := "    " } =
      { indentation := "    ", text := preamble origin } := by
    rw [SourceBuffer.prepend, String.append_empty]
  rw [← hprepend, Script.runAll_prepend]
  rfl

variable {c : Context} {f : TemplateFile} {text : String}

theorem compile_path {p : File} (h : compile c f = .ok p) (path : String) :
    compile c { f with path } = .ok { p with origin := path } := by
  obtain ⟨functions, hf, h⟩ := bind_eq_ok h
  obtain rfl := pure_eq_ok h
  rw [compile, hf]
  rfl

theorem exists_code_of_emit (h : emit c f = .ok text) :
    ∃ code, ∀ path, emit c { f with path } = .ok (preamble path ++ code) := by
  obtain ⟨p, hp, -⟩ := emit_eq_ok h
  obtain ⟨code, hcode⟩ := render_eq p
  refine ⟨code, fun path => ?_⟩
  rw [emit, compile_path hp, Except.map, hcode]

/-- **The path is in its comment exactly when no comment ends in it.**  A file is emitted or not whatever its path, and two
files that differ in nothing but such paths differ in nothing but their comments. -/
theorem emit_path_in_comment_iff (h : emit c f = .ok text) :
    (PathInComment f.path text ↔ StaysInLine f.path.toList) ∧
      ∀ path, ∃ text', emit c { f with path } = .ok text' ∧
        (StaysInLine f.path.toList → StaysInLine path.toList →
          withoutComments .page text.toList = withoutComments .page text'.toList) := by
  obtain ⟨code, hcode⟩ := exists_code_of_emit h
  have htext : text = preamble f.path ++ code := Except.ok.inj (h.symm.trans (hcode f.path))
  refine ⟨⟨staysInLine_of_pathInComment, fun hpath => ?_⟩, fun path => ⟨_, hcode path, fun hold hnew => ?_⟩⟩
  · refine ⟨(naming ++ f.path ++ ".").toList ++ "\n// Please don't edit this file by hand.\n".toList ++ code.toList, ?_, ?_⟩
    · rw [htext, String.toList_append, toList_preamble, List.append_assoc]
    · have hnamed : (naming ++ f.path ++ ".").toList = (naming ++ f.path).toList ++ ".".toList := String.toList_append
      rw [lineComment_preamble hpath, hnamed]
      exact List.prefix_append _ _
  · rw [htext, withoutComments_preamble hold, withoutComments_preamble hnew]

/-- A page that says hello, from the given path. -/
def helloPage (path : String) : TemplateFile := ⟨path, "page", [⟨"t", [.rawText "Hi"]⟩]⟩

/-- A run of every default, for text from left to right. -/
def plainly : Context := ⟨{}, .fixed .ltr, none⟩

/-- A path of two directories stays in its comment, and another file of the page differs in that comment only. -/
theorem emit_path_in_comment_iff_views : ∃ text text', emit plainly (helloPage "views/page.tpl") = .ok text ∧
    PathInComment "views/page.tpl" text ∧ emit plainly (helloPage "it's // a page?.tpl") = .ok text' ∧
      withoutComments .page text.toList = withoutComments .page text'.toList := by
  obtain ⟨text, h⟩ : ∃ text, emit plainly (helloPage "views/page.tpl") = .ok text := ⟨_, rfl⟩
  obtain ⟨hin, hothers⟩ := emit_path_in_comment_iff h
  obtain ⟨text', h', halike⟩ := hothers "it's // a page?.tpl"
  exact ⟨text, text', h, hin.2 (by decide), h', halike (by decide) (by decide)⟩

/-- **A path can leave its comment**, and what follows is code. -/
theorem emit_path_escapes : ∃ text text', emit plainly (helloPage "page.tpl\nexit();//") = .ok text ∧
    ¬PathInComment "page.tpl\nexit();//" text ∧ emit plainly (helloPage "page.tpl") = .ok text' ∧
      withoutComments .page text.toList ≠ withoutComments .page text'.toList := by
  obtain ⟨text, h⟩ : ∃ text, emit plainly (helloPage "page.tpl") = .ok text := ⟨_, rfl⟩
  obtain ⟨code, hcode⟩ := exists_code_of_emit h
  have hnamed : (naming ++ "page.tpl\nexit();//" ++ ".").toList =
      '/' :: '/' :: (" This file was automatically generated from page.tpl".toList ++ '\n' :: "exit();//.".toList) := rfl
  obtain ⟨rest, hescaped⟩ : ∃ rest, withoutComments .page (preamble "page.tpl\nexit();//" ++ code).toList =
      "<?php\n\ne".toList ++ rest := by
    rw [String.toList_append, toList_preamble, hnamed]
    simp only [List.append_assoc, List.cons_append]
    rw [withoutComments_tag, withoutComments_line (by decide)]
    exact ⟨_, rfl⟩
  refine ⟨_, _, hcode _, fun hin => ?_, hcode _, fun halike => ?_⟩
  · exact absurd (staysInLine_of_pathInComment hin) (by decide)
  · rw [hescaped, withoutComments_preamble (by decide)] at halike
    have hseventh : 'e' = '\n' := Option.some.inj (congrArg (fun s : List Char => s[7]?) halike)
    exact absurd hseventh (by decide)

end Php
end Stencil
