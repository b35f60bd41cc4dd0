import Stencil.Codegen
import Stencil.Proofs.Php.Execution
import Stencil.Proofs.Pipeline.Protocol
/-!
# Correctness — the generated code shows what the templates show

The passes keep what a body shows and the compiler makes code that shows it, so every text that a batch gives is read as
routines that show the templates of its file (`generate_shows`).
-/
namespace Stencil
namespace Codegen

/-- **A text is right for a file**: it reads as one routine for each template, in their order, and on every page a routine
returns what its template shows. -/
def Shows (bundle : Option Bundle) (direction : EffectiveDirection) (f : TemplateFile) (text : String) : Prop :=
  ∃ routines, Php.routines? f.path text = some routines ∧
    List.Forall₂ (fun t r => ∀ page, ∃ shown, rendering bundle direction page t.body = some shown ∧
      Php.Routine.eval page r = some shown) f.templates routines

theorem inserted_eq_ok {bundle : Option Bundle} {f f' : TemplateFile} (h : inserted bundle f = .ok f') :
    f' = f.mapNodes (Node.insertText bundle) := by
  unfold inserted insertMessages at h
  split at h
  · next f'' hf =>
    cases h
    split at hf
    · cases hf
    · exact (Prod.mk.inj hf).2.symm
  · cases h

theorem reply_eq_done {ε α : Type} {x : Except ε α} {value : α} (h : reply x = .done value) : x = .ok value := by
  cases x with
  | error cause => cases h
  | ok a =>
    cases h
    rfl

variable {bundle : Option Bundle} {c : Context}

/-- What becomes of a body before it is compiled. -/
def prepared (bundle : Option Bundle) (direction : EffectiveDirection) (body : List Node) : List Node :=
  mergeText ((body.map (Node.insertText bundle)).map (Node.foldUnder direction))

theorem rendering_prepared (direction : EffectiveDirection) (page : Php.Page) (body : List Node) :
    rendering bundle direction page (prepared bundle direction body) = rendering bundle direction page body := by
  rw [prepared, uncut_rendering.apply_mergeText, rendering_map Node.rendering_foldUnder,
    rendering_map Node.rendering_insertText]

theorem simplify_foldDirection_insert (direction : EffectiveDirection) (f : TemplateFile) :
    simplify (foldDirection direction (f.mapNodes (Node.insertText bundle))) =
      f.mapBodies (prepared bundle direction) := by
  rw [foldDirection_eq, simplify, TemplateFile.mapNodes, TemplateFile.mapNodes, TemplateFile.mapBodies_mapBodies,
    TemplateFile.mapBodies_mapBodies]
  rfl

theorem shows_of_emit {f : TemplateFile} {text : String}
    (h : Php.emit c (f.mapBodies (prepared bundle c.direction)) = .ok text) : Shows bundle c.direction f text := by
  obtain ⟨p, hp, rfl⟩ := Php.emit_eq_ok h
  have hread := Php.routines?_of_compile hp
  refine ⟨_, hread, ?_⟩
  have hfunctions := Php.functionsAfter_eq_ok (Php.compile_eq_ok hp).2.2
  rw [TemplateFile.mapBodies, List.forall₂_map_left_iff] at hfunctions
  rw [List.forall₂_map_right_iff]
  refine hfunctions.imp fun t function hf page => ?_
  obtain ⟨before, hc⟩ := hf
  obtain ⟨shown, hshown, heval⟩ := Php.eval_of_compile page bundle hc
  rw [rendering_prepared] at hshown
  exact ⟨shown, hshown, heval⟩

/-! ## Batches -/

theorem forall₂_of_completes {σ τ ε α : Type} {g : τ → Except ε α} {ts : List τ} {values : List α} {s s' : σ}
    (h : Completes (fun t s => (reply (g t), s)) ts s values s') :
    List.Forall₂ (fun t value => g t = .ok value) ts values := by
  induction h with
  | nil s => exact .nil
  | cons ht _ ih => exact .cons (reply_eq_done (Prod.mk.inj ht).1) ih

theorem eq_map_of_completes {σ τ ε α : Type} {g : τ → α} {ts : List τ} {values : List α} {s s' : σ}
    (h : Completes (fun t s => ((.done (g t) : Reply ε Empty α), s)) ts s values s') : values = ts.map g := by
  induction h with
  | nil s => rfl
  | cons ht _ ih =>
    cases ht
    rw [List.map_cons, ih]

theorem eq_map_of_inserted {files inserted' : List TemplateFile}
    (h : List.Forall₂ (fun f f' => inserted bundle f = .ok f') files inserted') :
    inserted' = files.map (TemplateFile.mapNodes (Node.insertText bundle)) := by
  induction h with
  | nil => rfl
  | cons hf _ ih => rw [List.map_cons, inserted_eq_ok hf, ih]

/-- **Code generation is correct**: a batch gives one text for each file, in their order, and each is right for its file
under the direction that the options, the locale of the bundle and the fallback resolve to. -/
theorem generate_shows {resolver : Resolver} {options : Options} {files : List TemplateFile} {texts : List String}
    (h : generate resolver options bundle files = .ok texts) :
    List.Forall₂ (Shows bundle (resolver.resolve options (bundle.map Bundle.locale))) files texts := by
  have hrun : (run resolver options bundle files).reply = .done texts := by
    unfold generate at h
    split at h
    · next hr =>
      cases h
      exact hr
    · cases h
    · next payload _ => cases payload
  obtain ⟨_, _, _, _, _, _, _, hi, hf, hs, he⟩ := completes_of_done (q := ⟨options, bundle, files⟩) hrun
  obtain rfl := eq_map_of_inserted (forall₂_of_completes hi)
  obtain rfl := eq_map_of_completes hf
  obtain rfl := eq_map_of_completes hs
  have htexts := forall₂_of_completes he
  rw [List.forall₂_map_left_iff, List.forall₂_map_left_iff, List.forall₂_map_left_iff] at htexts
  refine htexts.imp fun f text hemit => ?_
  rw [simplify_foldDirection_insert] at hemit
  exact shows_of_emit hemit

/-- A page in Arabic, with one message from the bundle. -/
theorem generate_shows_welcome :
    let bundle : Bundle := ⟨"ar", [("hello", "Ahlan, ")], List.pairwise_singleton _ _⟩
    (∃ texts, generate {} { generatesMessageDefs := true, messagesAreExternal := true } (some bundle) [.welcome] =
        .ok texts ∧ List.Forall₂ (Shows (some bundle) (.fixed .rtl)) [.welcome] texts) ∧
      ∀ (t : Template) (page : Php.Page), t ∈ TemplateFile.welcome.templates →
        rendering (some bundle) (.fixed .rtl) page t.body =
          some ("<p dir=rtl>Ahlan, " ++ page.escaped .data ["user", "name"] ++ "Bye</p>") := by
  intro bundle
  obtain ⟨texts, h⟩ : ∃ texts, generate {} { generatesMessageDefs := true, messagesAreExternal := true } (some bundle)
    [.welcome] = .ok texts := ⟨_, rfl⟩
  have hdirection : ({} : Resolver).resolve { generatesMessageDefs := true, messagesAreExternal := true }
      (some bundle.locale) = .fixed .rtl := by decide +kernel
  refine ⟨⟨texts, h, hdirection ▸ generate_shows h⟩, fun t page ht => ?_⟩
  obtain rfl := List.mem_singleton.1 ht
  have hfirst : "<p dir=rtl>Ahlan, " = "<p dir=" ++ "rtl" ++ ">" ++ "Ahlan, " := by decide
  have hlast : "Bye</p>" = "Bye" ++ "</p>" ++ "" := by decide
  rw [hfirst, hlast]
  simp only [String.append_assoc]
  rfl

end Codegen
end Stencil
