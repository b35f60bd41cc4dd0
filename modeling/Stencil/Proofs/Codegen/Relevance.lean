import Stencil.Proofs.Codegen.Outcome
/-!
# Relevance — what of a request its result depends on

`Alike` requests may differ in the arms of nodes for both directions that the direction does not choose, in texts that
the bundle translates, in entries of the bundle that no message asks for, in the locale as far as the direction does not
follow from it, and in where messages go if none are defined.  They give the same result (`generate_eq_of_alike`).

Such nodes are the same once inserted and folded, before bodies are merged, so neither a text that is dropped as empty nor
one in conflict with another can tell them apart.  The compiler in turn reads no more of its context than
`Php.Interchangeable` keeps.
-/
namespace Stencil

/-! ## Contexts -/

namespace Php

/-- Contexts that the compiler cannot tell apart. -/
structure Interchangeable (c c' : Context) : Prop where
  direction : c.direction = c'.direction
  messageStyle : messageStyle c.options = messageStyle c'.options
  usesInjectedData : c.options.usesInjectedData = c'.options.usesInjectedData

namespace Interchangeable

variable {c c' : Context} (h : Interchangeable c c')
include h

theorem valueAfter_eq (function : String) (before : Nat) (node : Node) :
    valueAfter c function before node = valueAfter c' function before node := by
  cases node with
  | rawText text => rfl
  | print expression injected => rw [valueAfter, valueAfter, printed, printed, h.usesInjectedData]
  | message m => rfl
  | messageText id text => rw [valueAfter, valueAfter, h.messageStyle]
  | bidi ltr rtl => rw [valueAfter, valueAfter, h.direction]

theorem valuesAfter_eq (function : String) : ∀ (before : Nat) (body : List Node),
    valuesAfter c function before body = valuesAfter c' function before body
  | _, [] => rfl
  | before, node :: rest => by
    rw [valuesAfter, valuesAfter, h.valueAfter_eq, valuesAfter_eq function _ rest]

theorem functionAfter_eq (package : String) (before : Nat) (t : Template) :
    functionAfter c package before t = functionAfter c' package before t := by
  rw [functionAfter, functionAfter, h.messageStyle, h.valuesAfter_eq]

theorem functionsAfter_eq (package : String) : ∀ (before : Nat) (ts : List Template),
    functionsAfter c package before ts = functionsAfter c' package before ts
  | _, [] => rfl
  | before, t :: ts => by
    rw [functionsAfter, functionsAfter, h.functionAfter_eq, functionsAfter_eq package _ ts]

/-- **The compiler reads no more of a context.** -/
theorem emit_eq (f : TemplateFile) : emit c f = emit c' f := by
  rw [emit, emit, compile_eq, compile_eq, h.functionsAfter_eq, h.usesInjectedData]

end Interchangeable
end Php

/-! ## Files -/

/-- Nodes that become the same under a bundle and a direction. -/
inductive Node.Alike (bundle : Option Bundle) (direction : EffectiveDirection) : Node → Node → Prop
  | same (node : Node) : Alike bundle direction node node
  /-- The bundle has a text for the message, so neither source text is used. -/
  | translated {id text text' translation : String} : bundle.bind (·.get id) = some translation →
      Alike bundle direction (.plainMessage id text) (.plainMessage id text')
  /-- The arms that the direction chooses are equal. -/
  | chosen {d : Direction} {ltr rtl ltr' rtl' : String} : direction = .fixed d → d.choose ltr rtl = d.choose ltr' rtl' →
      Alike bundle direction (.bidi ltr rtl) (.bidi ltr' rtl')

structure Template.Alike (bundle : Option Bundle) (direction : EffectiveDirection) (t t' : Template) : Prop where
  name : t.name = t'.name
  body : List.Forall₂ (Node.Alike bundle direction) t.body t'.body

structure TemplateFile.Alike (bundle : Option Bundle) (direction : EffectiveDirection) (f f' : TemplateFile) : Prop where
  path : f.path = f'.path
  package : f.package = f'.package
  templates : List.Forall₂ (Template.Alike bundle direction) f.templates f'.templates

theorem findSome?_eq_of_forall₂ {α β γ : Type} {xs : List α} {ys : List β} {g : α → Option γ} {g' : β → Option γ}
    (h : List.Forall₂ (fun x y => g x = g' y) xs ys) : xs.findSome? g = ys.findSome? g' := by
  have hmap := congrArg (List.findSome? id) (map_eq_map_iff_forall₂.2 h)
  rwa [List.findSome?_map, List.findSome?_map] at hmap

section Files

variable {bundle : Option Bundle} {direction : EffectiveDirection}

theorem Node.Alike.unsupported?_eq {node node' : Node} (h : Node.Alike bundle direction node node') :
    node.unsupported? = node'.unsupported? := by
  cases h <;> rfl

theorem Node.Alike.prepared_eq {node node' : Node} (h : Node.Alike bundle direction node node') (bundle' : Option Bundle)
    (hb : ∀ m, node = .message m → bundle.bind (·.get m.id) = bundle'.bind (·.get m.id)) :
    (node.insertText bundle).foldUnder direction = (node'.insertText bundle').foldUnder direction := by
  cases h with
  | same =>
    rcases node with _ | _ | ⟨id, _ | _ | _⟩ | _ | _
    -- only a message that is inserted looks anything up, and only its own id
    case message.text text =>
      have hid : bundle.bind (·.get id) = bundle'.bind (·.get id) := hb _ rfl
      simp only [insertText, translation, hid]
    all_goals rfl
  | @translated id text text' translation ht =>
    have hid : bundle.bind (·.get id) = bundle'.bind (·.get id) := hb _ rfl
    simp only [insertText, plainMessage, Stencil.translation, ← hid, ht, Option.getD_some]
  | chosen hd hchoose =>
    subst hd
    exact congrArg Node.rawText hchoose

theorem TemplateFile.Alike.refusal?_eq {f f' : TemplateFile} (h : f.Alike bundle direction f') :
    Codegen.refusal? f = Codegen.refusal? f' := by
  have hnodes : List.Forall₂ (Node.Alike bundle direction) f.nodes f'.nodes :=
    List.rel_flatMap h.templates fun _ _ ht => ht.body
  exact findSome?_eq_of_forall₂ (hnodes.imp fun _ _ => Node.Alike.unsupported?_eq)

theorem Template.Alike.prepared_eq {t t' : Template} (h : t.Alike bundle direction t') (bundle' : Option Bundle)
    (hb : ∀ m, .message m ∈ t.body → bundle.bind (·.get m.id) = bundle'.bind (·.get m.id)) :
    Codegen.prepared bundle direction t.body = Codegen.prepared bundle' direction t'.body := by
  have hmem : ∀ node ∈ t.body, ∀ m, node = .message m → bundle.bind (·.get m.id) = bundle'.bind (·.get m.id) := by
    rintro _ hnode m rfl
    exact hb m hnode
  have hbody : (t.body.map (Node.insertText bundle)).map (Node.foldUnder direction) =
      (t'.body.map (Node.insertText bundle')).map (Node.foldUnder direction) := by
    rw [List.map_map, List.map_map]
    exact map_eq_map_iff_forall₂.2 (((List.forall₂_and_left _ _).2 ⟨hmem, h.body⟩).imp fun node node' hn =>
      hn.2.prepared_eq bundle' hn.1)
  rw [Codegen.prepared, Codegen.prepared, hbody]

theorem TemplateFile.Alike.prepared_eq {f f' : TemplateFile} (h : f.Alike bundle direction f') (bundle' : Option Bundle)
    (hb : ∀ m, .message m ∈ f.nodes → bundle.bind (·.get m.id) = bundle'.bind (·.get m.id)) :
    f.mapBodies (Codegen.prepared bundle direction) = f'.mapBodies (Codegen.prepared bundle' direction) := by
  have hmem : ∀ t ∈ f.templates, ∀ m, .message m ∈ t.body → bundle.bind (·.get m.id) = bundle'.bind (·.get m.id) :=
    fun t ht m hm => hb m (TemplateFile.mem_nodes.2 ⟨t, ht, hm⟩)
  have htemplates : f.templates.map (fun t => { t with body := Codegen.prepared bundle direction t.body }) =
      f'.templates.map fun t => { t with body := Codegen.prepared bundle' direction t.body } := by
    refine map_eq_map_iff_forall₂.2 (((List.forall₂_and_left _ _).2 ⟨hmem, h.templates⟩).imp fun t t' ht => ?_)
    rw [ht.2.name, ht.2.prepared_eq bundle' ht.1]
  rw [TemplateFile.mapBodies, TemplateFile.mapBodies, htemplates, h.path, h.package]

end Files

/-! ## Requests -/

def Request.direction {τ : Type} (q : Request τ) (resolver : Resolver) : EffectiveDirection :=
  resolver.resolve q.options (q.bundle.map Bundle.locale)

namespace Codegen

/-- **Requests that differ in what does not matter.** -/
structure Alike (resolver : Resolver) (q q' : Request TemplateFile) : Prop where
  /-- Where messages go is of no account as long as none are defined. -/
  options : ∃ external, q'.options = { q.options with messagesAreExternal := external } ∧
    (q.options.generatesMessageDefs = true → external = q.options.messagesAreExternal)
  /-- Locales may differ where the direction is the same. -/
  direction : q.direction resolver = q'.direction resolver
  /-- Bundles may differ in texts for ids that no message has. -/
  bundle : ∀ m, .message m ∈ q.trees.flatMap TemplateFile.nodes →
    q.bundle.bind (·.get m.id) = q'.bundle.bind (·.get m.id)
  trees : List.Forall₂ (TemplateFile.Alike q.bundle (q.direction resolver)) q.trees q'.trees

namespace Alike

variable {resolver : Resolver} {q q' : Request TemplateFile} (h : Alike resolver q q')
include h

theorem interchangeable : Php.Interchangeable ((pipeline resolver).context q.options q.bundle)
    ((pipeline resolver).context q'.options q'.bundle) := by
  obtain ⟨external, ho, hexternal⟩ := h.options
  refine ⟨h.direction, ?_, ?_⟩
  · have heffective : q.options.messagesAreExternalEffective = q'.options.messagesAreExternalEffective := by
      rw [ho, Options.messagesAreExternalEffective, Options.messagesAreExternalEffective]
      cases hd : q.options.generatesMessageDefs with
      | false => rfl
      | true => rw [hexternal hd]
    show Php.messageStyle q.options = Php.messageStyle q'.options
    rw [Php.messageStyle, Php.messageStyle, heffective, ho]
  · show q.options.usesInjectedData = q'.options.usesInjectedData
    rw [ho]

theorem translate_eq {f f' : TemplateFile} (hf : f ∈ q.trees)
    (hff' : f.Alike q.bundle (q.direction resolver) f') :
    translate ((pipeline resolver).context q.options q.bundle) f =
      translate ((pipeline resolver).context q'.options q'.bundle) f' := by
  have hprepared := hff'.prepared_eq q'.bundle fun m hm =>
    h.bundle m (List.mem_flatMap.2 ⟨f, hf, hm⟩)
  rw [translate, translate, h.interchangeable.emit_eq]
  show Php.emit _ (f.mapBodies (prepared q.bundle (q.direction resolver))) =
    Php.emit _ (f'.mapBodies (prepared q'.bundle (q'.direction resolver)))
  rw [← h.direction, hprepared]

end Alike

/-- **What does not matter does not show**: alike requests give the same texts or the same error. -/
theorem generate_eq_of_alike {resolver : Resolver} {q q' : Request TemplateFile} (h : Alike resolver q q') :
    generate resolver q.options q.bundle q.trees = generate resolver q'.options q'.bundle q'.trees := by
  have hrefusal : q.trees.findSome? refusal? = q'.trees.findSome? refusal? :=
    findSome?_eq_of_forall₂ (h.trees.imp fun _ _ => TemplateFile.Alike.refusal?_eq)
  -- either both are refused, for the same message, or neither is
  cases hr : q.trees.findSome? refusal? with
  | some u => rw [generate_of_refusal hr, generate_of_refusal (hrefusal ▸ hr)]
  | none =>
    have htranslate : q.trees.map (translate ((pipeline resolver).context q.options q.bundle)) =
        q'.trees.map (translate ((pipeline resolver).context q'.options q'.bundle)) :=
      map_eq_map_iff_forall₂.2 (((List.forall₂_and_left _ _).2 ⟨fun f hf => hf, h.trees⟩).imp fun f f' hf =>
        h.translate_eq hf.1 hf.2)
    have hmapM := congrArg (List.mapM id) htranslate
    rw [List.mapM_map, List.mapM_map] at hmapM
    rw [generate_of_supported hr, generate_of_supported (hrefusal ▸ hr)]
    exact congrArg (Except.mapError _) hmapM

def arabicRequest : Request TemplateFile where
  options := { messagesAreExternal := true }
  bundle := some (.ofList "ar" [("hello", "Ahlan, "), ("thanks", "Shukran")])
  trees := [.welcome]

/-- Another locale, another source text and another left-to-right arm, but the same words from right to left. -/
def hebrewRequest : Request TemplateFile where
  options := {}
  bundle := some (.ofList "he" [("hello", "Ahlan, ")])
  trees := [{ TemplateFile.welcome with templates := [⟨"welcome", [.rawText "<p dir=", .bidi "" "rtl", .rawText ">",
    .plainMessage "hello" "Hi, ", .print "user.name" false, .messageText "bye" "Bye", .rawText "</p>"]⟩] }]

theorem generate_eq_of_alike_greeting : Alike {} arabicRequest hebrewRequest ∧
    generate {} arabicRequest.options arabicRequest.bundle arabicRequest.trees =
      generate {} hebrewRequest.options hebrewRequest.bundle hebrewRequest.trees := by
  have hdirection : arabicRequest.direction {} = .fixed .rtl := by decide +kernel
  have halike : Alike {} arabicRequest hebrewRequest := by
    refine ⟨⟨false, rfl, nofun⟩, ?_, fun m hm => ?_, .cons ⟨rfl, rfl, .cons ⟨rfl, ?_⟩ .nil⟩ .nil⟩
    · rw [hdirection]
      decide +kernel
    · obtain rfl : m = ⟨"hello", .text "It's you, "⟩ := by
        simpa [arabicRequest, TemplateFile.welcome, TemplateFile.nodes, Node.plainMessage] using hm
      decide +kernel
    · have hhello : arabicRequest.bundle.bind (·.get "hello") = some "Ahlan, " := by decide +kernel
      rw [hdirection]
      exact .cons (.same _) (.cons (.chosen rfl rfl) (.cons (.same _) (.cons (.translated hhello)
        (.cons (.same _) (.cons (.same _) (.cons (.same _) .nil))))))
  exact ⟨halike, generate_eq_of_alike halike⟩

end Codegen
end Stencil
