import BusinessAtlas.Proofs.Facts.Shape
import BusinessAtlas.Facts.Context
import BusinessAtlas.Facts.Project

/-!
# Facts that are what they are declared to be

From records whose fields are each missing or of the declared kind a project and its requirements
are read, and the values that later stages use as texts are texts.
-/

namespace BusinessAtlas

open Json (exists_getD exists_getOr exists_pickD exists_pickItems exists_itemsOf conforms_text)

private theorem forall_mem_pair {P : String → Prop} {a b : String} (ha : P a) (hb : P b) :
    ∀ key ∈ [a, b], P key :=
  List.forall_mem_cons.mpr ⟨ha, List.forall_mem_singleton.mpr hb⟩

/-- The names and paths of a component are texts. -/
structure Component.Typed (c : Component) : Prop where
  name : c.name.isText = true
  path : c.path.isText = true
  inputs : ∀ i ∈ c.inputs, i.name.isText = true
  bindings : ∀ b ∈ c.bindings, b.name.isText = true
  children : ∀ name ∈ c.children, name.isText = true
  imports : ∀ source ∈ c.imports, source.isText = true

structure Project.Typed (p : Project) : Prop where
  components : ∀ c ∈ p.components, c.Typed
  files : ∀ f ∈ p.files, f.path.isText = true ∧ ∀ source ∈ f.imports, source.isText = true

/-- The record holds structural facts as declared, with components nested to some depth. -/
def Project.Declared (v : Json) : Prop := ∃ depth, (Shape.project depth).accepts v = true

section

variable {v : Json}

private theorem exists_input (h : v.Conforms Shape.input) :
    ∃ i, Input.ofJson v = .ok i ∧ i.name.isText = true := by
  obtain ⟨s, rfl⟩ | ⟨fs, rfl, hrows⟩ := h.name_or_record
  · exact ⟨_, rfl, rfl⟩
  · simp only [List.forall_mem_cons] at hrows
    obtain ⟨hname, hkind, hrequired, hrequired', -⟩ := hrows
    obtain ⟨name, hn, htext⟩ := exists_getD hname (conforms_text "")
    obtain ⟨kind, hk, -⟩ := exists_getOr hkind (conforms_text "unknown")
    obtain ⟨required, hr, -⟩ := exists_pickD (P := fun _ => True)
      (fun _ _ _ _ => trivial) trivial
    exact ⟨_, bind_eq_ok.mpr ⟨name, hn, bind_eq_ok.mpr ⟨kind, hk, bind_eq_ok.mpr
      ⟨required, hr, rfl⟩⟩⟩, htext.isText⟩

private theorem exists_binding (h : v.Conforms Shape.binding) :
    ∃ b, Binding.ofJson v = .ok b ∧ b.name.isText = true := by
  obtain ⟨s, rfl⟩ | ⟨fs, rfl, hrows⟩ := h.name_or_record
  · exact ⟨_, rfl, rfl⟩
  · simp only [List.forall_mem_cons] at hrows
    obtain ⟨hname, hkind, -⟩ := hrows
    obtain ⟨name, hn, htext⟩ := exists_getD hname (conforms_text "")
    obtain ⟨kind, hk, -⟩ := exists_getOr hkind (conforms_text "other")
    exact ⟨_, bind_eq_ok.mpr ⟨name, hn, bind_eq_ok.mpr ⟨kind, hk, rfl⟩⟩, htext.isText⟩

private theorem exists_nameUnder {key : String} {table : List (String × Json.Schema)}
    (h : v.Conforms (Shape.nameOr table)) (hkey : (key, Shape.text) ∈ table) :
    ∃ name, nameUnder key v = .ok name ∧ name.isText = true := by
  obtain ⟨s, rfl⟩ | ⟨fs, rfl, hrows⟩ := h.name_or_record
  · exact ⟨_, rfl, rfl⟩
  · obtain ⟨name, hn, htext⟩ := exists_getD (hrows _ hkey) (conforms_text "")
    exact ⟨name, hn, htext.isText⟩

end

namespace Component

variable {fs : List (String × Json)} {depth : Nat}

private theorem exists_rows (h : (Json.record fs).Conforms (Shape.component depth)) :
    ∃ depth', ∀ row ∈ [("name", Shape.text), ("filePath", Shape.text), ("file_path", Shape.text),
      ("type", Shape.text), ("props", Shape.listOf Shape.input),
      ("hooks", Shape.listOf Shape.binding), ("imports", Shape.listOf Shape.imported),
      ("children", Shape.listOf (Shape.component depth'))],
      ∀ w, Json.lookup row.1 fs = some w → w.Conforms row.2 := by
  cases depth with
  | zero => cases Json.Conforms.isText h
  | succ depth => exact ⟨depth, h.tail.field⟩

private theorem exists_childName {v : Json} (h : v.Conforms (Shape.component depth)) :
    ∃ name, nameUnder "name" v = .ok name ∧ name.isText = true := by
  cases depth with
  | zero =>
    obtain ⟨s, rfl⟩ := Json.isText_iff.mp (Json.Conforms.isText h)
    exact ⟨_, rfl, rfl⟩
  | succ depth => exact exists_nameUnder h List.mem_cons_self

private theorem exists_ofJson (h : (Json.record fs).Conforms (Shape.component depth)) :
    ∃ c, ofJson (.record fs) = .ok c ∧ c.Typed := by
  obtain ⟨depth', hrows⟩ := exists_rows h
  simp only [List.forall_mem_cons] at hrows
  obtain ⟨hname, hpath, hpath', hkind, hprops, hhooks, himports, hchildren, -⟩ := hrows
  obtain ⟨props, hp, hprops⟩ := exists_pickItems (List.forall_mem_singleton.mpr hprops)
  obtain ⟨inputs, hi, hinputs⟩ := exists_mapM_forall fun x hx => exists_input (hprops x hx)
  obtain ⟨hooks, hh, hhooks⟩ := exists_pickItems (List.forall_mem_singleton.mpr hhooks)
  obtain ⟨bindings, hb, hbindings⟩ := exists_mapM_forall fun x hx => exists_binding (hhooks x hx)
  obtain ⟨sources, hs, hsources⟩ := exists_pickItems (List.forall_mem_singleton.mpr himports)
  obtain ⟨imports, hm, himports⟩ := exists_mapM_forall fun x hx =>
    exists_nameUnder (hsources x hx) (List.mem_singleton_self ("source", Shape.text))
  obtain ⟨name, hn, hname⟩ := exists_getD hname (conforms_text "")
  obtain ⟨path, hpa, hpath⟩ := exists_pickD (forall_mem_pair hpath hpath') (conforms_text "")
  obtain ⟨kind, hk, -⟩ := exists_getOr hkind (conforms_text "function")
  obtain ⟨parts, hpt, hparts⟩ := exists_pickItems (List.forall_mem_singleton.mpr hchildren)
  obtain ⟨children, hc, hchildren⟩ := exists_mapM_forall fun x hx => exists_childName (hparts x hx)
  refine ⟨⟨name, path, kind, inputs, bindings, children, imports⟩, ?_,
    hname.isText, hpath.isText, hinputs, hbindings, hchildren, himports⟩
  simp only [ofJson, hp, hi, hh, hb, hs, hm, hn, hpa, hk, hpt, hc, ok_bind, pure_eq_ok]

private theorem exists_nested (h : (Json.record fs).Conforms (Shape.component depth)) :
    ∃ ns depth', nested (.record fs) = .ok ns ∧
      ∀ v ∈ ns, v.isRecord = true ∧ v.Conforms (Shape.component depth') := by
  obtain ⟨depth', hrows⟩ := exists_rows h
  simp only [List.forall_mem_cons] at hrows
  obtain ⟨-, -, -, -, -, -, -, hchildren, -⟩ := hrows
  obtain ⟨parts, hp, hparts⟩ := exists_itemsOf hchildren
  refine ⟨parts.filter Json.isRecord, depth', bind_eq_ok.mpr ⟨parts, hp, rfl⟩, fun v hv => ?_⟩
  obtain ⟨hmem, hrecord⟩ := List.mem_filter.mp hv
  exact ⟨hrecord, hparts v hmem⟩

private theorem exists_collect (fuel : Nat) {pending : List Json} (h : ∀ v ∈ pending,
    v.isRecord = true ∧ ∃ depth, v.Conforms (Shape.component depth)) :
    ∃ cs, collect fuel pending = .ok cs ∧ ∀ c ∈ cs, c.Typed := by
  induction fuel generalizing pending with
  | zero => cases pending <;> exact ⟨[], rfl, fun c hc => absurd hc List.not_mem_nil⟩
  | succ fuel ih =>
    cases pending with
    | nil => exact ⟨[], rfl, fun c hc => absurd hc List.not_mem_nil⟩
    | cons v pending =>
      obtain ⟨⟨hrecord, depth, hshape⟩, hrest⟩ := List.forall_mem_cons.mp h
      cases v with
      | record fs =>
        obtain ⟨c, hc, htyped⟩ := exists_ofJson hshape
        obtain ⟨ns, depth', hn, hnested⟩ := exists_nested hshape
        have hlater : ∀ v ∈ pending ++ ns,
            v.isRecord = true ∧ ∃ depth, v.Conforms (Shape.component depth) := by
          intro v hv
          rcases List.mem_append.mp hv with hv | hv
          · exact hrest v hv
          · exact ⟨(hnested v hv).1, depth', (hnested v hv).2⟩
        obtain ⟨cs, hcs, hall⟩ := ih hlater
        exact ⟨c :: cs, bind_eq_ok.mpr ⟨c, hc, bind_eq_ok.mpr ⟨ns, hn, bind_eq_ok.mpr ⟨cs, hcs, rfl⟩⟩⟩,
          List.forall_mem_cons.mpr ⟨htyped, hall⟩⟩
      | _ => cases hrecord

end Component

namespace Project

private theorem exists_distinct (seen : List Key) {cs : List Component} (h : ∀ c ∈ cs, c.Typed) :
    ∃ ds, distinct seen cs = .ok ds ∧ ∀ d ∈ ds, d.Typed := by
  induction cs generalizing seen with
  | nil => exact ⟨[], rfl, h⟩
  | cons c cs ih =>
    obtain ⟨hc, hcs⟩ := List.forall_mem_cons.mp h
    obtain ⟨name, hname⟩ := Json.isText_iff.mp hc.name
    have hident : c.name.asIdent = .ok (.text name) := hname ▸ rfl
    rw [distinct, hident, ok_bind]
    split
    · exact ih seen hcs
    · obtain ⟨ds, hd, hall⟩ := ih ((Ident.text name).key :: seen) hcs
      exact ⟨c :: ds, bind_eq_ok.mpr ⟨ds, hd, rfl⟩, List.forall_mem_cons.mpr ⟨hc, hall⟩⟩

private theorem exists_file {v : Json} (h : v.Conforms Shape.file) :
    ∃ f, SourceFile.ofJson v = .ok f ∧ f.path.isText = true ∧
      ∀ source ∈ f.imports, source.isText = true := by
  obtain ⟨fs, rfl, hrows⟩ := h.exists_record
  simp only [List.forall_mem_cons] at hrows
  obtain ⟨hpath, himports, -⟩ := hrows
  obtain ⟨path, hp, hpath⟩ := exists_getD hpath (conforms_text "")
  obtain ⟨sources, hs, hsources⟩ := exists_itemsOf himports
  obtain ⟨imports, hi, himports⟩ := exists_mapM_forall fun x hx =>
    exists_nameUnder (hsources x hx) (List.mem_singleton_self ("source", Shape.text))
  refine ⟨⟨path, imports⟩, ?_, hpath.isText, himports⟩
  simp only [SourceFile.ofJson, hp, hs, hi, ok_bind, pure_eq_ok]

private theorem exists_transfer {v : Json} (h : v.Conforms Shape.transfer) :
    ∃ t, Transfer.ofJson v = .ok t := by
  obtain ⟨fs, rfl, hrows⟩ := h.exists_record
  simp only [List.forall_mem_cons] at hrows
  obtain ⟨hfrom, hsource, hto, htarget, hkind, -⟩ := hrows
  obtain ⟨source, hs, -⟩ := exists_pickD (forall_mem_pair hfrom hsource) (conforms_text "")
  obtain ⟨target, ht, -⟩ := exists_pickD (forall_mem_pair hto htarget) (conforms_text "")
  obtain ⟨kind, hk, -⟩ := exists_getOr hkind (conforms_text "props")
  obtain ⟨data, hd, -⟩ := exists_getD (P := fun _ => True) (fun _ _ => trivial) trivial
  exact ⟨_, bind_eq_ok.mpr ⟨source, hs, bind_eq_ok.mpr ⟨target, ht, bind_eq_ok.mpr ⟨kind, hk,
    bind_eq_ok.mpr ⟨data, hd, rfl⟩⟩⟩⟩⟩

private theorem pending_of_root {v : Json} {depth : Nat} (h : v.Conforms (Shape.component depth))
    (htext : v.isText = false) : v.isRecord = true ∧ ∃ depth, v.Conforms (Shape.component depth) := by
  refine ⟨?_, depth, h⟩
  cases depth with
  | zero =>
    rw [Json.Conforms.isText h] at htext
    cases htext
  | succ depth =>
    obtain ⟨s, rfl⟩ | ⟨fs, rfl, -⟩ := Json.Conforms.name_or_record h
    · cases htext
    · rfl

/-- Structural facts that are what they are declared to be can be read. -/
theorem exists_ofJson {v : Json} (h : Declared v) : ∃ p, ofJson v = .ok p ∧ p.Typed := by
  obtain ⟨depth, h⟩ := h
  obtain ⟨fs, rfl, hrows⟩ := (Json.conforms_of_accepts h).exists_record
  simp only [List.forall_mem_cons] at hrows
  obtain ⟨hcomponents, hfiles, hflows, hflows', -⟩ := hrows
  obtain ⟨roots, hr, hroots⟩ := exists_pickItems (List.forall_mem_singleton.mpr hcomponents)
  have hpending : ∀ v ∈ roots.filter fun r => !r.isText,
      v.isRecord = true ∧ ∃ depth, v.Conforms (Shape.component depth) := by
    intro v hv
    obtain ⟨hmem, htext⟩ := List.mem_filter.mp hv
    exact pending_of_root (hroots v hmem) (by simpa using htext)
  obtain ⟨found, hf, hfound⟩ := Component.exists_collect (Json.record fs).weight hpending
  obtain ⟨components, hc, hcomponents⟩ := exists_distinct [] hfound
  obtain ⟨records, hrs, hrecords⟩ := exists_pickItems (List.forall_mem_singleton.mpr hfiles)
  obtain ⟨files, hfs, hfiles⟩ := exists_mapM_forall fun x hx => exists_file (hrecords x hx)
  obtain ⟨flows, hfl, hflows⟩ := exists_pickItems (forall_mem_pair hflows hflows')
  obtain ⟨transfers, ht⟩ := exists_mapM fun x hx => exists_transfer (hflows x hx)
  have hpaths : ∃ paths, files.mapM (fun f => f.path.asIdent) = .ok paths := by
    refine exists_mapM fun f hmem => ?_
    obtain ⟨path, hpath⟩ := Json.isText_iff.mp (hfiles f hmem).1
    exact ⟨.text path, hpath ▸ rfl⟩
  obtain ⟨paths, hp⟩ := hpaths
  refine ⟨⟨components, files, transfers⟩, ?_, hcomponents, hfiles⟩
  simp only [ofJson, ofParts, hr, hf, hc, hrs, hfs, hfl, ht, hp, ok_bind, pure_eq_ok]

end Project

structure Story.Typed {α : Type} (s : Story α) : Prop where
  id : s.id.isText = true
  priority : s.priority.isText = true
  complexity : s.complexity.isText = true

/-- The names of a capability are texts, and what it depends on is listed. -/
structure Capability.Typed (c : Capability) : Prop where
  id : c.id.isText = true
  name : c.name.isText = true
  value : c.value.isText = true
  stories : ∀ story ∈ c.stories, story.isText = true
  components : ∀ name ∈ c.components, name.isText = true
  entities : ∀ name ∈ c.entities, name.isText = true
  dependencies : ∃ ds, c.raw.itemsOf "dependencies" = .ok ds

structure Entity.Typed (e : Entity) : Prop where
  name : e.name.isText = true
  purpose : e.purpose.isText = true

structure Rule.Typed (r : Rule) : Prop where
  id : r.id.isText = true
  category : r.category.isText = true
  entities : ∀ name ∈ r.entities, name.isText = true

structure Persona.Typed (p : Persona) : Prop where
  id : p.id.isText = true
  goals : ∀ goal ∈ p.goals, goal.isText = true

structure Context.Typed {α : Type} (c : Context α) : Prop where
  stories : ∀ s ∈ c.stories, s.Typed
  capabilities : ∀ x ∈ c.capabilities, x.Typed
  entities : ∀ e ∈ c.entities, e.Typed
  rules : ∀ r ∈ c.rules, r.Typed
  personas : ∀ p ∈ c.personas, p.Typed

/-- The record holds requirements as declared. A confidence is a double, so an integer beyond the
range of doubles is none. -/
structure Context.Declared (v : Json) : Prop where
  shape : Shape.context.accepts v = true
  confidences : ∀ stories, v.pickItems ["userStories", "user_stories"] = .ok stories →
    ∀ s ∈ stories, ∀ n, s.field? "confidence" = some (.number n) → n.overflows = false

section

variable {v : Json}

private theorem exists_confidence {fs : List (String × Json)}
    (hnumber : ∀ w, Json.lookup "confidence" fs = some w → w.Conforms Shape.number)
    (hrange : ∀ n, Json.lookup "confidence" fs = some (.number n) → n.overflows = false) :
    ∃ w, (Json.record fs).getD "confidence" .null = .ok w ∧ ∃ x, w.asFloat = .ok x := by
  refine exists_getD (fun w hw => ?_) ⟨0, rfl⟩
  obtain ⟨n, rfl⟩ := (hnumber w hw).exists_number
  rw [Json.asFloat]
  split
  · exact ⟨_, rfl⟩
  · rw [hrange n hw]
    exact ⟨_, rfl⟩

private theorem exists_story (h : v.Conforms Shape.story)
    (hrange : ∀ n, v.field? "confidence" = some (.number n) → n.overflows = false) :
    ∃ s, Story.ofJson v = .ok s ∧ s.Typed := by
  obtain ⟨fs, rfl, hrows⟩ := h.exists_record
  simp only [List.forall_mem_cons] at hrows
  obtain ⟨hid, htitle, hdescription, hpersona, hpriority, hconfidence, hkind, hkind', hcapability,
    hcapability', hcomplexity, hcomponents, hcomponents', hcriteria, hcriteria', -⟩ := hrows
  obtain ⟨id, hi, hid⟩ := exists_getD hid (conforms_text "")
  obtain ⟨title, ht, -⟩ := exists_getD htitle (conforms_text "")
  obtain ⟨description, hd, -⟩ := exists_getD hdescription (conforms_text "")
  obtain ⟨persona, hp, -⟩ := exists_getD hpersona (conforms_text "")
  obtain ⟨priority, hpr, hpriority⟩ := exists_getOr hpriority (conforms_text "low")
  obtain ⟨number, hn, confidence, hc⟩ := exists_confidence hconfidence hrange
  obtain ⟨kind, hk, -⟩ := exists_pickD (forall_mem_pair hkind hkind') (conforms_text "")
  obtain ⟨capability, hca, -⟩ :=
    exists_pickD (forall_mem_pair hcapability hcapability') (conforms_text "")
  obtain ⟨complexity, hco, hcomplexity⟩ := exists_getOr hcomplexity (conforms_text "simple")
  obtain ⟨components, hcs, -⟩ := exists_pickItems (forall_mem_pair hcomponents hcomponents')
  obtain ⟨criteria, hcr, -⟩ := exists_pickItems (forall_mem_pair hcriteria hcriteria')
  refine ⟨⟨id, title, description, persona, priority, .float confidence, kind, capability,
    complexity, components, criteria, .record fs⟩, ?_, hid.isText, hpriority.isText,
    hcomplexity.isText⟩
  simp only [Story.ofJson, hi, ht, hd, hp, hpr, hn, hc, hk, hca, hco, hcs, hcr, ok_bind, pure_eq_ok]

private theorem exists_capability (h : v.Conforms Shape.capability) :
    ∃ c, Capability.ofJson v = .ok c ∧ c.Typed := by
  obtain ⟨fs, rfl, hrows⟩ := h.exists_record
  simp only [List.forall_mem_cons] at hrows
  obtain ⟨hid, hname, hdescription, hstories, hstories', hcomponents, hentities, hentities',
    hoperations, hvalue, hvalue', hdependencies, -⟩ := hrows
  obtain ⟨id, hi, hid⟩ := exists_getD hid (conforms_text "")
  obtain ⟨name, hn, hname⟩ := exists_getD hname (conforms_text "")
  obtain ⟨description, hd, -⟩ := exists_getD hdescription (conforms_text "")
  obtain ⟨stories, hs, hstories⟩ := exists_pickItems (forall_mem_pair hstories hstories')
  obtain ⟨components, hc, hcomponents⟩ := exists_itemsOf hcomponents
  obtain ⟨entities, he, hentities⟩ := exists_pickItems (forall_mem_pair hentities hentities')
  obtain ⟨operations, ho, -⟩ := exists_itemsOf hoperations
  obtain ⟨value, hv, hvalue⟩ := exists_pickD (forall_mem_pair hvalue hvalue') (conforms_text "generic")
  obtain ⟨dependencies, hde, -⟩ := exists_itemsOf hdependencies
  refine ⟨⟨id, name, description, stories, components, entities, operations, value, .record fs⟩, ?_,
    hid.isText, hname.isText, hvalue.isText, fun x hx => (hstories x hx).isText,
    fun x hx => (hcomponents x hx).isText, fun x hx => (hentities x hx).isText, dependencies, hde⟩
  simp only [Capability.ofJson, hi, hn, hd, hs, hc, he, ho, hv, ok_bind, pure_eq_ok]

private theorem exists_entity (h : v.Conforms Shape.entity) :
    ∃ e, Entity.ofJson v = .ok e ∧ e.Typed := by
  obtain ⟨fs, rfl, hrows⟩ := h.exists_record
  simp only [List.forall_mem_cons] at hrows
  obtain ⟨hname, hattributes, hrelationships, hoperations, hpurpose, hpurpose', -⟩ := hrows
  obtain ⟨name, hn, hname⟩ := exists_getD hname (conforms_text "")
  obtain ⟨attributes, ha, -⟩ := exists_itemsOf hattributes
  obtain ⟨relationships, hr, -⟩ := exists_itemsOf hrelationships
  obtain ⟨operations, ho, -⟩ := exists_itemsOf hoperations
  obtain ⟨purpose, hp, hpurpose⟩ :=
    exists_pickD (forall_mem_pair hpurpose hpurpose') (conforms_text "")
  refine ⟨⟨name, attributes, relationships, operations, purpose, .record fs⟩, ?_, hname.isText,
    hpurpose.isText⟩
  simp only [Entity.ofJson, hn, ha, hr, ho, hp, ok_bind, pure_eq_ok]

private theorem exists_rule (h : v.Conforms Shape.rule) : ∃ r, Rule.ofJson v = .ok r ∧ r.Typed := by
  obtain ⟨fs, rfl, hrows⟩ := h.exists_record
  simp only [List.forall_mem_cons] at hrows
  obtain ⟨hid, hdescription, hcategory, himplementation, hentities, hentities', hconditions,
    hactions, -⟩ := hrows
  obtain ⟨id, hi, hid⟩ := exists_getD hid (conforms_text "")
  obtain ⟨description, hd, -⟩ := exists_getD hdescription (conforms_text "")
  obtain ⟨category, hc, hcategory⟩ := exists_getOr hcategory (conforms_text "workflow")
  obtain ⟨implementation, hm, -⟩ := exists_itemsOf himplementation
  obtain ⟨entities, he, hentities⟩ := exists_pickItems (forall_mem_pair hentities hentities')
  obtain ⟨conditions, hco, -⟩ := exists_itemsOf hconditions
  obtain ⟨actions, ha, -⟩ := exists_itemsOf hactions
  refine ⟨⟨id, description, category, implementation, entities, conditions, actions, .record fs⟩,
    ?_, hid.isText, hcategory.isText, fun x hx => (hentities x hx).isText⟩
  simp only [Rule.ofJson, hi, hd, hc, hm, he, hco, ha, ok_bind, pure_eq_ok]

private theorem exists_persona (h : v.Conforms Shape.persona) :
    ∃ p, Persona.ofJson v = .ok p ∧ p.Typed := by
  obtain ⟨fs, rfl, hrows⟩ := h.exists_record
  simp only [List.forall_mem_cons] at hrows
  obtain ⟨hid, hname, hdescription, hgoals, hcapabilities, -⟩ := hrows
  obtain ⟨id, hi, hid⟩ := exists_getD hid (conforms_text "")
  obtain ⟨name, hn, -⟩ := exists_getD hname (conforms_text "")
  obtain ⟨description, hd, -⟩ := exists_getD hdescription (conforms_text "")
  obtain ⟨goals, hg, hgoals⟩ := exists_itemsOf hgoals
  obtain ⟨capabilities, hc, -⟩ := exists_itemsOf hcapabilities
  refine ⟨⟨id, name, description, goals, capabilities, .record fs⟩, ?_, hid.isText,
    fun x hx => (hgoals x hx).isText⟩
  simp only [Persona.ofJson, hi, hn, hd, hg, hc, ok_bind, pure_eq_ok]

end

/-- Requirements that are what they are declared to be can be read. -/
theorem Context.exists_ofJson {v : Json} (h : Declared v) : ∃ c, ofJson v = .ok c ∧ c.Typed := by
  obtain ⟨fs, rfl, hrows⟩ := (Json.conforms_of_accepts h.shape).exists_record
  simp only [List.forall_mem_cons] at hrows
  obtain ⟨hstories, hstories', hcapabilities, hentities, hentities', hrules, hrules', hpersonas, -⟩ :=
    hrows
  obtain ⟨storyRecords, hs, hrecords⟩ := exists_pickItems (forall_mem_pair hstories hstories')
  obtain ⟨stories, hst, hstories⟩ := exists_mapM_forall fun x hx =>
    exists_story (hrecords x hx) (h.confidences storyRecords hs x hx)
  obtain ⟨capabilityRecords, hc, hrecords⟩ := exists_itemsOf hcapabilities
  obtain ⟨capabilities, hca, hcapabilities⟩ := exists_mapM_forall fun x hx =>
    exists_capability (hrecords x hx)
  obtain ⟨entityRecords, he, hrecords⟩ := exists_pickItems (forall_mem_pair hentities hentities')
  obtain ⟨entities, hen, hentities⟩ := exists_mapM_forall fun x hx => exists_entity (hrecords x hx)
  obtain ⟨ruleRecords, hr, hrecords⟩ := exists_pickItems (forall_mem_pair hrules hrules')
  obtain ⟨rules, hru, hrules⟩ := exists_mapM_forall fun x hx => exists_rule (hrecords x hx)
  obtain ⟨personaRecords, hp, hrecords⟩ := exists_itemsOf hpersonas
  obtain ⟨personas, hpe, hpersonas⟩ := exists_mapM_forall fun x hx => exists_persona (hrecords x hx)
  have hitself : (Json.record fs).orElse (.record []) = .record fs := by
    cases fs <;> rfl
  refine ⟨⟨stories, capabilities, entities, rules, personas⟩, ?_, hstories, hcapabilities, hentities,
    hrules, hpersonas⟩
  simp only [ofJson, hitself, hs, hst, hc, hca, he, hen, hr, hru, hp, hpe, ok_bind, pure_eq_ok]

end BusinessAtlas
