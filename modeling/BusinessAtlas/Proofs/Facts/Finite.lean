import BusinessAtlas.Document
import BusinessAtlas.Proofs.Json.Hereditary
import BusinessAtlas.Proofs.Json.Printer

/-!
# Reading finite facts

A facts document in which all numbers are finite holds only finite values wherever it is read from:
whatever a field, an item or a default gives, the records keep no other number than those of the
document. The one exception is the confidence of a story, which may also be given by a text.
-/

namespace BusinessAtlas

namespace Json

variable {v d : Json} {key : String} {spellings : List String}

theorem hereditary_finite : Hereditary Finite :=
  ⟨finite_null, finite_text, finite_list, finite_record.mp⟩

theorem Finite.orElse (hv : v.Finite) (hd : d.Finite) : (v.orElse d).Finite :=
  Hereditary.orElse hv hd

theorem Finite.getD (hv : v.Finite) (hd : d.Finite) : Yields (v.getD key d) Finite :=
  hereditary_finite.getD hv hd

theorem Finite.getOr (hv : v.Finite) (hd : d.Finite) : Yields (v.getOr key d) Finite :=
  hereditary_finite.getOr hv hd

theorem Finite.pickD (hv : v.Finite) (hd : d.Finite) : Yields (v.pickD spellings d) Finite :=
  hereditary_finite.pickD hv hd

theorem Finite.items (hv : v.Finite) : Yields v.items fun vs => ∀ w ∈ vs, w.Finite :=
  hereditary_finite.items hv

theorem Finite.pickItems (hv : v.Finite) :
    Yields (v.pickItems spellings) fun vs => ∀ w ∈ vs, w.Finite :=
  hereditary_finite.pickItems hv

theorem Finite.itemsOf (hv : v.Finite) : Yields (v.itemsOf key) fun vs => ∀ w ∈ vs, w.Finite :=
  hereditary_finite.itemsOf hv

theorem Finite.asIdent (hv : v.Finite) : Yields v.asIdent fun i => i.toJson.Finite := by
  intro i hi
  cases v with
  | null => cases hi; exact hv
  | bool => cases hi; exact hv
  | number => cases hi; exact hv
  | text => cases hi; exact hv
  | list => cases hi
  | record => cases hi

end Json

/-- What is kept of a component for the files is finite. -/
def Component.Finite (c : Component) : Prop := ∀ i ∈ c.inputs, i.kind.Finite

/-- The values of a story that are written to files. -/
structure Story.Finite {α : Type} (s : Story α) : Prop where
  id : s.id.Finite
  title : s.title.Finite
  description : s.description.Finite
  priority : s.priority.Finite
  kind : s.kind.Finite
  capability : s.capability.Finite
  raw : s.raw.Finite

/-- The values of a capability that are written to files. -/
structure Capability.Finite (c : Capability) : Prop where
  id : c.id.Finite
  name : c.name.Finite
  description : c.description.Finite
  stories : ∀ v ∈ c.stories, v.Finite
  entities : ∀ v ∈ c.entities, v.Finite
  value : c.value.Finite
  raw : c.raw.Finite

/-- The values of an entity that are written to files. -/
structure Entity.Finite (e : Entity) : Prop where
  name : e.name.Finite
  purpose : e.purpose.Finite
  raw : e.raw.Finite

/-- The values of a rule that are written to files. -/
structure Rule.Finite (r : Rule) : Prop where
  id : r.id.Finite
  description : r.description.Finite
  category : r.category.Finite
  raw : r.raw.Finite

/-- The values of a persona that are written to files. -/
structure Persona.Finite (p : Persona) : Prop where
  id : p.id.Finite
  name : p.name.Finite
  description : p.description.Finite
  raw : p.raw.Finite

/-- All requirements hold finite values. -/
structure Context.Finite {α : Type} (c : Context α) : Prop where
  stories : ∀ s ∈ c.stories, s.Finite
  capabilities : ∀ x ∈ c.capabilities, x.Finite
  entities : ∀ e ∈ c.entities, e.Finite
  rules : ∀ r ∈ c.rules, r.Finite
  personas : ∀ p ∈ c.personas, p.Finite

theorem Context.Finite.toJson {α : Type} {c : Context α} (h : c.Finite) : c.toJson.Finite := by
  simpa [Context.toJson] using
    ⟨fun s hs => (h.stories s hs).raw, fun x hx => (h.capabilities x hx).raw,
      fun e he => (h.entities e he).raw, fun r hr => (h.rules r hr).raw,
      fun p hp => (h.personas p hp).raw⟩

section

variable {v : Json}

private theorem finite_input (hv : v.Finite) : Yields (Input.ofJson v) fun i => i.kind.Finite := by
  unfold Input.ofJson
  split
  · exact yields_ok (Json.finite_text _)
  · refine Yields.bind (yields_true _) fun name _ => ?_
    refine Yields.bind (hv.getOr (Json.finite_text _)) fun kind hkind => ?_
    exact Yields.bind (yields_true _) fun required _ => yields_ok hkind

private theorem finite_component (hv : v.Finite) : Yields (Component.ofJson v) Component.Finite := by
  refine Yields.bind hv.pickItems fun props hprops => ?_
  refine Yields.bind (yields_mapM fun i hi => finite_input (hprops i hi)) fun inputs hinputs => ?_
  refine Yields.bind (yields_true _) fun hooks _ => ?_
  refine Yields.bind (yields_true _) fun bindings _ => ?_
  refine Yields.bind (yields_true _) fun sources _ => ?_
  refine Yields.bind (yields_true _) fun imports _ => ?_
  refine Yields.bind (yields_true _) fun name _ => ?_
  refine Yields.bind (yields_true _) fun path _ => ?_
  refine Yields.bind (yields_true _) fun kind _ => ?_
  refine Yields.bind (yields_true _) fun refs _ => ?_
  exact Yields.bind (yields_true _) fun children _ => yields_ok hinputs

private theorem finite_collect {n : Nat} {pending : List Json} (h : ∀ w ∈ pending, w.Finite) :
    Yields (Component.collect n pending) fun cs => ∀ c ∈ cs, c.Finite := by
  induction n generalizing pending with
  | zero => cases pending <;> exact yields_ok nofun
  | succ n ih =>
    cases pending with
    | nil => exact yields_ok nofun
    | cons w rest =>
      obtain ⟨hw, hrest⟩ := List.forall_mem_cons.mp h
      refine Yields.bind (finite_component hw) fun c hc => ?_
      have hbelow : Yields (Component.nested w) fun ns => ∀ u ∈ ns, u.Finite :=
        Yields.bind hw.itemsOf fun items hitems =>
          yields_ok fun u hu => hitems u (List.mem_of_mem_filter hu)
      refine Yields.bind hbelow fun nested hnested => ?_
      refine Yields.bind (ih (List.forall_mem_append.mpr ⟨hrest, hnested⟩)) fun cs hcs => ?_
      exact yields_ok (List.forall_mem_cons.mpr ⟨hc, hcs⟩)

private theorem mem_of_distinct {seen : List Key} {cs : List Component} :
    Yields (Project.distinct seen cs) fun table => ∀ c ∈ table, c ∈ cs := by
  induction cs generalizing seen with
  | nil => exact yields_ok nofun
  | cons c rest ih =>
    refine Yields.bind (yields_true _) fun name _ => ?_
    split
    · exact ih.imp fun table htable d hd => List.mem_cons_of_mem c (htable d hd)
    · refine Yields.bind ih fun table htable => yields_ok ?_
      exact List.forall_mem_cons.mpr
        ⟨List.mem_cons_self, fun d hd => List.mem_cons_of_mem c (htable d hd)⟩

theorem Project.finite_ofJson (hv : v.Finite) :
    Yields (Project.ofJson v) fun p => ∀ c ∈ p.components, c.Finite := by
  refine Yields.bind hv.pickItems fun roots hroots => ?_
  refine Yields.bind (finite_collect fun w hw => hroots w (List.mem_of_mem_filter hw)) fun cs hcs => ?_
  refine Yields.bind (yields_true _) fun records _ => ?_
  refine Yields.bind (yields_true _) fun files _ => ?_
  refine Yields.bind (yields_true _) fun rows _ => ?_
  refine Yields.bind (yields_true _) fun transfers _ => ?_
  refine Yields.bind mem_of_distinct fun table htable => ?_
  exact Yields.bind (yields_true _) fun paths _ => yields_ok fun c hc => hcs c (htable c hc)

private theorem finite_story (hv : v.Finite) : Yields (Story.ofJson v) Story.Finite := by
  refine Yields.bind (hv.getD (by simp)) fun id hid => ?_
  refine Yields.bind (hv.getD (by simp)) fun title htitle => ?_
  refine Yields.bind (hv.getD (by simp)) fun description hdescription => ?_
  refine Yields.bind (yields_true _) fun persona _ => ?_
  refine Yields.bind (hv.getOr (by simp)) fun priority hpriority => ?_
  refine Yields.bind (yields_true _) fun given _ => ?_
  refine Yields.bind (yields_true _) fun confidence _ => ?_
  refine Yields.bind (hv.pickD (by simp)) fun kind hkind => ?_
  refine Yields.bind (hv.pickD (by simp)) fun capability hcapability => ?_
  refine Yields.bind (yields_true _) fun complexity _ => ?_
  refine Yields.bind (yields_true _) fun components _ => ?_
  refine Yields.bind (yields_true _) fun criteria _ => ?_
  exact yields_ok ⟨hid, htitle, hdescription, hpriority, hkind, hcapability, hv⟩

private theorem finite_capability (hv : v.Finite) :
    Yields (Capability.ofJson v) Capability.Finite := by
  refine Yields.bind (hv.getD (by simp)) fun id hid => ?_
  refine Yields.bind (hv.getD (by simp)) fun name hname => ?_
  refine Yields.bind (hv.getD (by simp)) fun description hdescription => ?_
  refine Yields.bind hv.pickItems fun stories hstories => ?_
  refine Yields.bind (yields_true _) fun components _ => ?_
  refine Yields.bind hv.pickItems fun entities hentities => ?_
  refine Yields.bind (yields_true _) fun operations _ => ?_
  refine Yields.bind (hv.pickD (by simp)) fun value hvalue => ?_
  exact yields_ok ⟨hid, hname, hdescription, hstories, hentities, hvalue, hv⟩

private theorem finite_entity (hv : v.Finite) : Yields (Entity.ofJson v) Entity.Finite := by
  refine Yields.bind (hv.getD (by simp)) fun name hname => ?_
  refine Yields.bind (yields_true _) fun attributes _ => ?_
  refine Yields.bind (yields_true _) fun relationships _ => ?_
  refine Yields.bind (yields_true _) fun operations _ => ?_
  refine Yields.bind (hv.pickD (by simp)) fun purpose hpurpose => ?_
  exact yields_ok ⟨hname, hpurpose, hv⟩

private theorem finite_rule (hv : v.Finite) : Yields (Rule.ofJson v) Rule.Finite := by
  refine Yields.bind (hv.getD (by simp)) fun id hid => ?_
  refine Yields.bind (hv.getD (by simp)) fun description hdescription => ?_
  refine Yields.bind (hv.getOr (by simp)) fun category hcategory => ?_
  refine Yields.bind (yields_true _) fun implementation _ => ?_
  refine Yields.bind (yields_true _) fun entities _ => ?_
  refine Yields.bind (yields_true _) fun conditions _ => ?_
  refine Yields.bind (yields_true _) fun actions _ => ?_
  exact yields_ok ⟨hid, hdescription, hcategory, hv⟩

private theorem finite_persona (hv : v.Finite) : Yields (Persona.ofJson v) Persona.Finite := by
  refine Yields.bind (hv.getD (by simp)) fun id hid => ?_
  refine Yields.bind (hv.getD (by simp)) fun name hname => ?_
  refine Yields.bind (hv.getD (by simp)) fun description hdescription => ?_
  refine Yields.bind (yields_true _) fun goals _ => ?_
  refine Yields.bind (yields_true _) fun capabilities _ => ?_
  exact yields_ok ⟨hid, hname, hdescription, hv⟩

theorem Context.finite_ofFacts (hv : v.Finite) : Yields (Context.ofFacts v) Context.Finite := by
  refine Yields.bind (hv.pickD (by simp)) fun w hw => ?_
  have hw : (w.orElse (.record [])).Finite := hw.orElse (by simp)
  refine Yields.bind hw.pickItems fun items hitems => ?_
  refine Yields.bind (yields_mapM fun u hu => finite_story (hitems u hu)) fun stories hstories => ?_
  refine Yields.bind hw.itemsOf fun items hitems => ?_
  refine Yields.bind (yields_mapM fun u hu => finite_capability (hitems u hu))
    fun capabilities hcapabilities => ?_
  refine Yields.bind hw.pickItems fun items hitems => ?_
  refine Yields.bind (yields_mapM fun u hu => finite_entity (hitems u hu)) fun entities hentities => ?_
  refine Yields.bind hw.pickItems fun items hitems => ?_
  refine Yields.bind (yields_mapM fun u hu => finite_rule (hitems u hu)) fun rules hrules => ?_
  refine Yields.bind hw.itemsOf fun items hitems => ?_
  refine Yields.bind (yields_mapM fun u hu => finite_persona (hitems u hu))
    fun personas hpersonas => ?_
  exact yields_ok ⟨hstories, hcapabilities, hentities, hrules, hpersonas⟩

end

end BusinessAtlas
