import BusinessAtlas.Facts.Context
import BusinessAtlas.Proofs.Facts.Spelling

/-!
# Facts in either spelling

Every kind of record of the facts is read the same whether its fields are spelled plainly or not,
and so are the documents they stand in: the same structural facts are found, the same requirements,
and where reading stops it stops with the same fault. The components that are nested in others are
found in the same order, since at every step of the search the same records are pending. The
requirements keep the records they were read from, and these are spelled as they were given.
-/

namespace BusinessAtlas

section

variable {v : Json}

theorem nameUnder_respell {r : Role} {key : String} (h : r.reads [key] = some .kept) :
    nameUnder key (v.respell (.record r)) = nameUnder key v := by
  cases v with
  | record fields => exact Json.getD_kept h
  | _ => rfl

theorem Input.ofJson_respell (hv : v.unmixed (.record .input) = true) :
    Input.ofJson (v.respell (.record .input)) = Input.ofJson v := by
  cases v with
  | record fields =>
    rw [Input.ofJson, Input.ofJson]
    · simp (disch := decide) only [Json.getD_kept, Json.getOr_kept, Json.pickD_kept hv]
    · nofun
    · nofun
  | _ => rfl

theorem Transfer.ofJson_respell (hv : v.unmixed (.record .transfer) = true) :
    Transfer.ofJson (v.respell (.record .transfer)) = Transfer.ofJson v := by
  simp (disch := decide) only [Transfer.ofJson, Json.getD_kept, Json.getOr_kept,
    Json.pickD_kept hv]

theorem Component.ofJson_respell (hv : v.unmixed (.record .component) = true) :
    Component.ofJson (v.respell (.record .component)) = Component.ofJson v := by
  have hinputs : Json.Alike .input (v.pickItems ["props"]) _ := Json.alike_pickItems hv (by decide)
  have hchildren : Json.Alike .component (v.pickItems ["children"]) _ :=
    Json.alike_pickItems hv (by decide)
  have hname (w : Json) (_ : w.unmixed (.record .component) = true) :
      nameUnder "name" (w.respell (.record .component)) = nameUnder "name" w :=
    nameUnder_respell (by decide)
  unfold Component.ofJson
  simp (disch := decide) only [hinputs.bind_mapM_same fun w => Input.ofJson_respell,
    hchildren.bind_mapM_same hname, Json.pickItems_kept hv, Json.getD_kept, Json.pickD_kept hv,
    Json.getOr_kept]

theorem Component.alike_nested (hv : v.unmixed (.record .component) = true) :
    Json.Alike .component (Component.nested v)
      (Component.nested (v.respell (.record .component))) := by
  have hitems : Json.Alike .component (v.itemsOf "children") _ := Json.alike_itemsOf hv (by decide)
  unfold Component.nested
  constructor
  · rw [hitems.eq]
    simp only [bind_map_left, map_bind, map_pure, List.filter_map, Function.comp_def,
      Json.isRecord_respell]
  · exact Yields.bind hitems.unmixed fun items h =>
      yields_ok fun w hw => h w (List.mem_of_mem_filter hw)

theorem Component.collect_respell {fuel : Nat} {pending : List Json}
    (h : ∀ w ∈ pending, w.unmixed (.record .component) = true) :
    Component.collect fuel (pending.map (Json.respell (.record .component))) =
      Component.collect fuel pending := by
  induction fuel generalizing pending with
  | zero => cases pending <;> rfl
  | succ fuel ih =>
    cases pending with
    | nil => rfl
    | cons w rest =>
      obtain ⟨hw, hrest⟩ := List.forall_mem_cons.mp h
      have hnested := Component.alike_nested hw
      rw [List.map_cons, Component.collect, Component.collect, Component.ofJson_respell hw,
        hnested.eq]
      congr 1
      funext c
      cases hn : Component.nested w with
      | error e => rfl
      | ok nested =>
        have hall := List.forall_mem_append.mpr ⟨hrest, hnested.unmixed nested hn⟩
        rw [map_ok, ok_bind, ok_bind, ← List.map_append, ih hall]

theorem Project.ofJson_respell (hv : v.unmixed (.record .facts) = true) :
    Project.ofJson (v.respell (.record .facts)) = Project.ofJson v := by
  have hroots : Json.Alike .component (v.pickItems ["components"]) _ :=
    Json.alike_pickItems hv (by decide)
  have htransfers : Json.Alike .transfer (v.pickItems ["dataFlows", "data_flows"]) _ :=
    Json.alike_pickItems hv (by decide)
  unfold Project.ofJson
  simp (disch := decide) only [htransfers.bind_mapM_same fun w => Transfer.ofJson_respell,
    Json.pickItems_kept hv, Json.weight_respell, hroots.eq, bind_map_left]
  cases hr : v.pickItems ["components"] with
  | error e => rfl
  | ok roots =>
    have hnamed : (roots.map (Json.respell (.record .component))).filter (fun r => !r.isText) =
        (roots.filter fun r => !r.isText).map (Json.respell (.record .component)) := by
      simp only [List.filter_map, Function.comp_def, Json.isText_respell]
    rw [ok_bind, ok_bind, hnamed, Component.collect_respell fun w hw =>
      hroots.unmixed roots hr w (List.mem_of_mem_filter hw)]

/-- The story with what it keeps of its record spelled plainly. -/
def Story.respelled {α : Type} (s : Story α) : Story α :=
  { s with raw := s.raw.respell (.record .story) }

def Capability.respelled (c : Capability) : Capability :=
  { c with raw := c.raw.respell (.record .capability) }

def Entity.respelled (e : Entity) : Entity :=
  { e with raw := e.raw.respell (.record .entity) }

def Rule.respelled (r : Rule) : Rule :=
  { r with raw := r.raw.respell (.record .rule) }

/-- The requirements with what they keep of their records spelled plainly. -/
def Context.respelled {α : Type} (c : Context α) : Context α where
  stories := c.stories.map Story.respelled
  capabilities := c.capabilities.map Capability.respelled
  entities := c.entities.map Entity.respelled
  rules := c.rules.map Rule.respelled
  personas := c.personas

theorem Story.ofJson_respell (hv : v.unmixed (.record .story) = true) :
    Story.ofJson (v.respell (.record .story)) = Story.respelled <$> Story.ofJson v := by
  simp (disch := decide) only [Story.ofJson, Json.getD_kept, Json.getOr_kept, Json.pickD_kept hv,
    Json.pickItems_kept hv, map_bind, map_pure, Story.respelled]

theorem Capability.ofJson_respell (hv : v.unmixed (.record .capability) = true) :
    Capability.ofJson (v.respell (.record .capability)) =
      Capability.respelled <$> Capability.ofJson v := by
  simp (disch := decide) only [Capability.ofJson, Json.getD_kept, Json.itemsOf_kept,
    Json.pickD_kept hv, Json.pickItems_kept hv, map_bind, map_pure, Capability.respelled]

theorem Entity.ofJson_respell (hv : v.unmixed (.record .entity) = true) :
    Entity.ofJson (v.respell (.record .entity)) = Entity.respelled <$> Entity.ofJson v := by
  simp (disch := decide) only [Entity.ofJson, Json.getD_kept, Json.itemsOf_kept,
    Json.pickD_kept hv, map_bind, map_pure, Entity.respelled]

theorem Rule.ofJson_respell (hv : v.unmixed (.record .rule) = true) :
    Rule.ofJson (v.respell (.record .rule)) = Rule.respelled <$> Rule.ofJson v := by
  simp (disch := decide) only [Rule.ofJson, Json.getD_kept, Json.getOr_kept, Json.itemsOf_kept,
    Json.pickItems_kept hv, map_bind, map_pure, Rule.respelled]

theorem Context.ofJson_respell (hv : v.unmixed (.record .context) = true) :
    Context.ofJson (v.respell (.record .context)) = Context.respelled <$> Context.ofJson v := by
  have hd : (Json.record []).respell (.record .context) = .record [] := rfl
  have hw : (v.orElse (.record [])).unmixed (.record .context) = true := Json.unmixed_orElse hv rfl
  unfold Context.ofJson
  rw [Json.orElse_respell hd]
  generalize v.orElse (.record []) = w at hw ⊢
  have hstories : Json.Alike .story (w.pickItems ["userStories", "user_stories"]) _ :=
    Json.alike_pickItems hw (by decide)
  have hcapabilities : Json.Alike .capability (w.itemsOf "capabilities") _ :=
    Json.alike_itemsOf hw (by decide)
  have hentities : Json.Alike .entity (w.pickItems ["dataModel", "data_model"]) _ :=
    Json.alike_pickItems hw (by decide)
  have hrules : Json.Alike .rule (w.pickItems ["businessRules", "business_rules"]) _ :=
    Json.alike_pickItems hw (by decide)
  simp (disch := decide) only [hstories.bind_mapM fun w => Story.ofJson_respell,
    hcapabilities.bind_mapM fun w => Capability.ofJson_respell,
    hentities.bind_mapM fun w => Entity.ofJson_respell,
    hrules.bind_mapM fun w => Rule.ofJson_respell, Json.itemsOf_kept, map_bind, map_pure,
    Context.respelled]

theorem Context.ofFacts_respell (hv : v.unmixed (.record .facts) = true) :
    Context.ofFacts (v.respell (.record .facts)) = Context.respelled <$> Context.ofFacts v := by
  have hread : Role.facts.reads ["businessContext", "business_context"] =
      some (.record .context) := by decide
  unfold Context.ofFacts
  rw [Json.pickD_respell hv hread rfl, bind_map_left, map_bind]
  cases hw : v.pickD ["businessContext", "business_context"] (.record []) with
  | error e => rfl
  | ok w => exact Context.ofJson_respell (Json.unmixed_pickD hv hread rfl w hw)

end

/-- The facts may be spelled either way. Neither the structural facts nor the requirements change,
apart from the records that the requirements keep, and neither does the fault if there is one. -/
theorem facts_respell (v : Json) :
    (v.unmixed (.record .facts) = true →
      Project.ofJson (v.respell (.record .facts)) = Project.ofJson v ∧
      Context.ofFacts (v.respell (.record .facts)) = Context.respelled <$> Context.ofFacts v) ∧
    (v.unmixed (.record .context) = true →
      Context.ofJson (v.respell (.record .context)) = Context.respelled <$> Context.ofJson v) :=
  ⟨fun hv => ⟨Project.ofJson_respell hv, Context.ofFacts_respell hv⟩, Context.ofJson_respell⟩

private def hatchContext : Json :=
  .record [("userStories", .list [.record [("id", .text "close"), ("storyType", .text "safety")]]),
    ("capabilities", .list [.record [("id", .text "seal"), ("businessValue", .null)]])]

private def hatch : Json :=
  .record [("components", .list [.text "Deck", .record [("name", .text "Hatch"),
      ("filePath", .text "hatch.py"),
      ("props", .list [.text "size", .record [("name", .text "lock"), ("isRequired", .bool true)]]),
      ("children", .list [.record [("name", .text "Lid"), ("filePath", .text "lid.py")]])]]),
    ("dataFlows", .list [.record [("from", .text "Hatch"), ("to", .text "Lid")]]),
    ("businessContext", hatchContext)]

private def plainHatch : Json :=
  .record [("components", .list [.text "Deck", .record [("name", .text "Hatch"),
      ("file_path", .text "hatch.py"),
      ("props", .list [.text "size", .record [("name", .text "lock"), ("is_required", .bool true)]]),
      ("children", .list [.record [("name", .text "Lid"), ("file_path", .text "lid.py")]])]]),
    ("data_flows", .list [.record [("source", .text "Hatch"), ("target", .text "Lid")]]),
    ("business_context", .record [
      ("user_stories", .list [.record [("id", .text "close"), ("story_type", .text "safety")]]),
      ("capabilities", .list [.record [("id", .text "seal"), ("business_value", .null)]])])]

theorem facts_respell_hatch :
    hatch.unmixed (.record .facts) = true ∧ hatch.respell (.record .facts) = plainHatch ∧
      ((Project.ofJson hatch).toOption.map fun p => p.components.length) = some 2 ∧
      Project.ofJson plainHatch = Project.ofJson hatch ∧
      Context.ofFacts plainHatch = Context.respelled <$> Context.ofFacts hatch ∧
      hatchContext.unmixed (.record .context) = true ∧
      Context.ofJson (hatchContext.respell (.record .context)) =
        Context.respelled <$> Context.ofJson hatchContext := by
  have hunmixed : hatch.unmixed (.record .facts) = true := by decide +kernel
  have hcontext : hatchContext.unmixed (.record .context) = true := by decide +kernel
  have hplain : hatch.respell (.record .facts) = plainHatch := by rfl
  obtain ⟨hproject, hrequired⟩ := (facts_respell hatch).1 hunmixed
  rw [hplain] at hproject hrequired
  exact ⟨hunmixed, hplain, by decide +kernel, hproject, hrequired, hcontext,
    (facts_respell hatchContext).2 hcontext⟩

end BusinessAtlas
