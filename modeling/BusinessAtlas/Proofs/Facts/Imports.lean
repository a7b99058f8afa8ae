import BusinessAtlas.Feature.Inference
import Mathlib.Logic.Basic

/-!
# What a component imports

A file that is added to a project is seen by the components at its path, in the place of a file that
was there before. So components go on seeing what they imported, unless it was that file's alone, and
as long as they see it their interactions stay.
-/

namespace BusinessAtlas

open Json (Identifies)

variable {p : Project} {f : SourceFile} {c : Component} {before after : List Json}

namespace Project

/-- The project with one more file, after the others. -/
def withFile (p : Project) (f : SourceFile) : Project := { p with files := p.files ++ [f] }

theorem ofParts_concat {components : List Component} {files : List SourceFile}
    {transfers : List Transfer} (h : ofParts components files transfers = .ok p)
    (hf : f.path.Identifies) :
    ofParts components (files ++ [f]) transfers = .ok (p.withFile f) := by
  obtain ⟨table, htable, h⟩ := bind_eq_ok.mp h
  obtain ⟨paths, hpaths, h⟩ := bind_eq_ok.mp h
  cases h
  obtain ⟨path, hpath⟩ := Json.identifies_iff.mp hf
  rw [ofParts, htable, ok_bind, mapM_concat_eq_ok hpaths hpath]
  rfl

theorem file?_withFile {path : Json} (hf : f.path.Identifies) (hpath : path.Identifies) :
    (p.withFile f).file? path = if f.path.key? = path.key? then .ok (some f) else p.file? path := by
  obtain ⟨i, hi⟩ := Json.identifies_iff.mp hf
  obtain ⟨k, hk⟩ := Json.identifies_iff.mp hpath
  have hcount : (f.path.key? == some k.key) = decide (i.key = k.key) := by
    rw [Json.key?_of_asIdent hi]
    simp [beq_eq_decide]
  rw [Json.key?_of_asIdent hi, Json.key?_of_asIdent hk]
  simp only [file?, withFile, hk, ok_bind, pure_eq_ok, List.filter_append]
  by_cases hkey : i.key = k.key <;> simp [hcount, hkey]

theorem visibleImports_eq_ok : p.visibleImports c = .ok before ↔
    ∃ file, p.file? c.path = .ok file ∧ before = c.imports ++ (file.map (·.imports)).getD [] := by
  rw [visibleImports, bind_eq_ok]
  apply exists_congr
  intro file
  cases file <;> simp [eq_comm]

theorem identifies_of_file? {path : Json} {file : Option SourceFile} (h : p.file? path = .ok file) :
    path.Identifies := by
  obtain ⟨i, hi, -⟩ := bind_eq_ok.mp h
  exact Json.identifies_iff.mpr ⟨i, hi⟩

/-- The file takes the place of the one that the component sees, and an import of that one, which
neither the component nor the new file has, is not seen any more. -/
def Displaces (p : Project) (f : SourceFile) (c : Component) : Prop :=
  f.path.key? = c.path.key? ∧ ∃ g, p.file? c.path = .ok (some g) ∧
    ∃ s ∈ g.imports, s ∉ c.imports ∧ s ∉ f.imports

theorem not_displaces_of_new (h : ∀ g ∈ p.files, g.path.key? ≠ f.path.key?) : ¬p.Displaces f c := by
  rintro ⟨hkey, g, hg, -⟩
  obtain ⟨i, hi, hg⟩ := bind_eq_ok.mp hg
  have hfound := List.mem_of_getLast? (Except.ok.inj hg)
  obtain ⟨hmem, hpath⟩ := List.mem_filter.mp hfound
  apply h g hmem
  rw [hkey, Json.key?_of_asIdent hi]
  simpa using hpath

/-- What a component sees once a file was added: what it saw, or imports of the file. It still sees
all that it saw exactly if the file displaces nothing. -/
theorem exists_visibleImports (hf : f.path.Identifies) (h : p.visibleImports c = .ok before) :
    ∃ after, (p.withFile f).visibleImports c = .ok after ∧
      (∀ s ∈ after, s ∈ before ∨ s ∈ f.imports) ∧ (before ⊆ after ↔ ¬p.Displaces f c) := by
  obtain ⟨file, hfile, rfl⟩ := visibleImports_eq_ok.mp h
  have hnext := file?_withFile (p := p) hf (identifies_of_file? hfile)
  by_cases hkey : f.path.key? = c.path.key?
  · rw [if_pos hkey] at hnext
    refine ⟨c.imports ++ f.imports, visibleImports_eq_ok.mpr ⟨_, hnext, rfl⟩, ?_, ?_⟩
    · intro s hs
      rcases List.mem_append.mp hs with hs | hs
      · exact .inl (List.mem_append_left _ hs)
      · exact .inr hs
    · cases file with
      | none => simp [Displaces, hfile]
      | some g =>
        simp only [Displaces, hkey, hfile, Option.map_some, Option.getD_some, List.append_subset,
          List.subset_append_left, true_and, Except.ok.injEq, Option.some.injEq, exists_eq_left',
          not_exists, not_and, not_not]
        apply forall_congr'
        intro s
        apply imp_congr_right
        intro hs
        rw [List.mem_append]
        exact or_iff_not_imp_left
  · rw [if_neg hkey, hfile] at hnext
    refine ⟨_, visibleImports_eq_ok.mpr ⟨_, hnext, rfl⟩, fun s hs => .inl hs, ?_⟩
    simp [Displaces, hkey]

end Project

namespace Component

theorem patternsFrom_sublist {names imports imports' : List String} (h : imports ⊆ imports') :
    (c.patternsFrom names imports).Sublist (c.patternsFrom names imports') := by
  have hany {q : String → Bool} (hq : imports.any q = true) : imports'.any q = true := by
    obtain ⟨s, hs, hsq⟩ := List.any_eq_true.mp hq
    exact List.any_eq_true.mpr ⟨s, h hs, hsq⟩
  have hwhen (b b' : Bool) (x : Pattern) (hb : b = true → b' = true) :
      (if b then [x] else []).Sublist (if b' then [x] else []) := by
    cases b with
    | false => exact List.nil_sublist _
    | true => simp [hb rfl]
  unfold patternsFrom
  apply List.Sublist.append
  · apply List.Sublist.append_right
    apply List.Sublist.append_left
    exact hwhen _ _ _ hany
  · apply hwhen
    simp only [Bool.and_eq_true]
    exact And.imp_right hany

theorem patterns_eq_ok {ps : List Pattern} : c.patterns p = .ok ps ↔
    ∃ imports, p.visibleImports c = .ok imports ∧
      ∃ seen, imports.mapM (fun s => return Text.lower (← s.asText)) = .ok seen ∧
        ∃ names, c.inputNames.mapM Json.asText = .ok names ∧ c.patternsFrom names seen = ps := by
  simp only [patterns, bind_eq_ok, pure_eq_ok, Except.ok.injEq]

theorem exists_patterns_of_imports {p' : Project} {ps : List Pattern} (hps : c.patterns p = .ok ps)
    (hbefore : p.visibleImports c = .ok before) (hafter : p'.visibleImports c = .ok after)
    (htexts : ∀ s ∈ after, s ∈ before ∨ s.isText = true) :
    ∃ qs, c.patterns p' = .ok qs ∧ (before ⊆ after → ps.Sublist qs) := by
  obtain ⟨imports, himports, seen, hseen, names, hnames, rfl⟩ := patterns_eq_ok.mp hps
  obtain rfl : imports = before := by simpa [himports] using hbefore
  have hread : ∀ s ∈ after, ∃ t, (do return Text.lower (← s.asText) : Except Fault String) = .ok t := by
    intro s hs
    rcases htexts s hs with hs | hs
    · exact exists_of_mapM hseen hs
    · obtain ⟨t, rfl⟩ := Json.isText_iff.mp hs
      exact ⟨Text.lower t, rfl⟩
  obtain ⟨seen', hseen'⟩ := exists_mapM hread
  refine ⟨_, patterns_eq_ok.mpr ⟨after, hafter, seen', hseen', names, hnames, rfl⟩, ?_⟩
  intro hsub
  apply patternsFrom_sublist
  intro t ht
  obtain ⟨s, hs, hst⟩ := (mem_of_mapM hseen).mp ht
  exact (mem_of_mapM hseen').mpr ⟨s, hsub hs, hst⟩

end Component

namespace Project

/-- A file may be added to every project. Each component that saw its imports sees them again, unless
the file displaces some of them; a file at a path where there was none displaces nothing. All
interactions of a component that sees its imports again stay. -/
theorem subset_imports_iff {components : List Component} {files : List SourceFile}
    {transfers : List Transfer} (hbuilt : ofParts components files transfers = .ok p)
    (hf : f.path.Identifies) : ∃ p', ofParts components (files ++ [f]) transfers = .ok p' ∧
      p'.components = p.components ∧
      ∀ c before, p.visibleImports c = .ok before → ∃ after, p'.visibleImports c = .ok after ∧
        (before ⊆ after ↔ ¬p.Displaces f c) ∧
        ((∀ g ∈ p.files, g.path.key? ≠ f.path.key?) → before ⊆ after) ∧
        ∀ ps, c.patterns p = .ok ps → (∀ s ∈ f.imports, s.isText = true) →
          ∃ qs, c.patterns p' = .ok qs ∧ (before ⊆ after → ps.Sublist qs) := by
  refine ⟨p.withFile f, ofParts_concat hbuilt hf, rfl, ?_⟩
  intro c before hbefore
  obtain ⟨after, hafter, hmem, hiff⟩ := exists_visibleImports hf hbefore
  refine ⟨after, hafter, hiff, fun hnew => hiff.mpr (not_displaces_of_new hnew), ?_⟩
  intro ps hps htexts
  apply Component.exists_patterns_of_imports hps hbefore hafter
  intro s hs
  exact (hmem s hs).imp_right (htexts s)

private def till : Component :=
  ⟨.text "TillPage", .text "till.tsx", .null, [], [⟨.text "useEffect", .null⟩], [], [.text "./api"]⟩

private def routed : SourceFile := ⟨.text "till.tsx", [.text "react-router-dom"]⟩

private def stock : SourceFile := ⟨.text "stock.tsx", [.text "./store"]⟩

/-- The page keeps what it sees, for the file that is added is another one. -/
theorem subset_imports_iff_till : ∃ p p' before after ps qs,
    ofParts [till] [routed] [] = .ok p ∧
    ofParts [till] ([routed] ++ [stock]) [] = .ok p' ∧
    p.visibleImports till = .ok before ∧ p'.visibleImports till = .ok after ∧ before ⊆ after ∧
    till.patterns p = .ok ps ∧ till.patterns p' = .ok qs ∧ ps.Sublist qs := by
  have hf : stock.path.Identifies := rfl
  obtain ⟨p', hbuilt, -, hall⟩ :=
    subset_imports_iff (show ofParts [till] [routed] [] = .ok ⟨[till], [routed], []⟩ from rfl) hf
  obtain ⟨ps, hps⟩ := Option.isSome_iff_exists.mp (show
    (till.patterns ⟨[till], [routed], []⟩).toOption.isSome = true by decide)
  have hps := toOption_eq_some.mp hps
  obtain ⟨after, hafter, -, hnew, hpatterns⟩ := hall till _ rfl
  obtain ⟨qs, hqs, hkept⟩ := hpatterns ps hps (by simp [stock, Json.isText])
  have hsub := hnew (by simp [routed, stock])
  exact ⟨_, p', _, after, ps, qs, rfl, hbuilt, rfl, hafter, hsub, hps, hqs, hkept hsub⟩

/-- A second file at the path of the page takes the place of the first one, and with it goes the
navigation. -/
theorem not_subset_imports_till : ∃ p p' before after ps qs,
    ofParts [till] [routed] [] = .ok p ∧
    ofParts [till] ([routed] ++ [⟨.text "till.tsx", []⟩]) [] = .ok p' ∧
    p.visibleImports till = .ok before ∧ p'.visibleImports till = .ok after ∧ ¬before ⊆ after ∧
    till.patterns p = .ok ps ∧ till.patterns p' = .ok qs ∧
    ps.map (·.kind) = [.navigation, .apiCall] ∧ qs.map (·.kind) = [.apiCall] := by
  obtain ⟨ps, hps, hkinds⟩ := exists_of_any (show
    (till.patterns ⟨[till], [routed], []⟩).toOption.any (fun ps =>
      ps.map (·.kind) == [.navigation, .apiCall]) = true by decide)
  obtain ⟨qs, hqs, hkinds'⟩ := exists_of_any (show
    (till.patterns ⟨[till], [routed, ⟨.text "till.tsx", []⟩], []⟩).toOption.any (fun qs =>
      qs.map (·.kind) == [.apiCall]) = true by decide)
  refine ⟨_, _, _, _, ps, qs, rfl, rfl, rfl, rfl, ?_, hps, hqs,
    eq_of_beq hkinds, eq_of_beq hkinds'⟩
  simp [till, routed]

end Project

end BusinessAtlas
