import SceneConvert.Proofs.Files.Canonical

/-!
# SceneConvert.Proofs.Files.NormalForm

The normal form of a path, as a path of its own and as a way through a tree of files.

* `Path.IsCanonical`: written without anything that could be left out.
* `Path.normalize_cases`: a normal form is a way down from the root, the directory itself, or a way up and
  down.
* `Path.normalize_isCanonical`: a path and its normal form.
-/

namespace SceneConvert

namespace Path

open FileTree (pathOf)

/-- Nothing in the path can be left out: it is its components with a slash between, a `.` is not among them,
and a `..` is only where a relative path starts. -/
structure IsCanonical (p : Path) : Prop where
  written : p = ofComponents p.components
  not_current : .current ∉ p.components
  parents_first : ∀ before after, p.components = before ++ .parent :: after →
    p.isAbsolute = false ∧ ∀ c ∈ before, c = .parent

/-! ## Components of normal forms -/

/-- A number of `..`, and names behind them. -/
def ascent (k : Nat) (ns : List String) : List Component := List.replicate k .parent ++ ns.map .name

section

variable {k : Nat} {ns : List String}

theorem isStep_ascent (hns : ∀ n ∈ ns, IsName n) : ∀ c ∈ ascent k ns, c.IsStep := by
  intro c hc
  rcases List.mem_append.1 hc with hc | hc
  · rw [List.eq_of_mem_replicate hc]
    trivial
  · exact isStep_map_name hns c hc

/-- Before a `..` among these components there is nothing but other ones. -/
theorem parents_first_ascent {before after : List Component}
    (h : ascent k ns = before ++ .parent :: after) : ∀ c ∈ before, c = .parent := by
  induction k generalizing before with
  | zero =>
    have hparent : .parent ∈ ns.map Component.name := by
      rw [ascent, List.replicate_zero, List.nil_append] at h
      simp [h]
    obtain ⟨n, -, hn⟩ := List.mem_map.1 hparent
    cases hn
  | succ k ih =>
    cases before with
    | nil => exact List.forall_mem_nil _
    | cons b before =>
      rw [ascent, List.replicate_succ, List.cons_append, List.cons_append] at h
      obtain ⟨rfl, hrest⟩ := List.cons.inj h
      exact List.forall_mem_cons.2 ⟨rfl, ih hrest⟩

theorem reverse_ascent (k : Nat) (ns : List String) :
    (ascent k ns).reverse = (ns.map Component.name).reverse ++ List.replicate k .parent := by
  rw [ascent, List.reverse_append, List.reverse_replicate]

theorem normalStep_parents (k : Nat) :
    normalStep (List.replicate k .parent) .parent = List.replicate (k + 1) .parent := by
  cases k <;> rfl

theorem normalStep_ascent {c : Component} (hc : c.IsStep) (hns : ∀ n ∈ ns, IsName n) :
    ∃ k' ns', (∀ n ∈ ns', IsName n) ∧ normalStep (ascent k ns).reverse c = (ascent k' ns').reverse := by
  cases c with
  | root | current => exact absurd hc id
  | name n => exact ⟨k, ns ++ [n], isName_append hns hc, by simp [ascent, normalStep]⟩
  | parent =>
    obtain rfl | ⟨ms, m, rfl⟩ := List.eq_nil_or_concat ns
    · refine ⟨k + 1, [], hns, ?_⟩
      rw [reverse_ascent, reverse_ascent]
      exact normalStep_parents k
    · rw [List.concat_eq_append] at hns ⊢
      exact ⟨k, ms, (List.forall_mem_append.1 hns).1, by simp [ascent, normalStep]⟩

theorem foldl_normalStep_ascent {cs : List Component} (hcs : ∀ c ∈ cs, c.IsStep)
    (hns : ∀ n ∈ ns, IsName n) :
    ∃ k' ns', (∀ n ∈ ns', IsName n) ∧ cs.foldl normalStep (ascent k ns).reverse = (ascent k' ns').reverse := by
  induction cs generalizing k ns with
  | nil => exact ⟨k, ns, hns, rfl⟩
  | cons c cs ih =>
    obtain ⟨hc, hrest⟩ := List.forall_mem_cons.1 hcs
    obtain ⟨k', ns', hns', hstep⟩ := normalStep_ascent (k := k) hc hns
    rw [List.foldl_cons, hstep]
    exact ih hrest hns'

theorem foldl_normalStep_names (ns : List String) (out : List Component) :
    (ns.map Component.name).foldl normalStep out = (ns.map Component.name).reverse ++ out := by
  induction ns generalizing out with
  | nil => rfl
  | cons n ns ih => simp [ih, normalStep]

theorem normalComponents_root (ns : List String) :
    normalComponents (.root :: ns.map .name) = .root :: ns.map .name := by
  rw [normalComponents, List.foldl_cons, foldl_normalStep_names]
  simp [normalStep]

theorem normalComponents_ascent (k : Nat) (ns : List String) :
    normalComponents (ascent k ns) = ascent k ns := by
  have hparents : (List.replicate k Component.parent).foldl normalStep [] = List.replicate k .parent := by
    induction k with
    | zero => rfl
    | succ k ih =>
      rw [List.replicate_succ', List.foldl_append, ih, ← List.replicate_succ']
      exact normalStep_parents k
  rw [normalComponents, ascent, List.foldl_append, hparents, foldl_normalStep_names]
  simp

end

theorem exists_normalComponents_eq_ascent {p : Path} (h : p.isAbsolute = false) :
    ∃ k ns, (∀ n ∈ ns, IsName n) ∧ normalComponents p.components = ascent k ns := by
  obtain ⟨k, ns, hns, hfold⟩ :=
    @foldl_normalStep_ascent 0 [] p.steps p.isStep_of_mem_steps (List.forall_mem_nil _)
  refine ⟨k, ns, hns, ?_⟩
  rw [normalComponents_of_relative h]
  exact (congrArg List.reverse hfold).trans (List.reverse_reverse _)

/-! ## Normal forms as paths -/

theorem normalize_eq_ofComponents {p : Path} (h : normalComponents p.components ≠ []) :
    p.normalize = ofComponents (normalComponents p.components) := by
  rw [normalize]
  split
  · rename_i hempty
    exact absurd hempty h
  · rfl

theorem filterMap_segmentComponent?_segment {cs : List Component} (hcs : ∀ c ∈ cs, c.IsStep) :
    (cs.map Component.segment).filterMap segmentComponent? = cs := by
  induction cs with
  | nil => rfl
  | cons c cs ih =>
    obtain ⟨hc, hrest⟩ := List.forall_mem_cons.1 hcs
    have hsegment : segmentComponent? c.segment = some c := by
      cases c with
      | root | current => exact absurd hc id
      | parent => rfl
      | name n => exact (show IsName n from hc).segmentComponent?
    rw [List.map_cons, List.filterMap_cons_some hsegment, ih hrest]

theorem components_ofComponents {cs : List Component} (hcs : ∀ c ∈ cs, c.IsStep) (hne : cs ≠ []) :
    (ofComponents cs).components = cs := by
  have hsplit : splitSlashes (ofComponents cs).text.toList = cs.map Component.segment := by
    rw [text_ofComponents hcs, splitSlashes_segments hcs hne]
  have hcurrent : (ofComponents cs).startsWithCurrent = false := by
    obtain ⟨c, ds, rfl⟩ := List.exists_cons_of_ne_nil hne
    have hc : c.segment ≠ ['.'] := fun h => by
      have hstep := filterMap_segmentComponent?_segment (List.forall_mem_singleton.2 (hcs c List.mem_cons_self))
      rw [List.map_singleton, h] at hstep
      cases hstep
    rw [startsWithCurrent, hsplit]
    simpa using fun _ => hc
  rw [components, isAbsolute_ofComponents hcs hne, hcurrent, hsplit,
    filterMap_segmentComponent?_segment hcs]
  rfl

theorem normalize_of_components {cs : List Component} (hcomponents : (ofComponents cs).components = cs)
    (hnormal : normalComponents cs = cs) (hne : cs ≠ []) :
    (ofComponents cs).normalize = ofComponents cs := by
  rw [normalize_eq_ofComponents, hcomponents, hnormal]
  rwa [hcomponents, hnormal]

section

variable {k : Nat} {ns : List String} (hns : ∀ n ∈ ns, IsName n)

include hns

theorem isCanonical_pathOf : (pathOf ns).IsCanonical where
  written := by rw [components_pathOf hns]; rfl
  not_current := by simp [components_pathOf hns]
  parents_first before after h := by
    have hparent : .parent ∈ Component.root :: ns.map .name := by
      rw [← components_pathOf hns, h]
      simp
    simp at hparent

theorem isCanonical_ascent (hne : ascent k ns ≠ []) : (ofComponents (ascent k ns)).IsCanonical where
  written := by rw [components_ofComponents (isStep_ascent hns) hne]
  not_current hcurrent := by
    rw [components_ofComponents (isStep_ascent hns) hne] at hcurrent
    exact isStep_ascent hns _ hcurrent
  parents_first before after h := by
    rw [components_ofComponents (isStep_ascent hns) hne] at h
    exact ⟨isAbsolute_ofComponents (isStep_ascent hns) hne, parents_first_ascent h⟩

end

/-- The normal form of a path: a way down from the root, the directory itself, or a way up and down. -/
theorem normalize_cases (p : Path) :
    (p.isAbsolute = true ∧ ∃ ns, (∀ n ∈ ns, IsName n) ∧ p.normalize = pathOf ns) ∨
    (p.isAbsolute = false ∧ p.normalize = ⟨"."⟩) ∨
    p.isAbsolute = false ∧ ∃ k ns, (∀ n ∈ ns, IsName n) ∧ ascent k ns ≠ [] ∧
      p.normalize = ofComponents (ascent k ns) := by
  cases h : p.isAbsolute with
  | true => exact .inl ⟨rfl, normalize_of_isAbsolute h⟩
  | false =>
    obtain ⟨k, ns, hns, hnormal⟩ := exists_normalComponents_eq_ascent h
    by_cases hne : ascent k ns = []
    · exact .inr (.inl ⟨rfl, by rw [normalize, hnormal, hne]⟩)
    · refine .inr (.inr ⟨rfl, k, ns, hns, hne, ?_⟩)
      rw [normalize_eq_ofComponents (hnormal ▸ hne), hnormal]

theorem exists_place_of_find {t : FileTree} {p : Path} {node : Node} (h : t.find p = .ok node) :
    ∃ place, t.locate p = .ok place := by
  cases hl : t.locate p with
  | ok place => exact ⟨place, rfl⟩
  | error e =>
    rw [FileTree.find, hl] at h
    cases h

/-- The normal form of a path is its own normal form. It is canonical or `.`, absolute just where the path
is, and in every tree without links it leads where the path leads, from every working directory. -/
theorem normalize_isCanonical (p : Path) :
    p.normalize.normalize = p.normalize ∧ (p.normalize = ⟨"."⟩ ∨ p.normalize.IsCanonical) ∧
      p.normalize.isAbsolute = p.isAbsolute ∧
      ∀ (t : FileTree) (node : Node), t.find p = .ok node →
        ∃ place, t.locate p = .ok place ∧ t.locate p.normalize = .ok place ∧
          t.find p.normalize = .ok node := by
  have hsame : ∀ (t : FileTree) (node : Node), t.find p = .ok node →
      ∃ place, t.locate p = .ok place ∧ t.locate p.normalize = .ok place ∧
        t.find p.normalize = .ok node := by
    intro t node h
    obtain ⟨place, hplace⟩ := exists_place_of_find h
    have hnormal := FileTree.locate_normalize hplace
    refine ⟨place, hplace, hnormal, ?_⟩
    rw [FileTree.find, hplace] at h
    rwa [FileTree.find, hnormal]
  obtain ⟨habsolute, ns, hns, hp⟩ | ⟨hrelative, hp⟩ | ⟨hrelative, k, ns, hns, hne, hp⟩ := normalize_cases p
  · refine ⟨?_, .inr (hp ▸ isCanonical_pathOf hns), ?_, hsame⟩
    · rw [hp]
      exact normalize_of_components (components_pathOf hns) (normalComponents_root ns) (List.cons_ne_nil _ _)
    · rw [hp, isAbsolute_pathOf, habsolute]
  · refine ⟨?_, .inl hp, ?_, hsame⟩
    · rw [hp]
      decide
    · rw [hp, hrelative]
      rfl
  · have hstep := isStep_ascent (k := k) hns
    refine ⟨?_, .inr (hp ▸ isCanonical_ascent hns hne), ?_, hsame⟩
    · rw [hp]
      exact normalize_of_components (components_ofComponents hstep hne) (normalComponents_ascent k ns) hne
    · rw [hp, isAbsolute_ofComponents hstep hne, hrelative]

/-- Up, into another directory and back again, to a file that is there. -/
theorem normalize_isCanonical_detour :
    FileTree.neighbours.find ⟨".././/shared/../scenes/main.pbrt"⟩ = .ok (.file "".toUTF8) ∧
      FileTree.neighbours.locate ⟨"../scenes/main.pbrt"⟩ = .ok ["scenes", "main.pbrt"] ∧
      FileTree.neighbours.find ⟨"../scenes/main.pbrt"⟩ = .ok (.file "".toUTF8) := by
  have hfind : FileTree.neighbours.find ⟨".././/shared/../scenes/main.pbrt"⟩ = .ok (.file "".toUTF8) := by
    rfl
  obtain ⟨-, -, -, hsame⟩ := normalize_isCanonical ⟨".././/shared/../scenes/main.pbrt"⟩
  obtain ⟨place, hplace, hnormal, hnode⟩ := hsame FileTree.neighbours (.file "".toUTF8) hfind
  have hroundabout : FileTree.neighbours.locate ⟨".././/shared/../scenes/main.pbrt"⟩ =
      .ok ["scenes", "main.pbrt"] := by
    rfl
  cases hroundabout.symm.trans hplace
  have hshort : Path.normalize ⟨".././/shared/../scenes/main.pbrt"⟩ = ⟨"../scenes/main.pbrt"⟩ := by
    decide
  rw [hshort] at hnormal hnode
  exact ⟨hfind, hnormal, hnode⟩

end Path

end SceneConvert
