import SceneConvert.Proofs.Files.Resolve

/-!
# SceneConvert.Proofs.Files.Canonical

Which file the name of an include leads to, and under which path.

* `Path.normalize_of_isAbsolute`: the normal form of an absolute path is a way down from the root.
* `FileTree.normalize_eq_pathOf`: in a tree without links it is the way to what the path leads to.
* `FileTree.candidates`, `include?_eq_find?`: the paths that a name can stand for, of which the first that
  is a file counts.
* `FileTree.resolves_canonically`: what an include finds, and that its absolute path tells files apart.
-/

namespace SceneConvert

namespace Path

open FileTree (pathOf)

/-! ## Ways down from the root -/

theorem isStep_map_name {ns : List String} (hns : ∀ n ∈ ns, IsName n) :
    ∀ c ∈ ns.map Component.name, c.IsStep := by
  intro c hc
  obtain ⟨n, hn, rfl⟩ := List.mem_map.1 hc
  exact hns n hn

theorem segments_map_name (ns : List String) :
    (ns.map Component.name).map Component.segment = ns.map String.toList := by
  rw [List.map_map]
  rfl

theorem text_pathOf (ns : List String) :
    (pathOf ns).text.toList = '/' :: joinSlashes (ns.map String.toList) := by
  rw [pathOf, text_ofComponents_root, segments_map_name]

theorem isAbsolute_pathOf (ns : List String) : (pathOf ns).isAbsolute = true := by
  simp [isAbsolute, text_pathOf]

theorem splitSlashes_pathOf {ns : List String} (hns : ∀ n ∈ ns, IsName n) :
    splitSlashes (pathOf ns).text.toList = [] :: if ns = [] then [[]] else ns.map String.toList := by
  rw [text_pathOf, splitSlashes, if_pos rfl]
  split
  · rename_i hempty
    rw [hempty]
    rfl
  · rename_i hne
    have hsplit := splitSlashes_segments (isStep_map_name hns) (by simpa using hne)
    rw [segments_map_name] at hsplit
    rw [hsplit]

theorem components_pathOf {ns : List String} (hns : ∀ n ∈ ns, IsName n) :
    (pathOf ns).components = .root :: ns.map .name := by
  have hidle : segmentComponent? [] = none := rfl
  rw [components, isAbsolute_pathOf, if_pos rfl, splitSlashes_pathOf hns,
    List.filterMap_cons_none hidle, List.singleton_append]
  by_cases hempty : ns = []
  · rw [hempty]
    rfl
  · rw [if_neg hempty, filterMap_segmentComponent? hns]

theorem parent?_pathOf {ns : List String} {n : String} (hns : ∀ m ∈ ns, IsName m) (hn : IsName n) :
    (pathOf (ns ++ [n])).parent? = some (pathOf ns) := by
  have hall := isName_append hns hn
  have hidle : ∀ s ∈ (ns.map String.toList).reverse, isIdle s = false := by
    intro s hs
    obtain ⟨m, hm, rfl⟩ := List.mem_map.1 (List.mem_reverse.1 hs)
    exact (hns m hm).isIdle
  have hsplit : splitSlashes ((pathOf (ns ++ [n])).text.toList.drop 1) =
      (ns ++ [n]).map String.toList := by
    have hsplit := splitSlashes_segments (isStep_map_name hall) (by simp)
    rw [segments_map_name] at hsplit
    rw [text_pathOf, List.drop_one, List.tail_cons, hsplit]
  have hanchor : (pathOf (ns ++ [n])).anchor = ['/'] := by simp [anchor, isAbsolute_pathOf]
  unfold parent?
  simp only [hanchor, List.length_singleton, hsplit, List.map_append, List.map_cons, List.map_nil,
    List.reverse_append, List.reverse_singleton, List.singleton_append]
  rw [List.dropWhile_cons_of_neg (by simp [hn.isIdle])]
  dsimp only
  rw [dropWhile_isIdle hidle, List.reverse_reverse]
  refine congrArg some (ext_toList ?_)
  rw [String.toList_ofList, text_pathOf]

/-! ## Normal forms of absolute paths -/

theorem foldl_normalStep_root {cs : List Component} (hcs : ∀ c ∈ cs, c.IsStep) {ns : List String}
    (hns : ∀ n ∈ ns, IsName n) :
    ∃ ns' : List String, (∀ n ∈ ns', IsName n) ∧
      cs.foldl normalStep (ns.map .name ++ [.root]) = ns'.map .name ++ [.root] := by
  induction cs generalizing ns with
  | nil => exact ⟨ns, hns, rfl⟩
  | cons c cs ih =>
    obtain ⟨hc, hrest⟩ := List.forall_mem_cons.1 hcs
    rw [List.foldl_cons]
    cases c with
    | root | current => exact absurd hc id
    | name n => exact @ih hrest (n :: ns) (List.forall_mem_cons.2 ⟨hc, hns⟩)
    | parent =>
      cases ns with
      | nil => exact ih hrest hns
      | cons n ns => exact ih hrest (List.forall_mem_cons.1 hns).2

theorem normalize_of_isAbsolute {p : Path} (h : p.isAbsolute = true) :
    ∃ ns, (∀ n ∈ ns, IsName n) ∧ p.normalize = pathOf ns := by
  obtain ⟨ns, hns, hfold⟩ := @foldl_normalStep_root p.steps p.isStep_of_mem_steps [] (by simp)
  rw [List.map_nil, List.nil_append] at hfold
  refine ⟨ns.reverse, fun n hn => hns n (List.mem_reverse.1 hn), ?_⟩
  rw [normalize, normalComponents_of_isAbsolute h, hfold, List.reverse_append, ← List.map_reverse]
  rfl

theorem isAbsolute_join_of_isAbsolute {p : Path} (h : p.isAbsolute = true) (q : Path) :
    (p.join q).isAbsolute = true := by
  unfold join
  split
  · assumption
  · obtain ⟨cs, htext, -⟩ := splitSlashes_of_isAbsolute h
    simp [isAbsolute, htext]

end Path

namespace FileTree

open SceneConvert.Path

/-! ## Absolute paths -/

/-- A way down leads to where its names say. -/
theorem eq_of_locate_pathOf {t : FileTree} {ns : List String} (hns : ∀ n ∈ ns, IsName n) {place : Place}
    (h : t.locate (pathOf ns) = .ok place) : place = ns := by
  obtain ⟨-, hwalk⟩ := locate_eq_ok h
  have hroot : t.isDirectoryAt [] = true := rfl
  rw [start, isAbsolute_pathOf, if_pos rfl, splitSlashes_pathOf hns, walk_idle rfl hroot] at hwalk
  split at hwalk
  · rename_i hempty
    rw [walk_idle rfl hroot, walk] at hwalk
    cases hwalk
    exact hempty.symm
  · obtain ⟨base, hbase, hplace⟩ := @walk_names t [] place [] ns hns hwalk
    cases hbase
    exact hplace

theorem normalize_eq_pathOf {t : FileTree} {p : Path} {place : Place} (habsolute : p.isAbsolute = true)
    (h : t.locate p = .ok place) : p.normalize = pathOf place ∧ ∀ n ∈ place, IsName n := by
  obtain ⟨ns, hns, hnormal⟩ := normalize_of_isAbsolute habsolute
  have hlocate := locate_normalize h
  rw [hnormal] at hlocate
  cases eq_of_locate_pathOf hns hlocate
  exact ⟨hnormal, hns⟩

theorem absolute_of_locate {t : FileTree} {p : Path} {place : Place} (h : t.locate p = .ok place) :
    t.absolute p = pathOf place := by
  rw [absolute, h]

theorem exists_absolute_eq_pathOf {t : FileTree} (hdir : ∀ n ∈ t.workingDirectory, IsName n) (p : Path) :
    ∃ ns, (∀ n ∈ ns, IsName n) ∧ t.absolute p = pathOf ns := by
  cases h : t.locate p with
  | ok place => exact ⟨place, isName_of_locate hdir h, absolute_of_locate h⟩
  | error e =>
    rw [absolute, h]
    dsimp only
    split
    · rename_i habsolute
      exact normalize_of_isAbsolute habsolute
    · have hcurrent : t.currentPath.isAbsolute = true := isAbsolute_pathOf _
      exact normalize_of_isAbsolute (isAbsolute_join_of_isAbsolute hcurrent p)

theorem absolute_ne_root_of_isFile {t : FileTree} (hdir : ∀ n ∈ t.workingDirectory, IsName n) {p : Path}
    (h : t.isFile p = true) : t.absolute p ≠ pathOf [] := by
  rw [isFile_eq] at h
  obtain ⟨place, hplace⟩ := Option.isSome_iff_exists.1 h
  have hlocate := locate_of_filePlace? hplace
  rw [absolute_of_locate hlocate]
  intro hroot
  cases pathOf_inj (isName_of_locate hdir hlocate) (by simp) hroot
  rw [filePlace?, hlocate] at hplace
  cases hplace

theorem isAbsolute_directoryOf {t : FileTree} (hdir : ∀ n ∈ t.workingDirectory, IsName n) {p : Path}
    (h : t.absolute p ≠ pathOf []) : (t.directoryOf p).isAbsolute = true := by
  obtain ⟨ns, hns, habsolute⟩ := exists_absolute_eq_pathOf hdir p
  obtain rfl | ⟨ds, d, rfl⟩ := List.eq_nil_or_concat ns
  · exact absurd habsolute h
  · rw [List.concat_eq_append] at hns habsolute
    have hd := List.forall_mem_append.1 hns
    rw [directoryOf, habsolute, parent?_pathOf hd.1 (hd.2 d (List.mem_singleton_self d))]
    exact isAbsolute_pathOf ds

/-! ## Includes -/

/-- The paths that a name in an include of `referrer` can stand for, in the order in which they are
tried. -/
def candidates (t : FileTree) (referrer : Path) (name : String) (root : Path) : List Path :=
  let p : Path := ⟨name⟩
  if p.isAbsolute then [p] else [(t.directoryOf referrer).join p, root.join p]

theorem include?_eq_find? (t : FileTree) (referrer : Path) (name : String) (root : Path) :
    t.include? referrer name root =
      ((t.candidates referrer name root).find? t.isFile).map
        (if (⟨name⟩ : Path).isAbsolute then id else normalize) := by
  unfold include? candidates
  dsimp only
  split
  · rw [List.find?_singleton]
    split <;> rfl
  · rw [List.find?_cons, List.find?_singleton]
    cases t.isFile ((t.directoryOf referrer).join ⟨name⟩) with
    | true => rfl
    | false =>
      rw [if_neg Bool.false_ne_true]
      split <;> rfl

theorem isAbsolute_of_mem_candidates {t : FileTree} (hdir : ∀ n ∈ t.workingDirectory, IsName n)
    {referrer root c : Path} {name : String} (hreferrer : t.absolute referrer ≠ pathOf [])
    (hroot : root.isAbsolute = true) (hc : c ∈ t.candidates referrer name root) :
    c.isAbsolute = true := by
  unfold candidates at hc
  dsimp only at hc
  split at hc
  · rename_i habsolute
    exact List.mem_singleton.1 hc ▸ habsolute
  · rcases List.mem_cons.1 hc with rfl | hc
    · exact isAbsolute_join_of_isAbsolute (isAbsolute_directoryOf hdir hreferrer) _
    · exact List.mem_singleton.1 hc ▸ isAbsolute_join_of_isAbsolute hroot _

/-- The file that an include finds lies where its first candidate does. -/
theorem exists_place_of_find? {t : FileTree} {referrer root c : Path} {name : String}
    (hc : (t.candidates referrer name root).find? t.isFile = some c) :
    ∃ p place, t.include? referrer name root = some p ∧
      p = (if (⟨name⟩ : Path).isAbsolute then c else c.normalize) ∧
      t.filePlace? c = some place ∧ t.locate p = .ok place := by
  have hfile : t.isFile c = true := List.find?_some hc
  rw [isFile_eq] at hfile
  obtain ⟨place, hplace⟩ := Option.isSome_iff_exists.1 hfile
  have hlocate := locate_of_filePlace? hplace
  refine ⟨_, place, by rw [include?_eq_find?, hc, Option.map_some], ?_, hplace, ?_⟩
  · split <;> rfl
  · split
    · exact hlocate
    · exact locate_normalize hlocate

/-- An include finds nothing if none of its candidates is a file. Otherwise it finds the first one that
is: under a path that leads there, which is the way down from the root unless the name is absolute, and
the absolute form of which is that way in any case. Hence two includes find their files under one absolute
path if and only if these are one file. -/
theorem resolves_canonically (t : FileTree) (hdir : ∀ n ∈ t.workingDirectory, IsName n)
    {referrer root : Path} (hreferrer : t.absolute referrer ≠ pathOf [])
    (hroot : root.isAbsolute = true) (name : String) :
    (t.include? referrer name root = none ↔
      ∀ c ∈ t.candidates referrer name root, t.isFile c = false) ∧
    ∀ c, (t.candidates referrer name root).find? t.isFile = some c →
      ∃ p place, t.include? referrer name root = some p ∧
        t.filePlace? c = some place ∧ t.filePlace? p = some place ∧ t.absolute p = pathOf place ∧
        ((⟨name⟩ : Path).isAbsolute = false →
          p = pathOf place ∧ p.isAbsolute = true ∧ p.components = .root :: place.map .name) ∧
        ∀ referrer' name' root' c', (t.candidates referrer' name' root').find? t.isFile = some c' →
          ∃ p', t.include? referrer' name' root' = some p' ∧
            (t.absolute p' = t.absolute p ↔ t.filePlace? c' = some place) := by
  refine ⟨by simp [include?_eq_find?], fun c hc => ?_⟩
  obtain ⟨p, place, hinclude, hp, hplace, hlocate⟩ := exists_place_of_find? hc
  have hkey := absolute_of_locate hlocate
  refine ⟨p, place, hinclude, hplace, ?_, hkey, fun hrelative => ?_, fun referrer' name' root' c' hc' => ?_⟩
  · rw [hp]
    split
    · exact hplace
    · exact filePlace?_normalize hplace
  · have habsolute := isAbsolute_of_mem_candidates hdir hreferrer hroot (List.mem_of_find?_eq_some hc)
    obtain ⟨hnormal, hnames⟩ := normalize_eq_pathOf habsolute (locate_of_filePlace? hplace)
    rw [hrelative, if_neg Bool.false_ne_true, hnormal] at hp
    rw [hp]
    exact ⟨rfl, isAbsolute_pathOf place, components_pathOf hnames⟩
  · obtain ⟨p', place', hinclude', -, hplace', hlocate'⟩ := exists_place_of_find? hc'
    refine ⟨p', hinclude', ?_⟩
    rw [hkey, absolute_of_locate hlocate', hplace', Option.some_inj]
    exact ⟨pathOf_inj (isName_of_locate hdir hlocate') (isName_of_locate hdir hlocate),
      congrArg pathOf⟩

/-- A scene in one directory and the file that it includes in another one. -/
def neighbours : FileTree :=
  ⟨[(["scenes"], .directory), (["scenes", "main.pbrt"], .file "".toUTF8), (["shared"], .directory),
    (["shared", "car.pbrt"], .file "".toUTF8)], ["scenes"]⟩

/-- Beside the scene and below the root, under a long name and a short one, it is one file. -/
theorem resolves_canonically_neighbours :
    neighbours.include? ⟨"main.pbrt"⟩ "../shared/.//car.pbrt" ⟨"/"⟩ = some ⟨"/shared/car.pbrt"⟩ ∧
      ∃ p', neighbours.include? ⟨"main.pbrt"⟩ "shared/car.pbrt" ⟨"/"⟩ = some p' ∧
        neighbours.absolute p' = ⟨"/shared/car.pbrt"⟩ := by
  have hdir : ∀ n ∈ neighbours.workingDirectory, IsName n := by
    intro n hn
    cases List.mem_singleton.1 hn
    exact ⟨by decide, by decide, by decide, by decide⟩
  have hreferrer : neighbours.absolute ⟨"main.pbrt"⟩ ≠ pathOf [] :=
    absolute_ne_root_of_isFile hdir (by decide)
  have hroot : (⟨"/"⟩ : Path).isAbsolute = true := by decide
  obtain ⟨-, hfinds⟩ :=
    resolves_canonically neighbours hdir hreferrer hroot "../shared/.//car.pbrt"
  obtain ⟨p, place, hinclude, hplace, -, habsolute, hcanonical, hkeys⟩ :=
    hfinds ⟨"/scenes/../shared/.//car.pbrt"⟩ (by decide)
  have hshared : neighbours.filePlace? ⟨"/scenes/../shared/.//car.pbrt"⟩ = some ["shared", "car.pbrt"] := by
    decide
  cases hshared.symm.trans hplace
  obtain ⟨p', hinclude', hsame⟩ :=
    hkeys ⟨"main.pbrt"⟩ "shared/car.pbrt" ⟨"/"⟩ ⟨"/shared/car.pbrt"⟩ (by decide)
  refine ⟨hinclude.trans (congrArg some (hcanonical (by decide)).1), p', hinclude', ?_⟩
  rw [hsame.2 (by decide), habsolute]
  rfl

end FileTree

end SceneConvert
