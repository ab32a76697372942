import SceneConvert.Proofs.Files.Tree

/-!
# SceneConvert.Proofs.Files.Resolve

Where the files lie that a scene names.

* `FileTree.Leads.foldl`, `locate_normalize`: in a tree without links, the normal form of a path leads
  where the path leads.
* `FileTree.filePlace?`, `FileTree.includedPlace?`: the place of the file that a path, or a name in an
  include, leads to.
* `includedPlace?_eq`: `include?` finds the file that the name leads to.
* `pathOf_inj`, `isName_of_locate`: the absolute path of a file tells it from all others.
-/

namespace SceneConvert

/-- What a component stands for behind the root of a path: `..`, or a name. -/
def Component.IsStep : Component → Prop
  | .parent => True
  | .name s => Path.IsName s
  | _ => False

/-- The segment that a component is written as. -/
def Component.segment (c : Component) : List Char := (Path.componentText c).toList

namespace Path

/-! ## Segments of a normal form -/

theorem segment_of_segmentComponent? {s : List Char} {c : Component}
    (h : segmentComponent? s = some c) : c.segment = s := by
  unfold segmentComponent? at h
  split at h
  · cases h
  · split at h
    · rename_i hs
      cases h
      exact hs.symm
    · cases h
      exact String.toList_ofList

theorem isStep_of_segmentComponent? {s : List Char} {c : Component} (hslash : '/' ∉ s)
    (h : segmentComponent? s = some c) : c.IsStep := by
  cases c with
  | parent => trivial
  | name n => exact isName_of_segmentComponent? hslash h
  | root | current =>
    unfold segmentComponent? at h
    split at h
    · cases h
    · split at h <;> cases h

theorem joinSlashes_splitSlashes (cs : List Char) : joinSlashes (splitSlashes cs) = cs := by
  induction cs with
  | nil => rfl
  | cons c cs ih =>
    obtain ⟨s, ss, hs⟩ := List.exists_cons_of_ne_nil (splitSlashes_ne_nil cs)
    rw [hs] at ih
    by_cases hc : c = '/'
    · rw [splitSlashes, if_pos hc, hs, joinSlashes_cons_cons, ih, hc, List.nil_append]
    · rw [splitSlashes_cons hc hs]
      cases ss with
      | nil => exact congrArg (c :: ·) ih
      | cons u ss => exact congrArg (c :: ·) ih

theorem joinSlashes_sublist {ss ts : List (List Char)} (h : ss.Sublist ts) :
    (joinSlashes ss).Sublist (joinSlashes ts) := by
  induction h with
  | slnil => exact List.nil_sublist _
  | @cons ss ts t h ih =>
    cases ts with
    | nil =>
      cases h
      exact List.nil_sublist _
    | cons u ts =>
      rw [joinSlashes_cons_cons]
      exact (ih.cons '/').trans (List.sublist_append_right _ _)
  | @cons_cons ss ts s h ih =>
    cases ts with
    | nil =>
      cases h
      exact List.Sublist.refl _
    | cons u ts =>
      rw [joinSlashes_cons_cons]
      cases ss with
      | nil => exact List.sublist_append_left _ _
      | cons v ss =>
        rw [joinSlashes_cons_cons]
        exact (List.Sublist.refl s).append (ih.cons_cons '/')

theorem utf8ByteSize_le_of_sublist {cs ds : List Char} (h : cs.Sublist ds) :
    (String.ofList cs).utf8ByteSize ≤ (String.ofList ds).utf8ByteSize := by
  have hcons (c : Char) (cs : List Char) :
      (String.ofList (c :: cs)).utf8ByteSize = c.utf8Size + (String.ofList cs).utf8ByteSize := by
    have hsplit : String.ofList (c :: cs) = String.singleton c ++ String.ofList cs :=
      String.toList_inj.1 (by simp)
    rw [hsplit, String.utf8ByteSize_append, String.utf8ByteSize_singleton]
  induction h with
  | slnil => exact Nat.le_refl _
  | cons d _ ih =>
    rw [hcons]
    omega
  | cons_cons c _ ih =>
    rw [hcons, hcons]
    omega

theorem defect?_of_sublist {p q : Path} (hp : p.defect? = none)
    (h : q.text.toList.Sublist p.text.toList) (hq : q.text ≠ "") : q.defect? = none := by
  have hbytes := utf8ByteSize_le_of_sublist h
  rw [String.ofList_toList, String.ofList_toList] at hbytes
  unfold defect? at hp ⊢
  split at hp
  · cases hp
  · rename_i hnul
    split at hp
    · cases hp
    · split at hp
      · cases hp
      · rename_i hlong
        have hnul' : '\x00' ∉ q.text.toList := fun hc => hnul (by simpa using h.subset hc)
        rw [if_neg (by simpa using hnul'), if_neg (by simpa using hq), if_neg (by omega)]

theorem text_ofComponents {cs : List Component} (hcs : ∀ c ∈ cs, c.IsStep) :
    (ofComponents cs).text.toList = joinSlashes (cs.map Component.segment) := by
  have hroot : ∀ ds, cs ≠ .root :: ds := by
    rintro ds rfl
    exact hcs .root List.mem_cons_self
  have hunrooted : ofComponents cs = ⟨String.intercalate "/" (cs.map componentText)⟩ := by
    unfold ofComponents
    split
    · exact absurd rfl (hroot _)
    · rfl
  rw [hunrooted, toList_intercalate_slash, List.map_map]
  rfl

theorem text_ofComponents_root (cs : List Component) :
    (ofComponents (.root :: cs)).text.toList = '/' :: joinSlashes (cs.map Component.segment) := by
  have hrooted : (ofComponents (.root :: cs)).text =
      "/" ++ String.intercalate "/" (cs.map componentText) := rfl
  rw [hrooted, String.toList_append, toList_intercalate_slash, List.map_map]
  rfl

theorem segment_ne_nil {c : Component} (h : c.IsStep) : c.segment ≠ [] := by
  cases c with
  | parent => decide
  | name n => exact fun hempty => h.ne_empty (String.toList_inj.1 hempty)
  | root | current => exact absurd h id

theorem slash_not_mem_segment {c : Component} (h : c.IsStep) : '/' ∉ c.segment := by
  cases c with
  | parent => decide
  | name n => exact h.noSlash
  | root | current => exact absurd h id

theorem splitSlashes_segments {cs : List Component} (hcs : ∀ c ∈ cs, c.IsStep) (hne : cs ≠ []) :
    splitSlashes (joinSlashes (cs.map Component.segment)) = cs.map Component.segment := by
  refine splitSlashes_joinSlashes (by simpa using hne) fun s hs => ?_
  obtain ⟨c, hc, rfl⟩ := List.mem_map.1 hs
  exact slash_not_mem_segment (hcs c hc)

theorem joinSlashes_segments_ne_nil {cs : List Component} (hcs : ∀ c ∈ cs, c.IsStep) (hne : cs ≠ []) :
    joinSlashes (cs.map Component.segment) ≠ [] := by
  intro h
  have hsplit := splitSlashes_segments hcs hne
  rw [h] at hsplit
  cases cs with
  | nil => exact hne rfl
  | cons c cs => exact segment_ne_nil (hcs c List.mem_cons_self) (List.cons.inj hsplit).1.symm

theorem joinSlashes_segments_inj {cs ds : List Component} (hcs : ∀ c ∈ cs, c.IsStep)
    (hds : ∀ d ∈ ds, d.IsStep)
    (h : joinSlashes (cs.map Component.segment) = joinSlashes (ds.map Component.segment)) :
    cs.map Component.segment = ds.map Component.segment := by
  by_cases hc : cs = []
  · subst hc
    by_cases hd : ds = []
    · rw [hd]
    · exact absurd h.symm (joinSlashes_segments_ne_nil hds hd)
  · by_cases hd : ds = []
    · subst hd
      exact absurd h (joinSlashes_segments_ne_nil hcs hc)
    · have hsplit := congrArg splitSlashes h
      rwa [splitSlashes_segments hcs hc, splitSlashes_segments hds hd] at hsplit

/-- The components of a path behind its root or leading `.`. -/
def steps (p : Path) : List Component := (splitSlashes p.text.toList).filterMap segmentComponent?

theorem isStep_of_mem_steps {p : Path} : ∀ c ∈ p.steps, c.IsStep := by
  intro c hc
  obtain ⟨s, hs, hc⟩ := List.mem_filterMap.1 hc
  exact isStep_of_segmentComponent? (not_mem_of_mem_splitSlashes hs) hc

theorem joinSlashes_steps_sublist {cs : List Component} {ss : List (List Char)}
    (h : cs.Sublist (ss.filterMap segmentComponent?)) :
    (joinSlashes (cs.map Component.segment)).Sublist (joinSlashes ss) := by
  have hsegments : ((ss.filterMap segmentComponent?).map Component.segment).Sublist ss := by
    clear h
    induction ss with
    | nil => exact List.Sublist.refl _
    | cons s ss ih =>
      cases hs : segmentComponent? s with
      | none =>
        rw [List.filterMap_cons_none hs]
        exact ih.cons s
      | some c =>
        rw [List.filterMap_cons_some hs, List.map_cons, segment_of_segmentComponent? hs]
        exact ih.cons_cons s
  exact joinSlashes_sublist ((h.map Component.segment).trans hsegments)

theorem splitSlashes_of_isAbsolute {p : Path} (h : p.isAbsolute = true) :
    ∃ cs, p.text.toList = '/' :: cs ∧ splitSlashes p.text.toList = [] :: splitSlashes cs := by
  cases htext : p.text.toList with
  | nil => simp [isAbsolute, htext] at h
  | cons c cs =>
    obtain rfl : c = '/' := by simpa [isAbsolute, htext] using h
    exact ⟨cs, rfl, by simp [splitSlashes]⟩

theorem isAbsolute_ofComponents {cs : List Component} (hcs : ∀ c ∈ cs, c.IsStep) (hne : cs ≠ []) :
    (ofComponents cs).isAbsolute = false := by
  rw [← Bool.not_eq_true]
  intro habsolute
  obtain ⟨ds, -, hfirst⟩ := splitSlashes_of_isAbsolute habsolute
  rw [text_ofComponents hcs, splitSlashes_segments hcs hne] at hfirst
  cases cs with
  | nil => exact hne rfl
  | cons c cs => exact segment_ne_nil (hcs c List.mem_cons_self) (List.cons.inj hfirst).1

theorem normalComponents_of_isAbsolute {p : Path} (h : p.isAbsolute = true) :
    normalComponents p.components = (p.steps.foldl normalStep [.root]).reverse := by
  have hcomponents : p.components = .root :: p.steps := by simp [components, h, steps]
  rw [normalComponents, hcomponents, List.foldl_cons]
  rfl

theorem normalComponents_of_relative {p : Path} (h : p.isAbsolute = false) :
    normalComponents p.components = (p.steps.foldl normalStep []).reverse := by
  rw [normalComponents, components, h]
  simp only [Bool.false_eq_true, ↓reduceIte]
  split <;> rfl

end Path

namespace FileTree

open SceneConvert.Path

/-! ## Walks along normal forms -/

theorem walk_steps {t : FileTree} {place q : Place} {ss : List (List Char)}
    (h : t.walk place ss = .ok q) :
    t.walk place ((ss.filterMap segmentComponent?).map Component.segment) = .ok q := by
  induction ss generalizing place with
  | nil => exact h
  | cons s ss ih =>
    rw [walk] at h
    split at h
    · cases h
    · rename_i next hnext
      cases hs : segmentComponent? s with
      | none =>
        have hidle : isIdle s = true := by
          unfold segmentComponent? at hs
          split at hs
          · assumption
          · split at hs <;> cases hs
        rw [List.filterMap_cons_none hs]
        have hstay : next = place := by
          unfold enter at hnext
          rw [hidle] at hnext
          split at hnext
          · cases hnext
          · cases hnext
            rfl
        exact hstay ▸ ih h
      | some c =>
        rw [List.filterMap_cons_some hs, List.map_cons, segment_of_segmentComponent? hs, walk, hnext]
        exact ih h

/-- The components `out`, given from the last to the first, lead from `start` to `place`. -/
structure Leads (t : FileTree) (start : Place) (out : List Component) (place : Place) : Prop where
  isStep : ∀ c ∈ out, c.IsStep
  walk : t.walk start (out.reverse.map Component.segment) = .ok place

namespace Leads

variable {t : FileTree} {start place next : Place} {out base : List Component}

theorem isStep_reverse (h : Leads t start out place) : ∀ c ∈ out.reverse, c.IsStep :=
  fun c hc => h.isStep c (List.mem_reverse.1 hc)

theorem cons {c : Component} (h : Leads t start out place) (hc : c.IsStep)
    (hnext : t.enter place c.segment = .ok next) : Leads t start (c :: out) next where
  isStep := List.forall_mem_cons.2 ⟨hc, h.isStep⟩
  walk := by
    rw [List.reverse_cons, List.map_append, walk_append, h.walk]
    simp only [Except.bind, List.map_cons, List.map_nil, FileTree.walk, hnext]

theorem dropLast {n : String} (h : Leads t start (.name n :: out) place) :
    Leads t start out place.dropLast := by
  have hsteps := List.forall_mem_cons.1 h.isStep
  refine ⟨hsteps.2, ?_⟩
  have hwalk := h.walk
  rw [List.reverse_cons, List.map_append, walk_append] at hwalk
  cases hbefore : t.walk start (out.reverse.map Component.segment) with
  | error e => rw [hbefore] at hwalk; cases hwalk
  | ok q =>
    rw [hbefore] at hwalk
    simp only [Except.bind, List.map_cons, List.map_nil, FileTree.walk] at hwalk
    split at hwalk
    · cases hwalk
    · rename_i hlast
      cases hwalk
      have hn : Path.IsName n := hsteps.1
      have hdown : place = q ++ [n] := by
        obtain ⟨-, ⟨hidle, -⟩ | ⟨hdots, -⟩ | ⟨-, hplace⟩⟩ := enter_cases hlast
        · exact absurd (hn.isIdle.symm.trans hidle) Bool.false_ne_true
        · exact absurd (String.toList_inj.1 (show n.toList = "..".toList from hdots)) hn.ne_parent
        · simpa [Component.segment, componentText] using hplace
      rw [hdown, List.dropLast_concat]

/-- A step of the normal form leads where the component leads. `base` is what the normal form has before
its steps: the root, if the walk starts there. -/
theorem normalStep {c : Component} (hbase : base = [] ∨ base = [.root] ∧ start = [])
    (h : Leads t start out place) (hc : c.IsStep) (hnext : t.enter place c.segment = .ok next) :
    ∃ out', Path.normalStep (out ++ base) c = out' ++ base ∧
      out'.reverse.Sublist (out.reverse ++ [c]) ∧ Leads t start out' next := by
  have hpush : (c :: out).reverse.Sublist (out.reverse ++ [c]) := by simp
  cases c with
  | root | current => exact absurd hc id
  | name n => exact ⟨.name n :: out, by simp [Path.normalStep], hpush, h.cons hc hnext⟩
  | parent =>
    have hup : next = place.dropLast := by
      obtain ⟨-, ⟨hidle, -⟩ | ⟨-, hplace⟩ | ⟨hname, -⟩⟩ := enter_cases hnext
      · exact absurd hidle (by decide)
      · exact hplace
      · exact absurd hname (by decide)
    cases out with
    | nil =>
      obtain rfl | ⟨rfl, rfl⟩ := hbase
      · exact ⟨[.parent], rfl, hpush, h.cons hc hnext⟩
      · refine ⟨[], rfl, List.nil_sublist _, h.isStep, ?_⟩
        have hroot : place = [] := by simpa [FileTree.walk] using h.walk.symm
        rw [hup, hroot]
        rfl
    | cons d out =>
      cases d with
      | name n =>
        refine ⟨out, rfl, ?_, hup ▸ h.dropLast⟩
        rw [List.reverse_cons, List.append_assoc]
        exact List.sublist_append_left _ _
      | parent => exact ⟨.parent :: .parent :: out, rfl, hpush, h.cons hc hnext⟩
      | root | current => exact absurd (h.isStep _ List.mem_cons_self) id

theorem foldl {cs : List Component} {q : Place} (hbase : base = [] ∨ base = [.root] ∧ start = [])
    (h : Leads t start out place) (hcs : ∀ c ∈ cs, c.IsStep)
    (hq : t.walk place (cs.map Component.segment) = .ok q) :
    ∃ out', cs.foldl Path.normalStep (out ++ base) = out' ++ base ∧
      out'.reverse.Sublist (out.reverse ++ cs) ∧ Leads t start out' q := by
  induction cs generalizing out place with
  | nil =>
    cases hq
    exact ⟨out, rfl, by simp, h⟩
  | cons c cs ih =>
    have hsteps := List.forall_mem_cons.1 hcs
    rw [List.map_cons, FileTree.walk] at hq
    split at hq
    · cases hq
    · rename_i next hnext
      obtain ⟨mid, hmid, hfew, hleads⟩ := h.normalStep hbase hsteps.1 hnext
      obtain ⟨out', hout, hless, hend⟩ := ih hleads hsteps.2 hq
      refine ⟨out', by rw [List.foldl_cons, hmid, hout], ?_, hend⟩
      rw [List.append_cons]
      exact hless.trans (hfew.append (List.Sublist.refl cs))

end Leads

theorem isDirectoryAt_of_walk {t : FileTree} {place q : Place} {ss : List (List Char)} (hne : ss ≠ [])
    (h : t.walk place ss = .ok q) : t.isDirectoryAt place = true := by
  cases ss with
  | nil => exact absurd rfl hne
  | cons s ss =>
    rw [walk] at h
    split at h
    · cases h
    · rename_i hnext
      exact (enter_cases hnext).1

theorem walk_idle {t : FileTree} {place : Place} {s : List Char} (hs : isIdle s = true)
    (hdir : t.isDirectoryAt place = true) (ss : List (List Char)) :
    t.walk place (s :: ss) = t.walk place ss := by
  simp [walk, enter, hdir, hs]

theorem locate_eq_ok {t : FileTree} {p : Path} {place : Place} (h : t.locate p = .ok place) :
    p.defect? = none ∧ t.walk (t.start p) (splitSlashes p.text.toList) = .ok place := by
  unfold locate at h
  split at h
  · cases h
  · rename_i hdefect
    exact ⟨hdefect, h⟩

theorem locate_of_walk {t : FileTree} {p : Path} {place : Place} (hdefect : p.defect? = none)
    (h : t.walk (t.start p) (splitSlashes p.text.toList) = .ok place) : t.locate p = .ok place := by
  rw [locate, hdefect]
  exact h

theorem locate_normalize_of_isAbsolute {t : FileTree} {p : Path} {place : Place}
    (habsolute : p.isAbsolute = true) (h : t.locate p = .ok place) :
    t.locate p.normalize = .ok place := by
  obtain ⟨hdefect, hwalk⟩ := locate_eq_ok h
  obtain ⟨cs, htext, hsplit⟩ := splitSlashes_of_isAbsolute habsolute
  have hroot : t.isDirectoryAt [] = true := rfl
  have hbegin : Leads t [] [] [] := ⟨by simp, rfl⟩
  have hstart : t.start p = [] := by simp [start, habsolute]
  rw [hstart] at hwalk
  obtain ⟨out, hfold, hless, hleads⟩ :=
    hbegin.foldl (.inr ⟨rfl, rfl⟩) p.isStep_of_mem_steps (walk_steps hwalk)
  have hnormal : p.normalize.text.toList = '/' :: joinSlashes (out.reverse.map Component.segment) := by
    have hcomponents : normalComponents p.components = .root :: out.reverse := by
      rw [normalComponents_of_isAbsolute habsolute]
      exact (congrArg List.reverse hfold).trans (by simp)
    rw [Path.normalize, hcomponents, text_ofComponents_root]
  refine locate_of_walk (defect?_of_sublist hdefect ?_ ?_) ?_
  · have hsteps : p.steps = (splitSlashes cs).filterMap segmentComponent? := by
      rw [steps, hsplit]
      rfl
    rw [hsteps] at hless
    have hjoined := joinSlashes_steps_sublist hless
    rw [joinSlashes_splitSlashes] at hjoined
    rw [hnormal, htext]
    exact hjoined.cons_cons '/'
  · intro hempty
    rw [hempty] at hnormal
    cases hnormal
  · have habsolute' : p.normalize.isAbsolute = true := by simp [isAbsolute, hnormal]
    rw [hnormal, start, habsolute']
    simp only [splitSlashes, ↓reduceIte]
    rw [walk_idle rfl hroot]
    by_cases hne : out.reverse = []
    · have hwalk := hleads.walk
      rw [hne] at hwalk ⊢
      exact (walk_idle rfl hroot _).trans hwalk
    · rw [splitSlashes_segments hleads.isStep_reverse hne]
      exact hleads.walk

theorem locate_normalize_of_relative {t : FileTree} {p : Path} {place : Place}
    (hrelative : p.isAbsolute = false) (h : t.locate p = .ok place) :
    t.locate p.normalize = .ok place := by
  obtain ⟨hdefect, hwalk⟩ := locate_eq_ok h
  have hstart : t.start p = t.workingDirectory := by simp [start, hrelative]
  rw [hstart] at hwalk
  have hdir := isDirectoryAt_of_walk (splitSlashes_ne_nil _) hwalk
  have hbegin : Leads t t.workingDirectory [] t.workingDirectory := ⟨by simp, rfl⟩
  obtain ⟨out, hfold, hless, hleads⟩ :=
    hbegin.foldl (.inl rfl) p.isStep_of_mem_steps (walk_steps hwalk)
  have hcomponents : normalComponents p.components = out.reverse := by
    rw [normalComponents_of_relative hrelative]
    exact congrArg List.reverse (hfold.trans (List.append_nil out))
  unfold Path.normalize
  rw [hcomponents]
  split
  · rename_i hempty
    have hplace : t.workingDirectory = place := by simpa [hempty, walk] using hleads.walk
    refine locate_of_walk (by decide) ?_
    exact (walk_idle rfl hdir []).trans (congrArg Except.ok hplace)
  · rename_i hne
    have hsteps := hleads.isStep_reverse
    have htext := text_ofComponents hsteps
    refine locate_of_walk (defect?_of_sublist hdefect ?_ ?_) ?_
    · have hjoined := joinSlashes_steps_sublist hless
      rwa [joinSlashes_splitSlashes, ← htext] at hjoined
    · intro hempty
      refine joinSlashes_segments_ne_nil hsteps hne ?_
      rw [← htext, hempty]
      rfl
    · rw [htext, splitSlashes_segments hsteps hne, start, isAbsolute_ofComponents hsteps hne]
      exact hleads.walk

/-- The normal form of a path leads where the path leads. -/
theorem locate_normalize {t : FileTree} {p : Path} {place : Place} (h : t.locate p = .ok place) :
    t.locate p.normalize = .ok place := by
  cases hp : p.isAbsolute with
  | true => exact locate_normalize_of_isAbsolute hp h
  | false => exact locate_normalize_of_relative hp h

/-! ## The files that includes name -/

/-- The place of the file that a path leads to. -/
def filePlace? (t : FileTree) (p : Path) : Option Place :=
  match t.locate p with
  | .ok place => match t.node? place with
    | some (.file _) => some place
    | _ => none
  | .error _ => none

/-- The place of the file that `referrer` includes under this name: an absolute name leads there as it
is, any other from the directory of `referrer`, or else from `root`. -/
def includedPlace? (t : FileTree) (referrer : Path) (name : String) (root : Path) : Option Place :=
  let p : Path := ⟨name⟩
  if p.isAbsolute then t.filePlace? p
  else (t.filePlace? ((t.directoryOf referrer).join p)).or (t.filePlace? (root.join p))

theorem locate_of_filePlace? {t : FileTree} {p : Path} {place : Place}
    (h : t.filePlace? p = some place) : t.locate p = .ok place := by
  unfold filePlace? at h
  split at h
  · rename_i q hq
    split at h <;> cases h
    exact hq
  · cases h

theorem isFile_eq (t : FileTree) (p : Path) : t.isFile p = (t.filePlace? p).isSome := by
  unfold isFile find filePlace?
  cases t.locate p with
  | error e => rfl
  | ok place =>
    dsimp only [Except.bind]
    cases t.node? place with
    | none => rfl
    | some node => cases node <;> rfl

theorem filePlace?_normalize {t : FileTree} {p : Path} {place : Place}
    (h : t.filePlace? p = some place) : t.filePlace? p.normalize = some place := by
  have hlocate := locate_of_filePlace? h
  unfold filePlace? at h ⊢
  rw [hlocate] at h
  rw [locate_normalize hlocate]
  exact h

/-- What an include finds, in its normal form, is the file that its name leads to. -/
theorem includedPlace?_eq (t : FileTree) (referrer : Path) (name : String) (root : Path) :
    t.includedPlace? referrer name root = (t.include? referrer name root).bind t.filePlace? := by
  unfold includedPlace? include?
  dsimp only
  by_cases habsolute : (⟨name⟩ : Path).isAbsolute = true
  · rw [if_pos habsolute, if_pos habsolute, isFile_eq]
    cases hp : t.filePlace? ⟨name⟩ with
    | none => rfl
    | some place => exact hp.symm
  · rw [if_neg habsolute, if_neg habsolute, isFile_eq, isFile_eq]
    cases hbeside : t.filePlace? ((t.directoryOf referrer).join ⟨name⟩) with
    | some place => simp [filePlace?_normalize hbeside]
    | none =>
      cases hrooted : t.filePlace? (root.join ⟨name⟩) with
      | some place => simp [filePlace?_normalize hrooted]
      | none => simp

/-! ## Absolute paths -/

theorem pathOf_inj {place place' : Place} (h : ∀ n ∈ place, IsName n) (h' : ∀ n ∈ place', IsName n)
    (hpath : pathOf place = pathOf place') : place = place' := by
  have hsteps {place : Place} (h : ∀ n ∈ place, IsName n) :
      ∀ c ∈ place.map Component.name, c.IsStep := by
    intro c hc
    obtain ⟨n, hn, rfl⟩ := List.mem_map.1 hc
    exact h n hn
  have htext := congrArg (fun p : Path => p.text.toList) hpath
  simp only [pathOf, text_ofComponents_root] at htext
  have hsegments := joinSlashes_segments_inj (hsteps h) (hsteps h') (List.cons.inj htext).2
  rw [List.map_map, List.map_map] at hsegments
  exact List.map_inj_right (fun n m hnm => String.toList_inj.1 hnm) |>.1 hsegments

theorem isName_of_locate {t : FileTree} (ht : ∀ n ∈ t.workingDirectory, IsName n) {p : Path}
    {place : Place} (h : t.locate p = .ok place) : ∀ n ∈ place, IsName n := by
  refine forall_walk ?_ (fun s hs hname => ?_) (locate_eq_ok h).2
  · unfold start
    split
    · simp
    · exact ht
  · have hslash := not_mem_of_mem_splitSlashes hs
    refine isName_of_segmentComponent? hslash ?_
    unfold isName at hname
    unfold segmentComponent?
    rw [Bool.and_eq_true, Bool.not_eq_true', bne_iff_ne] at hname
    rw [if_neg (by simp [hname.1]), if_neg hname.2]

end FileTree

end SceneConvert
