import SceneConvert.Files.Resolve

/-!
# SceneConvert.Proofs.Path.Names

Relative paths that consist of names only.

* `splitSlashes_joinSlashes`: segments without slashes are what a split finds between them.
* `Path.IsName`: what a segment has to be to stand for a name. `Path.ofNames`: the path of some names.
* `components_ofNames`, `parent?_ofNames`, `join_ofNames`: such a path taken apart and put together.
-/

namespace SceneConvert

namespace Path

/-! ## Segments -/

theorem splitSlashes_ne_nil (s : List Char) : splitSlashes s ≠ [] := by
  cases s with
  | nil => simp [splitSlashes]
  | cons c s =>
    rw [splitSlashes]
    split
    · simp
    · split <;> simp

theorem splitSlashes_cons {c : Char} {s t : List Char} {ts : List (List Char)} (hc : c ≠ '/')
    (h : splitSlashes s = t :: ts) : splitSlashes (c :: s) = (c :: t) :: ts := by
  rw [splitSlashes, if_neg hc, h]

theorem splitSlashes_append (s t : List Char) :
    splitSlashes (s ++ '/' :: t) = splitSlashes s ++ splitSlashes t := by
  induction s with
  | nil => simp [splitSlashes]
  | cons c s ih =>
    by_cases hc : c = '/'
    · subst hc
      simp [splitSlashes, ih]
    · obtain ⟨u, us, hs⟩ := List.exists_cons_of_ne_nil (splitSlashes_ne_nil s)
      have hst : splitSlashes (s ++ '/' :: t) = u :: (us ++ splitSlashes t) := by
        rw [ih, hs, List.cons_append]
      rw [List.cons_append, splitSlashes_cons hc hst, splitSlashes_cons hc hs, List.cons_append]

theorem splitSlashes_of_not_mem {s : List Char} (h : '/' ∉ s) : splitSlashes s = [s] := by
  induction s with
  | nil => rfl
  | cons c s ih =>
    have hc : c ≠ '/' := fun e => h (e ▸ List.mem_cons_self)
    exact splitSlashes_cons hc (ih fun hs => h (List.mem_cons_of_mem c hs))

theorem joinSlashes_cons_cons (s t : List Char) (ss : List (List Char)) :
    joinSlashes (s :: t :: ss) = s ++ '/' :: joinSlashes (t :: ss) := rfl

theorem splitSlashes_joinSlashes {ss : List (List Char)} (hne : ss ≠ []) (h : ∀ s ∈ ss, '/' ∉ s) :
    splitSlashes (joinSlashes ss) = ss := by
  induction ss with
  | nil => exact absurd rfl hne
  | cons s ss ih =>
    have hs := splitSlashes_of_not_mem (h s List.mem_cons_self)
    cases ss with
    | nil => exact hs
    | cons t ss =>
      have htail := ih (List.cons_ne_nil t ss) fun u hu => h u (List.mem_cons_of_mem s hu)
      rw [joinSlashes_cons_cons, splitSlashes_append, hs, htail, List.singleton_append]

theorem not_mem_of_mem_splitSlashes {s t : List Char} (h : t ∈ splitSlashes s) : '/' ∉ t := by
  induction s generalizing t with
  | nil => simp [splitSlashes] at h; simp [h]
  | cons c s ih =>
    obtain ⟨u, us, hs⟩ := List.exists_cons_of_ne_nil (splitSlashes_ne_nil s)
    by_cases hc : c = '/'
    · rw [splitSlashes, if_pos hc] at h
      rcases List.mem_cons.1 h with rfl | h
      · simp
      · exact ih h
    · rw [splitSlashes_cons hc hs] at h
      rcases List.mem_cons.1 h with rfl | h
      · have hu := ih (hs ▸ List.mem_cons_self)
        simp [Ne.symm hc, hu]
      · exact ih (hs ▸ List.mem_cons_of_mem u h)

theorem joinSlashes_append_singleton {ss : List (List Char)} (hne : ss ≠ []) (s : List Char) :
    joinSlashes (ss ++ [s]) = joinSlashes ss ++ '/' :: s := by
  induction ss with
  | nil => exact absurd rfl hne
  | cons t ss ih =>
    cases ss with
    | nil => rfl
    | cons u ss =>
      have htail := ih (List.cons_ne_nil u ss)
      rw [List.cons_append] at htail
      rw [List.cons_append, List.cons_append, joinSlashes_cons_cons, joinSlashes_cons_cons, htail,
        List.append_assoc, List.cons_append]

theorem toList_intercalate_slash (ss : List String) :
    ("/".intercalate ss).toList = joinSlashes (ss.map String.toList) := by
  have hjoin (ss : List (List Char)) : ['/'].intercalate ss = joinSlashes ss := by
    induction ss with
    | nil => rfl
    | cons s ss ih =>
      cases ss with
      | nil => simp [joinSlashes]
      | cons t ss => rw [List.intercalate_cons_cons, ih, joinSlashes_cons_cons]; simp
  rw [String.toList_intercalate, ← hjoin]
  rfl

theorem ext_toList {p q : Path} (h : p.text.toList = q.text.toList) : p = q := by
  cases p
  cases q
  exact congrArg mk (String.toList_inj.1 h)

/-! ## Names -/

/-- A segment that stands for a name. -/
structure IsName (s : String) : Prop where
  noSlash : '/' ∉ s.toList
  ne_empty : s ≠ ""
  ne_current : s ≠ "."
  ne_parent : s ≠ ".."

theorem IsName.isIdle {s : String} (h : IsName s) : isIdle s.toList = false := by
  have h1 : s.toList ≠ [] := fun e => h.ne_empty (String.toList_inj.1 e)
  have h2 : s.toList ≠ ['.'] := fun e => h.ne_current (String.toList_inj.1 e)
  simp [Path.isIdle, h1, h2]

theorem IsName.segmentComponent? {s : String} (h : IsName s) :
    segmentComponent? s.toList = some (.name s) := by
  have hparent : s.toList ≠ ['.', '.'] := fun e => h.ne_parent (String.toList_inj.1 e)
  simp [Path.segmentComponent?, h.isIdle, hparent]

theorem isName_of_segmentComponent? {seg : List Char} {s : String} (hslash : '/' ∉ seg)
    (h : segmentComponent? seg = some (.name s)) : IsName s := by
  unfold Path.segmentComponent? at h
  split at h
  · cases h
  · rename_i hidle
    split at h
    · cases h
    · rename_i hparent
      cases h
      simp only [isIdle, Bool.or_eq_true, List.isEmpty_iff, beq_iff_eq, not_or] at hidle
      refine ⟨by simpa using hslash, fun e => hidle.1 ?_, fun e => hidle.2 ?_, fun e => hparent ?_⟩
      all_goals exact (String.toList_ofList).symm.trans (congrArg String.toList e)

/-- Every name among the components of a path is one, whatever the path. -/
theorem isName_of_mem_components {p : Path} {s : String} (h : Component.name s ∈ p.components) :
    IsName s := by
  unfold components at h
  rcases List.mem_append.1 h with h | h
  · split at h
    · simp at h
    · split at h <;> simp at h
  · obtain ⟨seg, hseg, hc⟩ := List.mem_filterMap.1 h
    exact isName_of_segmentComponent? (not_mem_of_mem_splitSlashes hseg) hc

theorem isName_of_fileName? {p : Path} {s : String} (h : p.fileName? = some s) : IsName s := by
  unfold fileName? at h
  split at h
  · rename_i hlast
    cases h
    exact isName_of_mem_components (List.mem_of_getLast? hlast)
  · cases h

/-- The path of some names, one below the other. -/
def ofNames (ns : List String) : Path := ofComponents (ns.map .name)

theorem text_ofNames (ns : List String) :
    (ofNames ns).text.toList = joinSlashes (ns.map String.toList) := by
  have htext : (ofNames ns).text = "/".intercalate ns := by
    cases ns <;> simp [ofNames, ofComponents, componentText, Function.comp_def]
  rw [htext, toList_intercalate_slash]

section

variable {ns : List String} (hns : ∀ n ∈ ns, IsName n)

include hns

theorem splitSlashes_ofNames (hne : ns ≠ []) :
    splitSlashes (ofNames ns).text.toList = ns.map String.toList := by
  rw [text_ofNames]
  refine splitSlashes_joinSlashes (by simpa using hne) ?_
  intro s hs
  obtain ⟨n, hn, rfl⟩ := List.mem_map.1 hs
  exact (hns n hn).noSlash

theorem isAbsolute_ofNames : (ofNames ns).isAbsolute = false := by
  cases ns with
  | nil => rfl
  | cons n ns =>
    have hsplit := splitSlashes_ofNames hns (List.cons_ne_nil n ns)
    have hn := (hns n List.mem_cons_self).ne_empty
    unfold isAbsolute
    cases htext : (ofNames (n :: ns)).text.toList with
    | nil => rfl
    | cons c cs =>
      rw [htext, splitSlashes] at hsplit
      split at hsplit
      · simp at hsplit
        exact absurd hsplit.1.symm (by simpa using hn)
      · rename_i hc
        simp [hc]

theorem startsWithCurrent_ofNames : (ofNames ns).startsWithCurrent = false := by
  cases ns with
  | nil => rfl
  | cons n ns =>
    have hn := (hns n List.mem_cons_self).ne_current
    have hn' : n.toList ≠ ['.'] := fun e => hn (String.toList_inj.1 e)
    simp [startsWithCurrent, splitSlashes_ofNames hns (List.cons_ne_nil n ns), hn']

theorem filterMap_segmentComponent? :
    (ns.map String.toList).filterMap Path.segmentComponent? = ns.map .name := by
  induction ns with
  | nil => rfl
  | cons n ns ih =>
    have hn := (hns n List.mem_cons_self).segmentComponent?
    rw [List.map_cons, List.filterMap_cons_some hn, List.map_cons,
      ih fun m hm => hns m (List.mem_cons_of_mem n hm)]

theorem components_ofNames : (ofNames ns).components = ns.map .name := by
  unfold components
  rw [isAbsolute_ofNames hns, startsWithCurrent_ofNames hns]
  cases ns with
  | nil => rfl
  | cons n ns =>
    rw [splitSlashes_ofNames hns (List.cons_ne_nil n ns)]
    exact filterMap_segmentComponent? hns

end

theorem dropWhile_isIdle {ss : List (List Char)} (h : ∀ s ∈ ss, isIdle s = false) :
    ss.dropWhile isIdle = ss := by
  cases ss with
  | nil => rfl
  | cons s ss => exact List.dropWhile_cons_of_neg (by simp [h s List.mem_cons_self])

theorem text_ofNames_append {ds : List String} (hne : ds ≠ []) (n : String) :
    (ofNames (ds ++ [n])).text.toList = (ofNames ds).text.toList ++ '/' :: n.toList := by
  rw [text_ofNames, text_ofNames, List.map_append]
  exact joinSlashes_append_singleton (by simpa using hne) n.toList

theorem exists_text_ofNames_append (ds : List String) (n : String) :
    ∃ cs, (ofNames (ds ++ [n])).text.toList = cs ++ n.toList := by
  by_cases hne : ds = []
  · subst hne
    exact ⟨[], text_ofNames [n]⟩
  · exact ⟨_, (text_ofNames_append hne n).trans (List.append_cons ..)⟩

section

variable {ds : List String} {n : String} (hds : ∀ d ∈ ds, IsName d) (hn : IsName n)

include hds hn

theorem isName_append : ∀ m ∈ ds ++ [n], IsName m := by
  intro m hm
  rcases List.mem_append.1 hm with hm | hm
  · exact hds m hm
  · rw [List.mem_singleton.1 hm]
    exact hn

theorem fileName?_ofNames : (ofNames (ds ++ [n])).fileName? = some n := by
  simp [fileName?, components_ofNames (isName_append hds hn)]

theorem parent?_ofNames : (ofNames (ds ++ [n])).parent? = some (ofNames ds) := by
  have hall := isName_append hds hn
  have hanchor : (ofNames (ds ++ [n])).anchor = [] := by
    simp [anchor, isAbsolute_ofNames hall, startsWithCurrent_ofNames hall]
  have hsplit := splitSlashes_ofNames hall (by simp)
  have hidle : ∀ s ∈ ((ds ++ [n]).map String.toList).reverse, isIdle s = false := by
    intro s hs
    obtain ⟨m, hm, rfl⟩ := List.mem_map.1 (List.mem_reverse.1 hs)
    exact (hall m hm).isIdle
  have hbefore : ∀ s ∈ (ds.map String.toList).reverse, isIdle s = false := by
    intro s hs
    exact hidle s (by simp only [List.mem_reverse, List.map_append, List.mem_append] at hs ⊢; exact .inl hs)
  unfold parent?
  simp only [hanchor, List.length_nil, List.drop_zero, hsplit, dropWhile_isIdle hidle]
  rw [List.map_append, List.reverse_append]
  simp only [List.map_cons, List.map_nil, List.reverse_singleton, List.singleton_append,
    dropWhile_isIdle hbefore, List.reverse_reverse, List.nil_append, ← text_ofNames,
    String.ofList_toList]

theorem join_ofNames : (ofNames ds).join ⟨n⟩ = ofNames (ds ++ [n]) := by
  have hone : (ofNames [n]).isAbsolute = false := isAbsolute_ofNames (by simpa using hn)
  have habsolute : isAbsolute ⟨n⟩ = false := by
    simpa [ofNames, ofComponents, componentText] using hone
  unfold join
  rw [habsolute]
  simp only [Bool.false_eq_true, ↓reduceIte]
  apply ext_toList
  rcases List.eq_nil_or_concat ds with rfl | ⟨es, e, rfl⟩
  · simp [ofNames, ofComponents, componentText]
  · rw [List.concat_eq_append] at hds ⊢
    have he : IsName e := hds e (by simp)
    obtain ⟨cs, hcs⟩ := exists_text_ofNames_append es e
    have hlast : (ofNames (es ++ [e])).text.toList.getLast? ≠ some '/' := by
      obtain ⟨c, hc⟩ := Option.ne_none_iff_exists'.1
        (mt List.getLast?_eq_none_iff.1 fun h => he.ne_empty (String.toList_inj.1 h))
      rw [hcs, List.getLast?_append, hc, Option.some_or]
      intro h
      cases h
      exact he.noSlash (List.mem_of_getLast? hc)
    have hempty : (ofNames (es ++ [e])).text.isEmpty = false := by
      rw [← Bool.not_eq_true, String.isEmpty_iff, ← String.toList_inj, hcs]
      simpa using fun _ => he.ne_empty
    rw [text_ofNames_append (by simp) n]
    simp [hempty, hlast]

end

/-! ## Below a directory -/

/-- The segments that a path below `dir` has before its own. -/
def leading (dir : Path) : List (List Char) :=
  if dir.text.toList = [] ∨ dir.text.toList.getLast? = some '/' then
    (splitSlashes dir.text.toList).dropLast
  else splitSlashes dir.text.toList

theorem splitSlashes_join (dir : Path) {ns : List String} (hns : ∀ n ∈ ns, IsName n) (hne : ns ≠ []) :
    splitSlashes (dir.join (ofNames ns)).text.toList = dir.leading ++ ns.map String.toList := by
  have hsplit := splitSlashes_ofNames hns hne
  unfold join leading
  rw [isAbsolute_ofNames hns]
  by_cases hempty : dir.text = ""
  · simp [hempty, hsplit, splitSlashes]
  · have hlist : dir.text.toList ≠ [] := fun e => hempty (String.toList_inj.1 e)
    by_cases hlast : dir.text.toList.getLast? = some '/'
    · -- the slash at the end of the directory is the one between the two
      obtain ⟨s, hs⟩ := List.getLast?_eq_some_iff.1 hlast
      simp [hs, hsplit, splitSlashes_append, splitSlashes]
    · simp [hempty, hlist, hlast, hsplit, splitSlashes_append]

theorem isAbsolute_join (dir : Path) {ns : List String} (hns : ∀ n ∈ ns, IsName n) :
    (dir.join (ofNames ns)).isAbsolute = dir.isAbsolute := by
  have hrelative := isAbsolute_ofNames hns
  unfold join
  rw [hrelative]
  unfold isAbsolute at hrelative ⊢
  cases hdir : dir.text.toList with
  | nil =>
    have hempty : dir.text = "" := String.toList_inj.1 hdir
    simpa [hempty] using hrelative
  | cons c cs => simp [hdir]

end Path

end SceneConvert
