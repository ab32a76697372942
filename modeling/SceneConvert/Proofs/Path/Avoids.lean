import SceneConvert.Proofs.Files.Tree
import SceneConvert.Proofs.Path.OutputName
import SceneConvert.Proofs.Text.Avoids

/-!
# SceneConvert.Proofs.Path.Avoids

Paths without some character that is foreign to names.

* `avoids_join`, `avoids_normalize` and others: parts of such a path, and paths made from such paths, do
  without it too.
* `avoids_absolute`, `avoids_include?`, `avoids_fileFor`: so do the files that a scene names.
* `avoids_outputFor`, `avoids_numbered`: so do the names of output files.
-/

namespace SceneConvert

namespace Path

/-! ## Parts -/

theorem mem_of_mem_splitSlashes {cs s : List Char} {c : Char} (hs : s ∈ splitSlashes cs)
    (hc : c ∈ s) : c ∈ cs := by
  induction cs generalizing s with
  | nil => simp [splitSlashes] at hs; simp [hs] at hc
  | cons d cs ih =>
    obtain ⟨u, us, hu⟩ := List.exists_cons_of_ne_nil (splitSlashes_ne_nil cs)
    by_cases hd : d = '/'
    · rw [splitSlashes, if_pos hd] at hs
      rcases List.mem_cons.1 hs with rfl | hs
      · cases hc
      · exact List.mem_cons_of_mem d (ih hs hc)
    · rw [splitSlashes_cons hd hu] at hs
      rcases List.mem_cons.1 hs with rfl | hs
      · rcases List.mem_cons.1 hc with rfl | hc
        · exact List.mem_cons_self
        · exact List.mem_cons_of_mem d (ih (hu ▸ List.mem_cons_self) hc)
      · exact List.mem_cons_of_mem d (ih (hu ▸ List.mem_cons_of_mem u hs) hc)

theorem mem_joinSlashes {ss : List (List Char)} {c : Char} (h : c ∈ joinSlashes ss) :
    c = '/' ∨ ∃ s ∈ ss, c ∈ s := by
  induction ss with
  | nil => cases h
  | cons s ss ih =>
    cases ss with
    | nil => exact .inr ⟨s, List.mem_cons_self, h⟩
    | cons t ss =>
      rw [joinSlashes_cons_cons] at h
      rcases List.mem_append.1 h with h | h
      · exact .inr ⟨s, List.mem_cons_self, h⟩
      · rcases List.mem_cons.1 h with rfl | h
        · exact .inl rfl
        · exact (ih h).imp_right fun ⟨u, hu, hc⟩ => ⟨u, List.mem_cons_of_mem s hu, hc⟩

theorem mem_of_mem_splitExtension {name : List Char} {c : Char}
    (h : c ∈ (splitExtension name).1 ∨ ∃ ext, (splitExtension name).2 = some ext ∧ c ∈ ext) :
    c ∈ name := by
  simp only [splitExtension] at h
  split at h
  · exact h.elim id fun ⟨_, hext, _⟩ => by cases hext
  · rcases h with h | ⟨ext, hext, h⟩
    · have hdropped := (List.dropWhile_sublist _).subset (List.mem_of_mem_tail (List.mem_reverse.1 h))
      exact List.mem_reverse.1 hdropped
    · cases hext
      exact List.mem_reverse.1 ((List.takeWhile_sublist _).subset (List.mem_reverse.1 h))

section

variable {x : Char} (hx : IsForeign x)

include hx

theorem avoids_of_mem_components {p : Path} (hp : Avoids x p.text) {c : Component}
    (h : c ∈ p.components) : Avoids x (componentText c) := by
  rcases List.mem_append.1 h with h | h
  · split at h
    · cases List.mem_singleton.1 h
      exact hx.avoids (by decide)
    · split at h
      · cases List.mem_singleton.1 h
        exact hx.avoids (by decide)
      · cases h
  · obtain ⟨segment, hsegment, hc⟩ := List.mem_filterMap.1 h
    unfold segmentComponent? at hc
    split at hc
    · cases hc
    · split at hc <;> cases hc
      · exact hx.avoids (by decide)
      · exact avoids_ofList.2 fun hbreak => hp (mem_of_mem_splitSlashes hsegment hbreak)

theorem avoids_of_fileName? {p : Path} (hp : Avoids x p.text) {n : String} (h : p.fileName? = some n) :
    Avoids x n := by
  unfold fileName? at h
  split at h
  · rename_i hlast
    cases h
    exact avoids_of_mem_components hx hp (List.mem_of_getLast? hlast)
  · cases h

theorem avoids_of_stem? {p : Path} (hp : Avoids x p.text) {stem : String} (h : p.stem? = some stem) :
    Avoids x stem := by
  obtain ⟨n, hn, rfl⟩ := Option.map_eq_some_iff.1 h
  exact avoids_ofList.2 fun hbreak =>
    avoids_of_fileName? hx hp hn (mem_of_mem_splitExtension (.inl hbreak))

theorem avoids_of_extension? {p : Path} (hp : Avoids x p.text) {ext : String}
    (h : p.extension? = some ext) : Avoids x ext := by
  obtain ⟨n, hn, hext⟩ := Option.bind_eq_some_iff.1 h
  obtain ⟨cs, hcs, rfl⟩ := Option.map_eq_some_iff.1 hext
  exact avoids_ofList.2 fun hbreak =>
    avoids_of_fileName? hx hp hn (mem_of_mem_splitExtension (.inr ⟨cs, hcs, hbreak⟩))

theorem avoids_parent? {p q : Path} (hp : Avoids x p.text) (h : p.parent? = some q) :
    Avoids x q.text := by
  have hslash : x ≠ '/' := fun e => absurd (e ▸ hx) (by decide)
  have hdot : x ≠ '.' := fun e => absurd (e ▸ hx) (by decide)
  have hanchor : x ∉ p.anchor := by
    unfold anchor
    split
    · simpa using hslash
    · split <;> simp [hdot]
  simp only [parent?] at h
  split at h
  · rename_i segment before hsegments
    cases h
    refine avoids_ofList.2 ?_
    intro hbreak
    rcases List.mem_append.1 hbreak with hbreak | hbreak
    · exact hanchor hbreak
    · rcases mem_joinSlashes hbreak with he | ⟨s, hs, hc⟩
      · exact hslash he
      · have hbefore : s ∈ before := (List.dropWhile_sublist _).subset (List.mem_reverse.1 hs)
        have hsplit : s ∈ splitSlashes (p.text.toList.drop p.anchor.length) :=
          List.mem_reverse.1 ((List.dropWhile_sublist _).subset
            (hsegments ▸ List.mem_cons_of_mem segment hbefore))
        exact hp (List.mem_of_mem_drop (mem_of_mem_splitSlashes hsplit hc))
  · split at h <;> cases h
    exact hx.avoids (by decide)

/-! ## Paths made from paths -/

theorem avoids_join {p q : Path} (hp : Avoids x p.text) (hq : Avoids x q.text) :
    Avoids x (p.join q).text := by
  unfold join
  split
  · exact hq
  · refine avoids_append.2 ⟨avoids_append.2 ⟨hp, ?_⟩, hq⟩
    split <;> exact hx.avoids (by decide)

theorem avoids_ofComponents {cs : List Component} (h : ∀ c ∈ cs, Avoids x (componentText c)) :
    Avoids x (ofComponents cs).text := by
  have hjoined {cs : List Component} (h : ∀ c ∈ cs, Avoids x (componentText c)) :
      Avoids x (String.intercalate "/" (cs.map componentText)) :=
    avoids_intercalate (hx.avoids (by decide)) (by simpa using h)
  unfold ofComponents
  split
  · exact avoids_append.2 ⟨hx.avoids (by decide), hjoined fun c hc => h c (List.mem_cons_of_mem _ hc)⟩
  · exact hjoined h

omit hx in
theorem mem_normalComponents {cs : List Component} {c : Component} (h : c ∈ normalComponents cs) :
    c ∈ cs := by
  have hstep {out : List Component} {d c : Component} (h : c ∈ normalStep out d) : c ∈ out ∨ c = d := by
    unfold normalStep at h
    split at h
    · exact .inl h
    · exact .inl (List.mem_cons_of_mem _ h)
    · exact .inl h
    all_goals exact (List.mem_cons.1 h).symm
  have hfold (ds out : List Component) (h : c ∈ ds.foldl normalStep out) : c ∈ out ∨ c ∈ ds := by
    induction ds generalizing out with
    | nil => exact .inl h
    | cons d ds ih =>
      rcases ih _ h with h | h
      · rcases hstep h with h | rfl
        · exact .inl h
        · exact .inr List.mem_cons_self
      · exact .inr (List.mem_cons_of_mem d h)
  exact (hfold cs [] (List.mem_reverse.1 h)).resolve_left List.not_mem_nil

theorem avoids_normalize {p : Path} (hp : Avoids x p.text) : Avoids x p.normalize.text := by
  unfold normalize
  split
  · exact hx.avoids (by decide)
  · exact avoids_ofComponents hx fun c hc =>
      avoids_of_mem_components hx hp (mem_normalComponents hc)

theorem avoids_withFileName {p : Path} (hp : Avoids x p.text) {n : String} (hn : Avoids x n) :
    Avoids x (p.withFileName n).text := by
  have hparent : Avoids x (p.parent?.getD p).text := by
    cases h : p.parent? with
    | none => exact hp
    | some q => exact avoids_parent? hx hp h
  unfold withFileName
  split
  · exact avoids_join hx hparent hn
  · exact avoids_join hx hp hn

theorem avoids_withExtension {p : Path} (hp : Avoids x p.text) {ext : String} (hext : Avoids x ext) :
    Avoids x (p.withExtension ext).text := by
  have hparent : Avoids x (p.parent?.getD p).text := by
    cases h : p.parent? with
    | none => exact hp
    | some q => exact avoids_parent? hx hp h
  unfold withExtension
  split
  · exact hp
  · rename_i stem hstem
    have hpoint : Avoids x "." := hx.avoids (by decide)
    exact avoids_join hx hparent (by simp [avoids_of_stem? hx hp hstem, hpoint, hext])

theorem avoids_numbered {p : Path} (hp : Avoids x p.text) (n : Nat) : Avoids x (p.numbered n).text := by
  have hstem : Avoids x (p.stem?.getD "") := by
    cases h : p.stem? with
    | none => exact hx.avoids (by decide)
    | some stem => exact avoids_of_stem? hx hp h
  unfold numbered
  refine avoids_withFileName hx hp ?_
  simp only [avoids_append]
  refine ⟨⟨⟨hstem, hx.avoids (by decide)⟩, hx.avoids_toString n⟩, ?_⟩
  split
  · rename_i ext hext
    exact avoids_append.2 ⟨hx.avoids (by decide), avoids_of_extension? hx hp hext⟩
  · exact hx.avoids (by decide)

theorem avoids_outputFor {p : Path} (hp : Avoids x p.text) (base : Path) :
    Avoids x (p.outputFor base).text := by
  unfold outputFor
  extract_lets names names'
  have hnames : ∀ n ∈ names, Avoids x n := by
    intro n hn
    unfold names at hn
    split at hn
    · rename_i cs hcs
      unfold below? at hcs
      split at hcs
      · cases hcs
        obtain ⟨c, hc, hcn⟩ := List.mem_filterMap.1 hn
        cases c <;> cases hcn
        exact avoids_of_mem_components hx hp (List.mem_of_mem_drop hc)
      · cases hcs
    · exact avoids_of_fileName? hx hp (Option.mem_toList.1 hn)
  refine avoids_withExtension hx (avoids_ofComponents hx fun c hc => ?_) (hx.avoids (by decide))
  obtain ⟨n, hn, rfl⟩ := List.mem_map.1 hc
  unfold names' at hn
  split at hn
  · rw [List.mem_singleton.1 hn]
    exact hx.avoids (by decide)
  · exact hnames n hn

end

end Path

namespace FileTree

open SceneConvert.Path

section

variable {x : Char} (hx : IsForeign x) {t : FileTree} (ht : ∀ n ∈ t.workingDirectory, Avoids x n)

include hx ht

theorem avoids_absolute {p : Path} (hp : Avoids x p.text) : Avoids x (t.absolute p).text := by
  have hplace {place : Place} (h : ∀ n ∈ place, Avoids x n) : Avoids x (pathOf place).text := by
    refine avoids_ofComponents hx ?_
    intro c hc
    rcases List.mem_cons.1 hc with rfl | hc
    · exact hx.avoids (by decide)
    · obtain ⟨n, hn, rfl⟩ := List.mem_map.1 hc
      exact h n hn
  unfold absolute
  split
  · rename_i place hlocate
    unfold locate at hlocate
    split at hlocate
    · cases hlocate
    · have hsegments : ∀ s ∈ splitSlashes p.text.toList, isName s = true → Avoids x (String.ofList s) :=
        fun s hs _ => avoids_ofList.2 fun hbreak => hp (mem_of_mem_splitSlashes hs hbreak)
      refine hplace (forall_walk ?_ hsegments hlocate)
      unfold start
      split
      · simp
      · exact ht
  · split
    · exact avoids_normalize hx hp
    · exact avoids_normalize hx (avoids_join hx (hplace ht) hp)

theorem avoids_directoryOf {p : Path} (hp : Avoids x p.text) : Avoids x (t.directoryOf p).text := by
  unfold directoryOf
  cases h : (t.absolute p).parent? with
  | none => exact hx.avoids (by decide)
  | some q => exact avoids_parent? hx (avoids_absolute hx ht hp) h

variable {referrer root : Path} {name : String} (hreferrer : Avoids x referrer.text)
  (hname : Avoids x name)

include hreferrer hname

theorem avoids_include? (hroot : Avoids x root.text) {p : Path}
    (h : t.include? referrer name root = some p) : Avoids x p.text := by
  have hbeside := avoids_join hx (avoids_directoryOf hx ht hreferrer) (q := ⟨name⟩) hname
  simp only [include?] at h
  split at h
  · split at h <;> cases h
    exact hname
  · split at h
    · cases h
      exact avoids_normalize hx hbeside
    · split at h <;> cases h
      exact avoids_normalize hx (avoids_join hx hroot hname)

theorem avoids_fileFor (hroot : Avoids x root.text) : Avoids x (t.fileFor referrer name root).text := by
  unfold fileFor
  split
  · rename_i p hp
    exact avoids_include? hx ht hreferrer hname hroot hp
  · dsimp only
    split
    · exact hname
    · exact avoids_normalize hx (avoids_join hx (avoids_directoryOf hx ht hreferrer) hname)

end

end FileTree

end SceneConvert
