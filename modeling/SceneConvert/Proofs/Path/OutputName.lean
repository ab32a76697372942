import SceneConvert.Conversion.Options
import SceneConvert.Proofs.Path.Names
import SceneConvert.Scene.Counters

/-!
# SceneConvert.Proofs.Path.OutputName

The paths of output files: names of directories, and a stem with the extension of an output file.

* `OutputName.path`: the path.
* `exists_outputFor`, `exists_mainOutput`: the path for an included file and that of the main file are
  of this form.
* `numbered_path`: a number goes to the end of the stem.
* `path_inj`, `same_path`, `eq_of_numbered`: how much of an output name its path tells.
* `Counter.name_inj`: a name that was made by counting tells its number.
-/

namespace SceneConvert

namespace Path

theorem splitExtension_append {stem ext : List Char} (hstem : stem ≠ []) (hext : ext ≠ [])
    (hpoint : '.' ∉ ext) : splitExtension (stem ++ '.' :: ext) = (stem, some ext) := by
  have hreverse : (stem ++ '.' :: ext).reverse = ext.reverse ++ '.' :: stem.reverse := by simp
  have hall : ∀ c ∈ ext.reverse, (c != '.') = true := by
    intro c hc
    have : c ≠ '.' := fun e => hpoint (e ▸ List.mem_reverse.1 hc)
    simpa using this
  have hbehind : ((stem ++ '.' :: ext).reverse.takeWhile (· != '.')).reverse = ext := by
    rw [hreverse, List.takeWhile_append_of_pos hall]
    simp
  have hbefore : ((stem ++ '.' :: ext).reverse.dropWhile (· != '.')).tail.reverse = stem := by
    rw [hreverse, List.dropWhile_append_of_pos hall]
    simp
  have hdots : stem ++ '.' :: ext ≠ ['.', '.'] := by
    intro h
    cases stem with
    | nil => exact hstem rfl
    | cons c stem =>
      rw [List.cons_append, List.cons_eq_cons] at h
      rw [List.append_eq_singleton_iff] at h
      simp [hext] at h
  unfold splitExtension
  simp only [hbehind, hbefore]
  exact if_neg (by simpa [hstem] using hdots)

theorem splitExtension_stem {name : List Char} (hne : name ≠ []) :
    (splitExtension name).1 ≠ [] ∧ ∀ c ∈ (splitExtension name).1, c ∈ name := by
  unfold splitExtension
  dsimp only
  split
  · exact ⟨hne, fun _ h => h⟩
  · rename_i h
    simp only [Bool.or_eq_true, decide_eq_true_eq, List.isEmpty_iff, not_or] at h
    refine ⟨h.2, fun c hc => ?_⟩
    have hc' := List.mem_of_mem_tail (List.mem_reverse.1 hc)
    exact List.mem_reverse.1 ((List.dropWhile_sublist _).subset hc')

end Path

open SceneConvert.Path

structure OutputName where
  dirs : List String
  stem : String
  dirs_names : ∀ d ∈ dirs, IsName d
  stem_ne_empty : stem ≠ ""
  stem_noSlash : '/' ∉ stem.toList

namespace OutputName

def file (o : OutputName) : String := o.stem ++ ".prc"

theorem file_toList (o : OutputName) : o.file.toList = o.stem.toList ++ ['.', 'p', 'r', 'c'] := by
  simp [file]

theorem isName_file (o : OutputName) : IsName o.file := by
  have hlength : 4 < o.file.toList.length := by
    have hstem : 0 < o.stem.toList.length :=
      List.length_pos_iff.2 fun h => o.stem_ne_empty (String.toList_inj.1 h)
    rw [file_toList, List.length_append, List.length_cons, List.length_cons, List.length_cons,
      List.length_singleton]
    omega
  refine ⟨?_, ?_, ?_, ?_⟩
  · rw [file_toList]
    simpa using o.stem_noSlash
  all_goals
    intro h
    rw [h] at hlength
    simp at hlength

def path (o : OutputName) : Path := ofNames (o.dirs ++ [o.file])

theorem names (o : OutputName) : ∀ n ∈ o.dirs ++ [o.file], IsName n :=
  isName_append o.dirs_names o.isName_file

theorem path_inj {o o' : OutputName} (h : o.path = o'.path) :
    o.dirs = o'.dirs ∧ o.stem = o'.stem := by
  have hc := congrArg components h
  rw [path, path, components_ofNames o.names, components_ofNames o'.names] at hc
  have hn := (List.map_inj_right fun _ _ h => by injection h).1 hc
  obtain ⟨hdirs, hfile⟩ := List.append_inj' hn rfl
  simp only [List.cons.injEq, and_true] at hfile
  refine ⟨hdirs, ?_⟩
  have hlists := congrArg String.toList hfile
  rw [file_toList, file_toList] at hlists
  exact String.toList_inj.1 (List.append_cancel_right hlists)

theorem same_path {o o' : OutputName} : o.path.same o'.path = true ↔ o.path = o'.path := by
  constructor
  · intro h
    have hc : o.path.components = o'.path.components := by simpa [same] using h
    rw [path, path, components_ofNames o.names, components_ofNames o'.names] at hc
    have hn := (List.map_inj_right fun _ _ h => by injection h).1 hc
    rw [path, path, hn]
  · intro h
    simp [same, h]

theorem splitExtension_file (o : OutputName) :
    splitExtension o.file.toList = (o.stem.toList, some ['p', 'r', 'c']) := by
  rw [file_toList]
  exact splitExtension_append (fun h => o.stem_ne_empty (String.toList_inj.1 h)) (by simp) (by simp)

theorem stem?_path (o : OutputName) : o.path.stem? = some o.stem := by
  simp only [stem?, path, fileName?_ofNames o.dirs_names o.isName_file, Option.map_some,
    splitExtension_file, String.ofList_toList]

theorem extension?_path (o : OutputName) : o.path.extension? = some "prc" := by
  simp only [extension?, path, fileName?_ofNames o.dirs_names o.isName_file, Option.bind_some,
    splitExtension_file, Option.map_some]

theorem not_mem_toString {n : Nat} {c : Char} (hc : c.isDigit = false) :
    c ∉ (toString n).toList := by
  intro h
  rw [Nat.toString_eq_repr, Nat.toList_repr] at h
  rw [Nat.isDigit_of_mem_toDigits (by decide) (by decide) h] at hc
  cases hc

theorem toString_inj {m n : Nat} (h : (toString m).toList = (toString n).toList) : m = n := by
  have hnumber := congrArg (Nat.ofDigitChars 10 · 0) h
  simpa only [Nat.toString_eq_repr, Nat.toList_repr, Nat.ofDigitChars_ten_toDigits] using hnumber

def numbered (o : OutputName) (n : Nat) : OutputName where
  dirs := o.dirs
  stem := o.stem ++ "_" ++ toString n
  dirs_names := o.dirs_names
  stem_ne_empty := by simp [o.stem_ne_empty]
  stem_noSlash := by
    have hdigits : '/' ∉ (toString n).toList := not_mem_toString (by decide)
    simp only [String.toList_append, List.mem_append, not_or]
    exact ⟨⟨o.stem_noSlash, by decide⟩, hdigits⟩

theorem numbered_path (o : OutputName) (n : Nat) : o.path.numbered n = (o.numbered n).path := by
  have hname := fileName?_ofNames o.dirs_names o.isName_file
  have hparent := parent?_ofNames o.dirs_names o.isName_file
  have hjoin := join_ofNames o.dirs_names (o.numbered n).isName_file
  unfold Path.numbered withFileName
  rw [stem?_path, extension?_path]
  simp only [path, hname, hparent, Option.isSome_some, ↓reduceIte, Option.getD_some]
  exact hjoin

theorem append_cons_inj {β : Type} {c : β} {l l' r r' : List β} (hr : c ∉ r) (hr' : c ∉ r')
    (h : l ++ c :: r = l' ++ c :: r') : l = l' ∧ r = r' := by
  rcases List.append_eq_append_iff.1 h with ⟨as, hl, hc⟩ | ⟨as, hl, hc⟩
  · cases as with
    | nil => simp_all
    | cons a as => simp_all
  · cases as with
    | nil => simp_all
    | cons a as => simp_all

/-- Numbers never make two names of different origin the same. -/
theorem eq_of_numbered {o o' : OutputName} {i j : Nat}
    (h : (o.numbered i).path = (o'.numbered j).path) : o.path = o'.path ∧ i = j := by
  obtain ⟨hdirs, hstem⟩ := path_inj h
  have hlists := congrArg String.toList hstem
  simp only [numbered, String.toList_append, List.append_assoc] at hlists
  obtain ⟨hstems, hdigits⟩ :=
    append_cons_inj (not_mem_toString (by decide)) (not_mem_toString (by decide)) hlists
  have hfile : o.file = o'.file := by rw [file, file, String.toList_inj.1 hstems]
  refine ⟨?_, toString_inj hdigits⟩
  rw [path, path, hfile]
  exact congrArg (fun ds => ofNames (ds ++ [o'.file])) hdirs

def ofName (ds : List String) (n : String) (hds : ∀ d ∈ ds, IsName d) (hn : IsName n) :
    OutputName where
  dirs := ds
  stem := String.ofList (splitExtension n.toList).1
  dirs_names := hds
  stem_ne_empty := by
    simpa using (splitExtension_stem fun h => hn.ne_empty (String.toList_inj.1 h)).1
  stem_noSlash := by
    rw [String.toList_ofList]
    intro h
    have hsub := (splitExtension_stem fun h => hn.ne_empty (String.toList_inj.1 h)).2
    exact hn.noSlash (hsub _ h)

theorem withExtension_ofNames {ds : List String} {n : String} (hds : ∀ d ∈ ds, IsName d)
    (hn : IsName n) : (ofNames (ds ++ [n])).withExtension "prc" = (ofName ds n hds hn).path := by
  have hext (t : String) : t ++ "." ++ "prc" = t ++ ".prc" := String.append_assoc
  unfold withExtension stem?
  rw [fileName?_ofNames hds hn, parent?_ofNames hds hn]
  simp only [Option.map_some, Option.getD_some, hext]
  exact join_ofNames hds (ofName ds n hds hn).isName_file

theorem exists_outputFor (p base : Path) : ∃ o : OutputName, p.outputFor base = o.path := by
  unfold outputFor
  extract_lets names names'
  have hnames : ∀ n ∈ names, IsName n := by
    intro n hn
    unfold names at hn
    split at hn
    · rename_i cs hcs
      unfold below? at hcs
      split at hcs
      · cases hcs
        obtain ⟨c, hc, hcn⟩ := List.mem_filterMap.1 hn
        cases c <;> cases hcn
        exact isName_of_mem_components (List.mem_of_mem_drop hc)
      · cases hcs
    · exact isName_of_fileName? (Option.mem_toList.1 hn)
  have hnames' : ∀ n ∈ names', IsName n := by
    intro n hn
    unfold names' at hn
    split at hn
    · rw [List.mem_singleton.1 hn]
      exact ⟨by decide, by decide, by decide, by decide⟩
    · exact hnames n hn
  have hne : names' ≠ [] := by
    unfold names'
    split
    · simp
    · rename_i h
      simpa using h
  rw [← List.dropLast_concat_getLast hne] at hnames' ⊢
  exact ⟨_, withExtension_ofNames (fun d hd => hnames' d (List.mem_append_left _ hd))
    (hnames' _ (by simp))⟩

theorem exists_mainOutput (ctx : Context) : ∃ o : OutputName, ctx.mainOutput = o.path := by
  have hpath (o : OutputName) (h : o.dirs = []) : (⟨o.file⟩ : Path) = o.path := by
    apply ext_toList
    rw [path, h, text_ofNames]
    rfl
  unfold Context.mainOutput stem?
  cases hname : ctx.input.fileName? with
  | none => exact ⟨_, hpath ⟨[], "scene", by simp, by decide, by decide⟩ rfl⟩
  | some n => exact ⟨_, hpath (ofName [] n (by simp) (isName_of_fileName? hname)) rfl⟩

end OutputName

theorem Counter.name_inj {c : Counter} {m n : Nat} (h : c.name m = c.name n) : m = n :=
  OutputName.toString_inj (congrArg String.toList ((String.append_right_inj _).1 h))

end SceneConvert
