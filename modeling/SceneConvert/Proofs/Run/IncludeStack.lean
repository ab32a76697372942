import Mathlib.Data.List.Dedup
import Mathlib.Data.List.Perm.Subperm
import SceneConvert.Proofs.Files.Resolve
import SceneConvert.Proofs.Run.History
import SceneConvert.Proofs.Run.Inclusion

/-!
# SceneConvert.Proofs.Run.IncludeStack

The files that are being converted at a moment of a run.

* `Context.included?`: the place of the file that an include directive names.
* `Context.Converting`: the input and the files included from it, none of them twice.
  `Converting.length_le`: so there are no more of them than files, and one.
* `Inclusion.exists_path_of_included`: what an include of a file comes to.
* `Runs.converting`: no run enters a file that is being converted.
* `State.includes_end`: runs end; includes that would go in circles are reported, others are entered.
-/

namespace SceneConvert

open FileTree

namespace Context

/-- The place of the file that a directive of `source` includes. -/
def included? (ctx : Context) (source : Path) (st : Statement) : Option Place :=
  st.text?.bind fun name => ctx.files.includedPlace? source name ctx.includeRoot

/-- The files as a reader of the file at `place` finds them when the journal of the conversion is
`journal`. -/
def filesAt (ctx : Context) (journal : Journal) (place : Place) : FileTree :=
  match ctx.log with
  | some log =>
    if place = log.place then ctx.files.extend place (journal.text log.level).toUTF8 else ctx.files
  | none => ctx.files

theorem filesFor_eq {ctx : Context} {p : Path} {place : Place} (h : ctx.files.locate p = .ok place)
    (journal : Journal) : ctx.filesFor journal p = ctx.filesAt journal place := by
  unfold filesFor filesAt
  rw [h]
  cases ctx.log <;> rfl

theorem filesFor_cases (ctx : Context) (journal : Journal) (p : Path) :
    ctx.filesFor journal p = ctx.files ∨
      ∃ place more, ctx.filesFor journal p = ctx.files.extend place more := by
  unfold filesFor
  split
  · split
    · exact .inr ⟨_, _, rfl⟩
    · exact .inl rfl
  · exact .inl rfl

theorem locate_filesFor (ctx : Context) (journal : Journal) (p q : Path) :
    (ctx.filesFor journal p).locate q = ctx.files.locate q := by
  obtain h | ⟨place, more, h⟩ := ctx.filesFor_cases journal p
  · rw [h]
  · rw [h, locate_extend]

theorem filePlaces_filesFor (ctx : Context) (journal : Journal) (p : Path) :
    (ctx.filesFor journal p).filePlaces = ctx.files.filePlaces := by
  obtain h | ⟨place, more, h⟩ := ctx.filesFor_cases journal p
  · rw [h]
  · rw [h, filePlaces_extend]

theorem absolute_filesFor {ctx : Context} {p : Path} {place : Place}
    (h : ctx.files.locate p = .ok place) (journal : Journal) :
    (ctx.filesFor journal p).absolute p = pathOf place := by
  rw [absolute, locate_filesFor, h]

/-- What a conversion of the input is converting: the input and the files at `places`, which were
included one from the other, the last one first. -/
structure Converting (ctx : Context) (places : List Place) (stack : List Path) : Prop where
  stack_eq : stack = places.map pathOf ++ [ctx.files.absolute ctx.input]
  isFile : ∀ place ∈ places, place ∈ ctx.files.filePlaces
  located : ∀ place ∈ places, ∃ p, ctx.files.locate p = .ok place
  nodup : stack.Nodup

namespace Converting

variable {ctx : Context} {places : List Place} {stack : List Path}

theorem begin (ctx : Context) : ctx.Converting [] [ctx.files.absolute ctx.input] where
  stack_eq := rfl
  isFile := by simp
  located := by simp
  nodup := by simp

theorem enter (h : ctx.Converting places stack) {place : Place} {p : Path}
    (hfile : place ∈ ctx.files.filePlaces) (hlocate : ctx.files.locate p = .ok place)
    (hfresh : pathOf place ∉ stack) :
    ctx.Converting (place :: places) (pathOf place :: stack) where
  stack_eq := by rw [h.stack_eq, List.map_cons, List.cons_append]
  isFile := List.forall_mem_cons.2 ⟨hfile, h.isFile⟩
  located := List.forall_mem_cons.2 ⟨⟨p, hlocate⟩, h.located⟩
  nodup := List.nodup_cons.2 ⟨hfresh, h.nodup⟩

theorem nodup_places (h : ctx.Converting places stack) : places.Nodup := by
  have hpaths := h.nodup
  rw [h.stack_eq] at hpaths
  exact (List.nodup_append.1 hpaths).1.of_map

/-- There are no more files being converted than files, and the input. -/
theorem length_le (h : ctx.Converting places stack) :
    stack.length ≤ ctx.files.filePlaces.dedup.length + 1 := by
  have hplaces : places.length ≤ ctx.files.filePlaces.dedup.length :=
    (h.nodup_places.subperm fun place hp => List.mem_dedup.2 (h.isFile place hp)).length_le
  rw [h.stack_eq, List.length_append, List.length_map]
  exact Nat.succ_le_succ hplaces

theorem mem_stack_iff (h : ctx.Converting places stack)
    (hdir : ∀ n ∈ ctx.files.workingDirectory, Path.IsName n) {home place : Place} {p : Path}
    (hhome : ctx.files.locate ctx.input = .ok home) (hlocate : ctx.files.locate p = .ok place) :
    pathOf place ∈ stack ↔ place ∈ places ∨ place = home := by
  have hname := isName_of_locate hdir hlocate
  have hinput : ctx.files.absolute ctx.input = pathOf home := by rw [absolute, hhome]
  rw [h.stack_eq, hinput, List.mem_append, List.mem_singleton, List.mem_map]
  refine or_congr ⟨?_, fun hp => ⟨place, hp, rfl⟩⟩
    ⟨pathOf_inj hname (isName_of_locate hdir hhome), congrArg pathOf⟩
  rintro ⟨q, hq, hpath⟩
  obtain ⟨_, hq'⟩ := h.located q hq
  exact pathOf_inj (isName_of_locate hdir hq') hname hpath ▸ hq

end Converting

end Context

def FileTree.textAt? (t : FileTree) (place : Place) : Option String :=
  match t.node? place with
  | some (.file content) => String.fromUTF8? content
  | _ => none

theorem FileTree.readText_of_textAt? {t : FileTree} {p : Path} {place : Place} {text : String}
    (h : t.locate p = .ok place) (htext : t.textAt? place = some text) : t.readText p = .ok text := by
  unfold textAt? at htext
  split at htext
  · rename_i content hnode
    simp [readText, read, find, h, hnode, Except.bind, htext]
  · cases htext

namespace Inclusion

variable {α : Type}

/-- An include finds its file, and is refused if the file is being converted. If not, it enters the file,
or mentions it where it was converted before and is not to be converted again. -/
theorem exists_path_of_included {ctx : Context} {source : Path} {st : Statement} {place : Place}
    (h : ctx.included? source st = some place) :
    ∃ path, ctx.files.locate path = .ok place ∧ ∀ (stack : List Path) (s : State α),
      (pathOf place ∈ stack → ofStatement ctx stack s source st = .error (.includeRecursive path)) ∧
      (pathOf place ∉ stack →
        (∀ output, ctx.options.skipRepeatedIncludes = true →
          s.included.get? (pathOf place) = some output →
          ofStatement ctx stack s source st = .ok (.repeated path output)) ∧
        ((ctx.options.skipRepeatedIncludes = true → s.included.get? (pathOf place) = none) →
          ∀ text, (ctx.filesAt s.journal place).textAt? place = some text →
            ofStatement ctx stack s source st = .ok (.enter ⟨path, pathOf place, text⟩))) := by
  obtain ⟨name, hname, hplace⟩ := Option.bind_eq_some_iff.1 h
  rw [includedPlace?_eq] at hplace
  obtain ⟨path, hpath, hfile⟩ := Option.bind_eq_some_iff.1 hplace
  have hlocate := locate_of_filePlace? hfile
  refine ⟨path, hlocate, fun stack s => ?_⟩
  have hkey := Context.absolute_filesFor hlocate s.journal
  refine ⟨fun hmem => ?_, fun hfresh => ⟨fun output hskip hseen => ?_, fun hunseen text htext => ?_⟩⟩
  · simp only [ofStatement, hname, hpath, hkey, if_pos hmem]
  · simp only [ofStatement, hname, hpath, hkey, if_neg hfresh, if_pos hskip, hseen]
  · have hread : (ctx.filesFor s.journal path).readText path = .ok text := by
      rw [← Context.filesFor_eq hlocate] at htext
      exact readText_of_textAt? ((ctx.locate_filesFor ..).trans hlocate) htext
    have hearlier :
        (if ctx.options.skipRepeatedIncludes then s.included.get? (pathOf place) else none) = none := by
      split
      · exact hunseen (by assumption)
      · rfl
    simp only [ofStatement, hname, hpath, hkey, if_neg hfresh, hearlier, hread]

theorem exists_place_of_enter {ctx : Context} {stack : List Path} {s : State α} {source : Path}
    {st : Statement} {file : IncludedFile}
    (h : ofStatement ctx stack s source st = .ok (.enter file)) :
    ∃ place, file.key = pathOf place ∧ ctx.files.locate file.path = .ok place ∧
      place ∈ ctx.files.filePlaces ∧ pathOf place ∉ stack := by
  obtain ⟨hfound, -, hread⟩ := found_of_enter h
  obtain ⟨place, hlocate, hplace⟩ := locate_of_readText hread
  rw [Context.locate_filesFor] at hlocate
  rw [Context.filePlaces_filesFor] at hplace
  have hkey : file.key = pathOf place :=
    hfound.absolute.trans (Context.absolute_filesFor hlocate s.journal)
  exact ⟨place, hkey, hlocate, hplace, hkey ▸ hfound.fresh⟩

theorem converting_of_enter {ctx : Context} {places : List Place} {stack : List Path}
    (hstack : ctx.Converting places stack) {s : State α} {source : Path} {st : Statement}
    {file : IncludedFile} (h : ofStatement ctx stack s source st = .ok (.enter file)) :
    ∃ place, ctx.Converting (place :: places) (file.key :: stack) := by
  obtain ⟨place, hkey, hlocate, hfile, hfresh⟩ := exists_place_of_enter h
  exact ⟨place, hkey ▸ hstack.enter hfile hlocate hfresh⟩

end Inclusion

/-- A run that begins with files of which none is converted twice never converts one twice. -/
theorem Runs.converting {α : Type} [Scalar α] {ctx : Context} {source : Path} {stack : List Path}
    {events : List Event} {s t : State α} {ms : List (Moment α)}
    (h : Runs ctx source stack events s ms t) {places : List Place}
    (hstack : ctx.Converting places stack) : ∀ m ∈ ms, ∃ places, ctx.Converting places m.stack := by
  induction h generalizing places with
  | nil | halted => simp
  | tick _ _ _ ih => exact List.forall_mem_cons.2 ⟨⟨places, hstack⟩, ih hstack⟩
  | enter _ _ hi _ _ ihwithin ih =>
    obtain ⟨place, hinner⟩ := Inclusion.converting_of_enter hstack hi
    refine List.forall_mem_cons.2 ⟨⟨places, hstack⟩, fun m hm => ?_⟩
    exact (List.mem_append.1 hm).elim (ihwithin hinner m) (ih hstack m)

/-- What becomes of an include of the file at `place`, while the input and the files at `places` are
being converted. -/
structure Context.Includes (α : Type) [Scalar α] (ctx : Context) (places : List Place)
    (stack : List Path) (source : Path) (st : Statement) (place : Place) (path : Path) : Prop where
  locate : ctx.files.locate path = .ok place
  /-- However it is spelled, a file is found on the stack exactly if it is being converted. -/
  found : (∀ n ∈ ctx.files.workingDirectory, Path.IsName n) →
    ∀ home, ctx.files.locate ctx.input = .ok home →
      (pathOf place ∈ stack ↔ place ∈ places ∨ place = home)
  refused : pathOf place ∈ stack → ∀ (events : List Event) (s : State α), s.halted = false →
    s.run ctx source stack (.statement st :: events) =
      State.run ctx source stack events
        { s with
          journal := s.journal.push
            (.report ⟨.io, some source, some st.line, (Problem.includeRecursive path).message⟩)
          location := (source, st.line) }
  entered : pathOf place ∉ stack → ∀ (events : List Event) (s : State α), s.halted = false →
    (ctx.options.skipRepeatedIncludes = true → s.included.get? (pathOf place) = none) →
    ∀ text, (ctx.filesAt s.journal place).textAt? place = some text →
      let before := s.moveTo source st.line
      let file : IncludedFile := ⟨path, pathOf place, text⟩
      s.run ctx source stack (.statement st :: events) =
        State.run ctx source stack events
          (((before.enterFile ctx file).2.run ctx path (pathOf place :: stack)
            (Event.ofText ctx.options.collapseLists text)).leaveFile before file
              (before.enterFile ctx file).1)

theorem Context.Converting.includes {α : Type} [Scalar α] {ctx : Context} {places : List Place}
    {stack : List Path} (hstack : ctx.Converting places stack) {source : Path} {st : Statement}
    {place : Place} (hst : Action.ofWord st.word = .include_)
    (hplace : ctx.included? source st = some place) :
    ∃ path, ctx.Includes α places stack source st place path := by
  obtain ⟨path, hlocate, hincluded⟩ := Inclusion.exists_path_of_included (α := α) hplace
  refine ⟨path, hlocate, fun hdir home hhome => hstack.mem_stack_iff hdir hhome hlocate,
    fun hmem events s hs => ?_, fun hfresh events s hs hunseen text htext => ?_⟩
  · exact State.run_include_error hs hst ((hincluded stack _).1 hmem)
  · exact State.run_include_enter hs hst (((hincluded stack _).2 hfresh).2 hunseen text htext)

/-- Every run ends, however its files include each other, and never converts a file that it is converting
already: there are at most as many at a time as there are files, and the input. An include of one of
them is reported and does nothing else; an include of any other file that has a text enters it, unless
it was converted before and is not to be converted again. -/
theorem State.includes_end (α : Type) [Scalar α] (ctx : Context) :
    (∀ (source : Path) (text : String) (s : State α),
      let Reads := Runs ctx source [ctx.files.absolute ctx.input]
        (Event.ofText ctx.options.collapseLists text) s
      (∃ ms, Reads ms (s.read ctx source text)) ∧
      ∀ ms t, Reads ms t → t = s.read ctx source text ∧
        ∀ m ∈ ms, ∃ places, ctx.Converting places m.stack) ∧
    ∀ places stack, ctx.Converting places stack →
      stack.Nodup ∧ stack.length ≤ ctx.files.filePlaces.dedup.length + 1 ∧
      (∀ (source : Path) (st : Statement) (s : State α) (file : IncludedFile),
        Inclusion.ofStatement ctx stack s source st = .ok (.enter file) →
        ∃ place, ctx.Converting (place :: places) (file.key :: stack)) ∧
      ∀ (source : Path) (st : Statement) (place : Place), Action.ofWord st.word = .include_ →
        ctx.included? source st = some place →
        ∃ path, ctx.Includes α places stack source st place path := by
  refine ⟨fun source text s => ⟨exists_runs ctx source _ _ s, fun ms t hruns => ?_⟩,
    fun places stack hstack => ⟨hstack.nodup, hstack.length_le, ?_, ?_⟩⟩
  · exact ⟨hruns.eq_run, hruns.converting (.begin ctx)⟩
  · exact fun source st s file hi => Inclusion.converting_of_enter hstack hi
  · exact fun source st place hst hplace => hstack.includes hst hplace

/-- A scene file that includes itself under another name. -/
def Context.circular : Context where
  options := {}
  files := ⟨[(["scene.pbrt"], .file "Include \"parts/../scene.pbrt\"".toUTF8),
    (["parts"], .directory)], []⟩
  includeRoot := ⟨"/"⟩
  input := ⟨"scene.pbrt"⟩

set_option maxRecDepth 1000 in
theorem events_circular : Event.ofText true "Include \"parts/../scene.pbrt\"" =
    [.statement ⟨1, "Include", some (.text "parts/../scene.pbrt"), ⟨[]⟩⟩] := by
  with_unfolding_all rfl

/-- One report, and nothing else. -/
theorem State.includes_end_circular :
    ∃ path, Context.circular.files.locate path = .ok ["scene.pbrt"] ∧
      ∀ s : State Float32, s.halted = false →
        s.read Context.circular Context.circular.input "Include \"parts/../scene.pbrt\"" =
          { s with
            journal := s.journal.push (.report ⟨.io, some Context.circular.input, some 1,
              (Problem.includeRecursive path).message⟩)
            location := (Context.circular.input, 1) } := by
  obtain ⟨-, hstacks⟩ := includes_end Float32 Context.circular
  obtain ⟨-, -, -, hincludes⟩ := hstacks [] _ (.begin Context.circular)
  obtain ⟨path, hpath⟩ := hincludes Context.circular.input
    ⟨1, "Include", some (.text "parts/../scene.pbrt"), ⟨[]⟩⟩ ["scene.pbrt"] (by decide) (by decide)
  refine ⟨path, hpath.locate, fun s hs => ?_⟩
  rw [read, show Context.circular.options.collapseLists = true from rfl, events_circular,
    hpath.refused (by decide) [] s hs, run_nil]

end SceneConvert
