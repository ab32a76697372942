import SceneConvert.Proofs.Run.Levels
import SceneConvert.Proofs.Run.References
import SceneConvert.Proofs.Survey.Lessens

/-!
# SceneConvert.Proofs.Run.Skipping

Turning on a switch only removes problems.

* `Lockstep`: a state of a conversion with the switch turned on, and the state of the one without it at
  the same place.
* `Lockstep.apply`, `Lockstep.run`: the two conversions stay in step.
* `Conversion.skipping_lessens`: so the diagnostics are among those of the conversion without the
  switch. Only where textures are left out, references to them are reported.
-/

namespace SceneConvert

variable {α : Type} [Scalar α] {ctx : Context} {w : Omission}

/-- The diagnostics that the switch has nothing to do with. -/
def Omission.rest (w : Omission) (ds : List Diagnostic) : List Diagnostic := ds.filter fun d => !w.brings d

omit [Scalar α] in
theorem Omission.rest_append (w : Omission) (ds es : List Diagnostic) :
    w.rest (ds ++ es) = w.rest ds ++ w.rest es := List.filter_append ..

omit [Scalar α] in
theorem Omission.rest_reports (w : Omission) (source : Path) (line : Nat) (ps : List Problem) :
    w.rest (Problem.reports source line ps) = Problem.reports source line (ps.filter w.keeps) :=
  List.filter_map

/-- Two states at the same place: `on` where the switch is turned on, `off` where it is not. -/
structure Lockstep (w : Omission) (on off : State α) : Prop where
  core : on.core w = off.core w
  declares : (off.core w).Declares
  goesOn : on.halted = false
  sparser : on.Sparser off
  diagnostics : (w.rest on.diagnostics).Sublist (w.rest off.diagnostics)

namespace Lockstep

variable {on off : State α} (h : Lockstep w on off)

include h

omit [Scalar α] in
theorem moveTo (source : Path) (line : Nat) :
    Lockstep w (on.moveTo source line) (off.moveTo source line) :=
  ⟨congrArg (fun c => { c with location := (source, line) }) h.core, h.declares, h.goesOn,
    h.sparser.of_outline rfl rfl, h.diagnostics⟩

omit [Scalar α] in
theorem note (n : Note) : Lockstep w (on.note n) (off.note n) := by
  refine ⟨h.core, h.declares, h.goesOn, h.sparser.of_outline rfl rfl, ?_⟩
  rw [State.diagnostics_note, State.diagnostics_note, Omission.rest_append, Omission.rest_append]
  exact h.diagnostics.append (.refl _)

omit [Scalar α] in
theorem reportProblem (p : Problem) : Lockstep w (on.reportProblem p) (off.reportProblem p) := by
  have hlocation : on.location = off.location := congrArg Core.location h.core
  unfold State.reportProblem
  rw [hlocation]
  exact h.note _

omit [Scalar α] in
theorem inclusion (hlog : ctx.log = none) (stack : List Path) (source : Path) (st : Statement) :
    Inclusion.ofStatement (ctx.skipping w) stack on source st =
      Inclusion.ofStatement ctx stack off source st := by
  have hincluded : on.included = off.included := congrArg Core.included h.core
  have hlog' : (ctx.skipping w).log = none := hlog
  unfold Inclusion.ofStatement
  simp only [Context.filesFor_of_log hlog, Context.filesFor_of_log hlog', hincluded,
    Context.skipping_options, Options.skipRepeatedIncludes_skipping]
  rfl

omit [Scalar α] in
theorem mention (path : Path) (output : Option Path) :
    Lockstep w (on.mention path output) (off.mention path output) := by
  cases output with
  | none => exact h.note _
  | some output =>
    have hremark := h.note (.remark (.includeRepeated path))
    exact ⟨hremark.core, hremark.declares, hremark.goesOn, hremark.sparser.write (.include_ output),
      hremark.diagnostics⟩

omit [Scalar α] in
theorem enterFile (ctx : Context) (file : IncludedFile) :
    (on.enterFile (ctx.skipping w) file).1 = (off.enterFile ctx file).1 ∧
      Lockstep w (on.enterFile (ctx.skipping w) file).2 (off.enterFile ctx file).2 := by
  have hremark := h.note (.remark (.including file.path))
  have houtputs : (on.remark (.including file.path)).outputNames =
      (off.remark (.including file.path)).outputNames := congrArg Core.outputNames h.core
  have hbase : file.key.outputFor (ctx.skipping w).inputDirectory =
      file.key.outputFor ctx.inputDirectory := rfl
  unfold State.enterFile
  rw [Context.skipping_options, Options.singleFile_skipping]
  split
  · exact ⟨rfl, hremark⟩
  · let base := file.key.outputFor ctx.inputDirectory
    let named (c : Core α) : Core α :=
      { c with outputNames := c.outputNames.set base ((c.outputNames.get? base).getD 0 + 1) }
    have hcore := congrArg named hremark.core
    have hpage := hremark.sparser.onPage (id : 0 = 0 → 0 = 0)
    refine ⟨?_, hcore, hremark.declares, hremark.goesOn, hpage.of_outline rfl rfl, hremark.diagnostics⟩
    simp only [State.takeOutput, hbase, houtputs]

omit [Scalar α] in
theorem leaveFile {before before' : State α} (hbefore : Lockstep w before before') (file : IncludedFile)
    (output : Option Path) :
    Lockstep w (on.leaveFile before file output) (off.leaveFile before' file output) := by
  have hlocation : before.location = before'.location := congrArg Core.location hbefore.core
  have hincluded : on.included = off.included := congrArg Core.included h.core
  have hcore : (on.leaveFile before file output).core w = (off.leaveFile before' file output).core w := by
    refine Eq.trans (b := { on.core w with
      location := before'.location, included := off.included.set file.key output }) ?_ ?_
    · cases output <;> simp only [State.leaveFile, State.core, State.write, hlocation, hincluded]
    · rw [h.core]
      cases output <;> rfl
  cases output with
  | none => exact ⟨hcore, h.declares, h.goesOn, h.sparser.of_outline rfl rfl, h.diagnostics⟩
  | some output =>
    have hwritten := (h.sparser.onPage hbefore.sparser.depth).write (.include_ output)
    exact ⟨hcore, h.declares, h.goesOn, hwritten.of_outline rfl rfl, h.diagnostics⟩

theorem apply (hlog : ctx.log = none) {source : Path} {st : Statement}
    (hend : (off.apply ctx source st).halted = false) :
    Lockstep w (on.apply (ctx.skipping w) source st) (off.apply ctx source st) := by
  have hmoved := h.moveTo source st.line
  have hless : Survey.Less w (on.survey (ctx.skipping w) source st) (off.survey ctx source st) :=
    Verdict.lessens_ofStatement hmoved.core hlog hmoved.sparser.recorded source st st.parameters _ _
  have hjudged : (off.survey ctx source st).1 ≠ .error .overflow := by
    intro hoverflow
    rw [(State.halted_apply ctx source off st).2 (.inr hoverflow)] at hend
    cases hend
  have hdeclares : (on.core w).Declares := by rw [h.core]; exact h.declares
  have hopen : on.openObject = off.openObject := congrArg Core.openObject h.core
  have hworld : ctx.options.skipWorld = true → (ctx.skipping w).options.skipWorld = true :=
    Options.skipWorld_skipping w
  refine ⟨?_, ?_, ?_, ?_, ?_⟩
  · rw [State.core_apply _ _ hdeclares, State.core_apply _ _ h.declares, hmoved.core]
    exact hless.effect hjudged (off.moveTo source st.line)
  · rw [State.core_apply _ _ h.declares]
    exact hmoved.declares.behind _
  · rw [← Bool.not_eq_true, State.halted_apply]
    rintro (hhalted | hoverflow)
    · rw [h.goesOn] at hhalted
      cases hhalted
    · exact hless.goesOn hjudged hoverflow
  · exact h.sparser.apply hworld hopen source st hless.sampled (hless.imprint hjudged)
  · rw [State.diagnostics_apply, State.diagnostics_apply, Omission.rest_append, Omission.rest_append,
      Omission.rest_reports, Omission.rest_reports]
    exact h.diagnostics.append (hless.problems.map _)

end Lockstep

theorem State.not_halted_of_run {source : Path} {stack : List Path} {events : List Event} {s : State α}
    (hend : (s.run ctx source stack events).halted = false) : s.halted = false := by
  cases hs : s.halted with
  | false => rfl
  | true => rwa [State.run_of_halted hs, hs] at hend

/-- The two conversions stay in step, unless the one without the switch is halted. -/
theorem Lockstep.run (hlog : ctx.log = none) {source : Path} {stack : List Path} {events : List Event}
    {on off : State α} (h : Lockstep w on off)
    (hend : (off.run ctx source stack events).halted = false) :
    Lockstep w (on.run (ctx.skipping w) source stack events) (off.run ctx source stack events) := by
  revert hend
  fun_induction State.run ctx source stack events off generalizing on with
  | case1 source stack off => exact fun _ => by simpa using h
  | case2 source stack off event events hs => exact fun hend => by simp [hs] at hend
  | case3 source stack off events hs f ih =>
    intro hend
    rw [State.run_fault h.goesOn]
    exact ih (h.note _) hend
  | case4 source stack off events hs st hst moved p hi =>
    rename_i ih
    intro hend
    have hmoved := h.moveTo source st.line
    rw [State.run_include_error h.goesOn hst ((hmoved.inclusion hlog stack source st).trans hi)]
    exact ih (hmoved.reportProblem p) hend
  | case5 source stack off events hs st hst moved path output hi =>
    rename_i ih
    intro hend
    have hmoved := h.moveTo source st.line
    rw [State.run_include_repeated h.goesOn hst ((hmoved.inclusion hlog stack source st).trans hi)]
    exact ih (hmoved.mention path output) hend
  | case6 source stack off events hs st hst moved file hi output inner henter text =>
    rename_i ihinner ih
    intro hend
    have hmoved := h.moveTo source st.line
    obtain ⟨houtput, hentered⟩ := hmoved.enterFile ctx file
    obtain ⟨rfl, rfl⟩ : (moved.enterFile ctx file).1 = output ∧ (moved.enterFile ctx file).2 = inner :=
      Prod.ext_iff.1 henter
    rw [State.run_include_enter h.goesOn hst ((hmoved.inclusion hlog stack source st).trans hi), houtput,
      Context.skipping_options, Options.collapseLists_skipping]
    have hleft := State.not_halted_of_run hend
    rw [State.halted_leaveFile] at hleft
    exact ih ((ihinner hentered hleft).leaveFile hmoved file _) hend
  | case7 source stack off events hs st hst ih =>
    intro hend
    have happly := State.not_halted_of_run hend
    rw [State.run_apply h.goesOn hst]
    exact ih (h.apply hlog happly) hend

theorem Lockstep.opening (ctx : Context) (w : Omission) (scene : Scene) :
    Lockstep w (scene.opening (α := α) (ctx.skipping w)) (scene.opening ctx) := by
  have hsparser : (State.opening (α := α) (ctx.skipping w)).Sparser (State.opening ctx) := by
    refine ⟨fun hdepth => ?_, fun _ _ => rfl, fun _ => ⟨fun w hw => ?_, rfl⟩⟩
    · have hdepth' : ctx.mainDepth = 0 := hdepth
      have hworld : ctx.options.skipWorld = true := by simpa [Context.mainDepth] using hdepth'
      have hon : (ctx.skipping w).mainDepth = 0 := if_pos (Options.skipWorld_skipping w hworld)
      exact hon
    · cases Array.not_mem_empty w hw
  cases scene with
  | text t => exact ⟨rfl, nofun, rfl, hsparser.of_outline rfl rfl, .refl _⟩
  | input => exact ⟨rfl, nofun, rfl, hsparser.of_outline rfl rfl, .refl _⟩

namespace Lockstep

variable {on off : State α} (h : Lockstep w on off)

include h

omit [Scalar α] in
theorem closeObject : Lockstep w on.closeObject off.closeObject := by
  have hopen : on.openObject = off.openObject := congrArg Core.openObject h.core
  cases ho : off.openObject with
  | none => simpa only [State.closeObject, hopen, ho] using h
  | some o =>
    have hdeclares : Core.Declares { off.core w with openObject := none } := by
      rintro o ⟨⟩
    have hclosed : Lockstep w { on with openObject := none } { off with openObject := none } :=
      ⟨congrArg (fun c => { c with openObject := none }) h.core, hdeclares, h.goesOn,
        h.sparser.of_outline rfl rfl, h.diagnostics⟩
    simpa only [State.closeObject, hopen, ho] using hclosed.reportProblem (.objectOpen o.name)

omit [Scalar α] in
theorem writeCamera : Lockstep w on.writeCamera off.writeCamera := by
  have hcore (s : State α) : s.writeCamera.core w = s.core w := by
    unfold State.writeCamera
    split <;> rfl
  refine ⟨by rw [hcore, hcore, h.core], by rw [hcore]; exact h.declares, ?_, h.sparser.writeCamera, ?_⟩
  · exact (congrArg (fun a => a.2.2) (State.aside_writeCamera on)).trans h.goesOn
  · rw [State.diagnostics, State.diagnostics, State.journal_writeCamera, State.journal_writeCamera]
    exact h.diagnostics

omit [Scalar α] in
theorem finish (hend : off.halted = false) : Lockstep w on.finish off.finish := by
  unfold State.finish
  rw [h.goesOn, hend]
  exact h.closeObject.writeCamera

end Lockstep

theorem Lockstep.ofScene (hlog : ctx.log = none) {scene : Scene} {off : State α}
    (hoff : State.ofScene ctx scene = .ok off) (hend : off.halted = false) :
    ∃ on, State.ofScene (ctx.skipping w) scene = .ok on ∧ Lockstep w on off := by
  obtain ⟨text, htext, rfl⟩ := State.exists_read_of_ofScene hoff
  have hcontent : scene.content (ctx.skipping w) = .ok text := htext
  rw [State.halted_finish] at hend
  refine ⟨_, by rw [State.ofScene_eq, hcontent]; rfl, Lockstep.finish ?_ hend⟩
  unfold State.read at hend ⊢
  rw [Context.skipping_options, Options.collapseLists_skipping]
  exact (Lockstep.opening ctx w scene).run hlog hend

/-- A conversion that wrote nothing indented has no camera, which it would have written. -/
theorem State.plain_ofScene {scene : Scene} {s : State α} (hs : ofScene ctx scene = .ok s)
    (hend : s.halted = false) (hflat : ∀ w ∈ s.written, w.isIndented = false) : s.Plain := by
  obtain ⟨text, -, rfl⟩ := exists_read_of_ofScene hs
  rw [halted_finish] at hend
  exact plain_finish hend hflat

namespace Conversion

/-- With a switch turned on, a scene that is converted to the end still is. What is reported then is
reported without the switch too, except that where textures are left out, references to them are
reported as undeclared. Where this is not the case, a scene without any diagnostics has none, and
refers to nothing that is missing. -/
theorem skipping_lessens {options : Options} {files : FileTree} {input : Path} {scene : Scene}
    {s : State Float32} {c : Conversion} (w : Omission)
    (hs : State.ofScene (Context.of options files input) scene = .ok s)
    (hc : ending (Context.of options files input) s = .ok c) :
    ∃ s' c', State.ofScene (Context.of (options.skipping w) files input) scene = .ok s' ∧
      ending (Context.of (options.skipping w) files input) s' = .ok c' ∧
      (w.rest c'.diagnostics).Sublist c.diagnostics ∧
      ((w = .textures → ∀ d ∈ c'.diagnostics, d.missesTexture = false) →
        c'.diagnostics.Sublist c.diagnostics ∧
        (c.diagnostics = [] → c'.diagnostics = [] ∧ Complete s' c')) := by
  let ctx := Context.of options files input
  have hctx : Context.of (options.skipping w) files input = ctx.skipping w := by cases w <;> rfl
  rw [hctx]
  have hlog : ctx.log = none := rfl
  obtain ⟨hstopped, rfl⟩ := ending_eq_ok.1 hc
  obtain ⟨hroom, hend⟩ := stopped?_eq_none.1 hstopped
  obtain ⟨s', hs', hlock⟩ := Lockstep.ofScene (w := w) hlog hs hend
  have hroom' (hwide : Indent.maxWidth < (ctx.skipping w).options.indent.width) :
      ∀ x ∈ s'.written, x.isIndented = false := by
    rw [Context.skipping_options, Options.indent_skipping] at hwide
    exact (hlock.sparser.plain (State.plain_ofScene hs hend (hroom hwide))).flat
  have hc' : ending (ctx.skipping w) s' = .ok (ofState (ctx.skipping w) s') :=
    ending_eq_ok.2 ⟨stopped?_eq_none.2 ⟨hroom', hlock.goesOn⟩, rfl⟩
  have hrest : (w.rest s'.diagnostics).Sublist s.diagnostics :=
    hlock.diagnostics.trans List.filter_sublist
  refine ⟨s', _, hs', hc', hrest, fun htextures => ?_⟩
  have hall : w.rest s'.diagnostics = s'.diagnostics := by
    refine List.filter_eq_self.2 fun d hd => ?_
    by_cases hw : w = .textures
    · simp [Omission.brings, htextures hw d hd]
    · simp [Omission.brings, hw]
  rw [hall] at hrest
  refine ⟨hrest, fun hclean => ?_⟩
  have hnone : s'.diagnostics = [] := List.sublist_nil.1 (hclean ▸ hrest)
  exact ⟨hnone, complete_of_silent hs' hc' hnone⟩

theorem State.ofScene_pair {ctx : Context} {text : String} {st st' : Statement}
    (hevents : Event.ofText ctx.options.collapseLists text = [.statement st, .statement st'])
    (hst : Action.ofWord st.word ≠ .include_) (hst' : Action.ofWord st'.word ≠ .include_)
    (h : ((State.opening ctx : State Float32).apply ctx ctx.input st).halted = false) :
    State.ofScene ctx (.text text) =
      .ok (((State.opening ctx : State Float32).apply ctx ctx.input st).apply ctx ctx.input st').finish := by
  rw [State.ofScene, State.ofText, State.read, hevents, State.run_apply rfl hst, State.run_apply h hst',
    State.run_nil]

/-- Without materials it does not matter that one is unknown, but an unknown kind of shape is still
reported. -/
theorem skipping_lessens_material :
    ∃ s c s' c',
      State.ofScene (Context.of {} ⟨[], []⟩ ⟨"/main.pbrt"⟩) (.text "NamedMaterial \"m\" Shape \"cone\"") =
        .ok s ∧
      ending (Context.of {} ⟨[], []⟩ ⟨"/main.pbrt"⟩) s = .ok c ∧
      State.ofScene (Context.of (Options.skipping {} .materials) ⟨[], []⟩ ⟨"/main.pbrt"⟩)
        (.text "NamedMaterial \"m\" Shape \"cone\"") = .ok s' ∧
      ending (Context.of (Options.skipping {} .materials) ⟨[], []⟩ ⟨"/main.pbrt"⟩) s' = .ok c' ∧
      c.diagnostics.length = 2 ∧ c'.diagnostics.length = 1 ∧ c'.diagnostics.Sublist c.diagnostics := by
  let st : Statement := ⟨1, "NamedMaterial", some (.text "m"), .empty⟩
  let st' : Statement := ⟨1, "Shape", some (.text "cone"), .empty⟩
  let ctx := Context.of {} ⟨[], []⟩ ⟨"/main.pbrt"⟩
  let ctx' := Context.of (Options.skipping {} .materials) ⟨[], []⟩ ⟨"/main.pbrt"⟩
  let s : State Float32 := (((State.opening ctx).apply ctx ctx.input st).apply ctx ctx.input st').finish
  let s' : State Float32 := (((State.opening ctx').apply ctx' ctx'.input st).apply ctx' ctx'.input st').finish
  have hevents : Event.ofText true "NamedMaterial \"m\" Shape \"cone\"" =
      [.statement st, .statement st'] := by cbv
  have hs : State.ofScene ctx _ = .ok s :=
    State.ofScene_pair hevents (by decide) (by decide) (by decide +kernel)
  have hs' : State.ofScene ctx' _ = .ok s' :=
    State.ofScene_pair hevents (by decide) (by decide) (by decide +kernel)
  have hc : ending ctx s = .ok (ofState ctx s) := ending_of_narrow (by decide) (by decide +kernel)
  have hc' : ending ctx' s' = .ok (ofState ctx' s') :=
    ending_of_narrow (by decide) (by decide +kernel)
  obtain ⟨on, c', hon, hc'', -, hrest⟩ := skipping_lessens .materials hs hc
  obtain rfl : s' = on := Except.ok.inj (hs'.symm.trans hon)
  obtain rfl : ofState ctx' s' = c' := Except.ok.inj (hc'.symm.trans hc'')
  have hne : Omission.materials ≠ .textures := by decide
  exact ⟨s, _, s', _, hs, hc, hs', hc', by decide +kernel, by decide +kernel, (hrest fun h => absurd h hne).1⟩

/-- Without textures, a reference to one that was declared is reported, and stays in the output. -/
theorem skipping_textures_reports :
    ∃ s c s' c',
      State.ofScene (Context.of {} ⟨[], []⟩ ⟨"/main.pbrt"⟩)
        (.text "Texture \"t\" \"color\" \"constant\" Material \"matte\" \"texture Kd\" \"t\"") = .ok s ∧
      ending (Context.of {} ⟨[], []⟩ ⟨"/main.pbrt"⟩) s = .ok c ∧
      State.ofScene (Context.of (Options.skipping {} .textures) ⟨[], []⟩ ⟨"/main.pbrt"⟩)
        (.text "Texture \"t\" \"color\" \"constant\" Material \"matte\" \"texture Kd\" \"t\"") =
          .ok s' ∧
      ending (Context.of (Options.skipping {} .textures) ⟨[], []⟩ ⟨"/main.pbrt"⟩) s' = .ok c' ∧
      c.diagnostics = [] ∧ ¬c'.diagnostics.Sublist c.diagnostics ∧ ¬Complete s' c' := by
  let st : Statement := ⟨1, "Texture", some (.text "t"), ⟨[⟨"color", none, .text "constant", false⟩]⟩⟩
  let st' : Statement :=
    ⟨1, "Material", some (.text "matte"), ⟨[⟨"Kd", some "texture", .text "t", false⟩]⟩⟩
  let ctx := Context.of {} ⟨[], []⟩ ⟨"/main.pbrt"⟩
  let ctx' := Context.of (Options.skipping {} .textures) ⟨[], []⟩ ⟨"/main.pbrt"⟩
  let s : State Float32 := (((State.opening ctx).apply ctx ctx.input st).apply ctx ctx.input st').finish
  let s' : State Float32 := (((State.opening ctx').apply ctx' ctx'.input st).apply ctx' ctx'.input st').finish
  have hevents : Event.ofText true
      "Texture \"t\" \"color\" \"constant\" Material \"matte\" \"texture Kd\" \"t\"" =
      [.statement st, .statement st'] := by cbv
  have hs : State.ofScene ctx _ = .ok s :=
    State.ofScene_pair hevents (by decide) (by decide) (by decide +kernel)
  have hs' : State.ofScene ctx' _ = .ok s' :=
    State.ofScene_pair hevents (by decide) (by decide) (by decide +kernel)
  have hc : ending ctx s = .ok (ofState ctx s) := ending_of_narrow (by decide) (by decide +kernel)
  have hc' : ending ctx' s' = .ok (ofState ctx' s') :=
    ending_of_narrow (by decide) (by decide +kernel)
  have hclean : (ofState ctx s).diagnostics = [] := by decide +kernel
  have hreported : (ofState ctx' s').diagnostics ≠ [] := by decide +kernel
  have hreferences : s'.entries.map Entry.references = [[(.texture, "t")]] := by decide +kernel
  refine ⟨s, _, s', _, hs, hc, hs', hc', hclean, fun hless => ?_, fun hcomplete => ?_⟩
  · exact hreported (List.sublist_nil.1 (hclean ▸ hless))
  · obtain ⟨e, he, hreference⟩ := List.map_eq_singleton_iff.1 hreferences
    obtain ⟨d, hd, -⟩ := hcomplete.references [] e [] he (.texture, "t") (by simp [hreference])
    cases hd

end Conversion

end SceneConvert
