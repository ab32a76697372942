import Mathlib
import SceneConvert.Proofs.Document.InlinedText
import SceneConvert.Proofs.Run.Avoids

/-!
# SceneConvert.Proofs.Run.SingleFile

One output file in place of many.

* `stopped?_merging`: a conversion with included files in their places has room for its indentation
  when the one with a file for each has.
* `Conversion.merged_inlined`: its only file is the main file of the other, with the contents of the
  other files in place of the lines that include them.
-/

namespace SceneConvert

namespace Conversion

variable {ctx : Context} {scene : Scene}

theorem stopped?_merging {s : State Float32} (hs : State.ofScene ctx scene = .ok s)
    (h : stopped? ctx s = none) {o : Output Float32}
    (hwritten : ∀ w ∈ o.written, w.depth = ctx.mainDepth ∧ w.entry ∈ o.page)
    (hinlined : Inlined s.finished.toList s.page.toList o.page.toList) :
    stopped? (ctx.merging true) (s.onto o) = none := by
  obtain ⟨hroom, hhalted⟩ := stopped?_eq_none.1 h
  refine stopped?_eq_none.2 ⟨fun hwidth w hw => ?_, hhalted⟩
  have hflat := hroom hwidth
  obtain ⟨hdepth, hentry⟩ := hwritten w hw
  have hpages {e : Entry Float32} (page : Page Float32) (hpage : page ∈ s.pages ctx)
      (he : e ∈ page.entries) : ∃ w ∈ s.written, w.entry = e := by
    have hmem : e ∈ s.entries :=
      ((State.interleaves_ofScene hs).sublist _ (List.mem_map_of_mem hpage)).subset he
    obtain ⟨v, hv, hve⟩ := List.mem_map.1 hmem
    exact ⟨v, Array.mem_toList_iff.1 hv, hve⟩
  have hbody : w.entry.hasBody = false := by
    obtain ⟨v, hv, hve⟩ : ∃ v ∈ s.written, v.entry = w.entry := by
      rcases hinlined.mem_of_mem (Array.mem_toList_iff.2 hentry) with he | ⟨page, hpage, he⟩
      · exact hpages ⟨ctx.mainOutput, s.page.toList⟩ List.mem_cons_self he
      · exact hpages page (List.mem_cons_of_mem _ hpage) he
    have hv' := hflat v hv
    simp only [Writing.isIndented, hve, Bool.or_eq_false_iff] at hv'
    exact hv'.2
  have hzero : ctx.mainDepth = 0 := by
    have hne : s.page.toList ≠ [] := by
      intro hnil
      rw [hnil] at hinlined
      rw [← Array.mem_toList_iff, hinlined.eq_nil] at hentry
      cases hentry
    obtain ⟨e, es, hes⟩ := List.exists_cons_of_ne_nil hne
    obtain ⟨v, hv, -, hvd⟩ := State.levelled_ofScene hs e
      (Array.mem_toList_iff.1 (hes ▸ List.mem_cons_self))
    have hv' := hflat v hv
    simp only [Writing.isIndented, Bool.or_eq_false_iff, decide_eq_false_iff_not] at hv'
    omega
  simp [Writing.isIndented, hdepth, hzero, hbody]

theorem find?_of_mem {files : List OutputFile}
    (hpaths : files.Pairwise fun f g => f.path.same g.path = false) {f : OutputFile} (hf : f ∈ files) :
    files.find? (fun g => g.path.same f.path) = some f := by
  induction files with
  | nil => cases hf
  | cons g files ih =>
    obtain ⟨hhead, htail⟩ := List.pairwise_cons.1 hpaths
    rcases List.mem_cons.1 hf with rfl | hf
    · exact List.find?_cons_of_pos (by simp [Path.same])
    · rw [List.find?_cons_of_neg (by simp [hhead f hf])]
      exact ih htail hf

theorem file?_of_mem {c : Conversion} (hpaths : c.files.Pairwise fun f g => f.path.same g.path = false)
    {f : OutputFile} (hf : f ∈ c.files) : c.file? f.path = some f.text := by
  rw [file?, find?_of_mem hpaths hf]
  rfl

/-- With included files in their places there is one output file. Its text is that of the main file
with files of their own, the contents of the other files being put in place of the lines that include
them. The meshes and the journal are the same. -/
theorem merged_inlined {c : Conversion} (hrepeat : ctx.options.skipRepeatedIncludes = false)
    (hctx : ctx.IsUnbroken) (htexts : ∀ text ∈ scene.texts (ctx.merging false), HasUnbrokenStrings text)
    (h : ofScene (ctx.merging false) scene = .ok (.ok c))
    (hpaths : c.files.Pairwise fun f g => f.path.same g.path = false) :
    ∃ main c', c.main? = some main ∧ ofScene (ctx.merging true) scene = .ok (.ok c') ∧
      (∀ n, c.files.length ≤ n → c'.files = [⟨ctx.mainOutput, inlined c.file? n main⟩]) ∧
      c'.meshes = c.meshes ∧ c'.journal = c.journal ∧ c'.diagnostics = c.diagnostics := by
  obtain ⟨s, hs, hending⟩ := ofScene_ok h
  have hstopped : stopped? (ctx.merging false) s = none ∧ ofState (ctx.merging false) s = c := by
    unfold ending at hending
    split at hending <;> cases hending
    exact ⟨‹_›, rfl⟩
  obtain ⟨hstopped, rfl⟩ := hstopped
  have hmode : (ctx.merging false).options.singleFile = false := rfl
  obtain ⟨o, ho, hfinished, hwritten, hinlined⟩ := State.merges_ofScene hmode hrepeat hs
  have hc' : ofScene (ctx.merging true) scene = .ok (.ok (ofState (ctx.merging true) (s.onto o))) := by
    have hstopped' : stopped? (ctx.merging true) (s.onto o) = none :=
      stopped?_merging hs hstopped hwritten hinlined
    have ho' : State.ofScene (ctx.merging true) scene = .ok (s.onto o) := ho
    rw [ofScene, ho', Except.map, ending, hstopped']
  have hctx' : (ctx.merging false).IsUnbroken := ⟨hctx.workingDirectory, hctx.includeRoot, hctx.input⟩
  have hunbroken := State.unbroken_ofScene hctx' htexts hs
  refine ⟨_, _, rfl, hc', fun n hn => ?_, rfl, rfl, rfl⟩
  have hfile : ∀ page ∈ s.finished.toList, (ofState (ctx.merging false) s).file? page.file =
      some (fileText ctx.options.indent false page.entries) := fun page hpage =>
    file?_of_mem (f := ⟨page.file, includedText (ctx.merging false) page.entries⟩) hpaths
      (List.mem_cons_of_mem _ (List.mem_map_of_mem hpage))
  have htext := hinlined.fileText hfile
    (hunbroken ⟨ctx.mainOutput, s.page.toList⟩ List.mem_cons_self)
    (fun page hpage => hunbroken page (List.mem_cons_of_mem _ hpage)) (n := n)
    (by simp only [ofState, List.length_cons, List.length_map] at hn; omega) (!ctx.options.skipWorld)
  have hnone : (s.onto o).finished = #[] := hfinished
  simp only [ofState, hnone]
  exact congrArg (fun text => [OutputFile.mk ctx.mainOutput text]) htext.symm

/-- A scene with a file of settings beside it. -/
def sampled : Context where
  options := {}
  files := ⟨[(["part.pbrt"], .file "Sampler \"s\"".toUTF8)], []⟩
  includeRoot := ⟨"/"⟩
  input := ⟨"/main.pbrt"⟩

/-- The settings of the other file end up inside the scene. -/
theorem merged_inlined_sampled :
    ∃ c main c', ofScene (sampled.merging false) (.text "Include \"part.pbrt\"") = .ok (.ok c) ∧
      c.main? = some main ∧ main = "(scene\n\t(include 'part.prc')\n)\n" ∧
      ofScene (sampled.merging true) (.text "Include \"part.pbrt\"") = .ok (.ok c') ∧
      c'.files = [⟨⟨"main.prc"⟩, inlined c.file? 2 main⟩] ∧
      inlined c.file? 2 main = "(scene\n\t(registry '/renderer/common/sampler/aa/count' 16)\n)\n" := by
  have hread (t : State Float32) : Inclusion.ofStatement (sampled.merging false) [⟨"/main.pbrt"⟩] t
      ⟨"/main.pbrt"⟩ ⟨1, "Include", some (.text "part.pbrt"), .empty⟩ =
        .ok (.enter ⟨⟨"/part.pbrt"⟩, ⟨"/part.pbrt"⟩, "Sampler \"s\""⟩) := by
    with_unfolding_all rfl
  let ctx := sampled.merging false
  let st : Statement := ⟨1, "Include", some (.text "part.pbrt"), .empty⟩
  let st' : Statement := ⟨1, "Sampler", some (.text "s"), .empty⟩
  let part : IncludedFile := ⟨⟨"/part.pbrt"⟩, ⟨"/part.pbrt"⟩, "Sampler \"s\""⟩
  have hlexemes : Lexeme.ofText "Include \"part.pbrt\"" =
      [⟨1, .word "Include", []⟩, ⟨1, .quoted "part.pbrt", []⟩] := by cbv
  have hlexemes' : Lexeme.ofText part.text = [⟨1, .word "Sampler", []⟩, ⟨1, .quoted "s", []⟩] := by
    rw [show part.text = "Sampler \"s\"" from rfl]
    cbv
  have hevents : Event.ofText ctx.options.collapseLists "Include \"part.pbrt\"" = [.statement st] := by
    rw [show ctx.options.collapseLists = true from rfl]
    cbv
  have hpart : Event.ofText ctx.options.collapseLists part.text = [.statement st'] := by
    rw [show ctx.options.collapseLists = true from rfl]
    cbv
  let s₀ : State Float32 := State.opening ctx
  let moved := s₀.moveTo ctx.input st.line
  let inner := (moved.enterFile ctx part).2
  let s := (inner.apply ctx part.path st').leaveFile moved part (moved.enterFile ctx part).1
  have hword : Action.ofWord st.word = .include_ := by decide
  have hword' : Action.ofWord st'.word ≠ .include_ := by decide
  have hfound (t : State Float32) : Inclusion.ofStatement ctx [ctx.files.absolute ctx.input] t
      ctx.input st = .ok (.enter part) := by
    rw [show ctx.files.absolute ctx.input = ⟨"/main.pbrt"⟩ by decide +kernel]
    exact hread t
  have htexts : Scene.texts ctx (.text "Include \"part.pbrt\"") =
      ["Include \"part.pbrt\"", part.text] := by
    have hopening : Scene.opening ctx (.text "Include \"part.pbrt\"") = s₀ := rfl
    have hinner (stack : List Path) : inner.entered ctx part.path stack [.statement st'] = [] :=
      State.entered_eq_nil (by simp [hword'])
    have hrest (t : State Float32) (stack : List Path) : t.entered ctx ctx.input stack [] = [] :=
      State.entered_eq_nil (by simp)
    simp only [Scene.texts, Scene.content, hopening, hevents]
    rw [State.entered_include rfl hword (hfound _), hpart, hinner, hrest]
    rfl
  have hrun : s₀.read ctx ctx.input "Include \"part.pbrt\"" = s := by
    rw [State.read, hevents, State.run_include_enter rfl hword (hfound _), hpart,
      State.run_apply rfl hword', State.run_nil, State.run_nil]
  have hc : ofScene ctx (.text "Include \"part.pbrt\"") = .ok (.ok (ofState ctx s.finish)) := by
    rw [ofScene, State.ofScene, State.ofText, hrun]
    rfl
  have hstrings : ∀ text ∈ Scene.texts ctx (.text "Include \"part.pbrt\""), HasUnbrokenStrings text := by
    rw [htexts]
    have hpart : Unbroken "part.pbrt" := by decide
    have hsampler : Unbroken "s" := by decide
    simpa [HasUnbrokenStrings, hlexemes, hlexemes'] using ⟨hpart, hsampler⟩
  have hpaths : (ofState ctx s.finish).files.Pairwise (fun f g => f.path.same g.path = false) := by
    rw [← List.pairwise_map (f := OutputFile.path) (R := fun p q => p.same q = false)]
    decide +kernel
  obtain ⟨main, c', hmain, hc', hfiles, -⟩ := @merged_inlined sampled _ _ rfl
    ⟨by decide, by decide, by decide⟩ hstrings hc hpaths
  have hmain' : (ofState ctx s.finish).main? = some "(scene\n\t(include 'part.prc')\n)\n" := by
    decide +kernel
  obtain rfl : "(scene\n\t(include 'part.prc')\n)\n" = main := Option.some.inj (hmain'.symm.trans hmain)
  have hinlined : inlined (ofState ctx s.finish).file? 2 "(scene\n\t(include 'part.prc')\n)\n" =
      "(scene\n\t(registry '/renderer/common/sampler/aa/count' 16)\n)\n" := by
    decide +kernel
  exact ⟨_, _, c', hc, hmain, rfl, hc', hfiles 2 (by decide +kernel), hinlined⟩
end Conversion

end SceneConvert
