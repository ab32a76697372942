import SceneConvert.Proofs.Run.Inclusion
import SceneConvert.Proofs.Run.Obeys
import SceneConvert.Proofs.Run.Output
import SceneConvert.Proofs.Run.Scene
import SceneConvert.Proofs.Run.Silence

/-!
# SceneConvert.Proofs.Run.ObeysRun

A run keeps to a policy.

* `Policy.Permits`: what the words of an event have to be like.
* `Policy.IsMetBy`: what has to be known at the end: nothing was reported, unless the policy is lenient,
  and the finished files may be included.
* `State.obeys_ofScene`: then all entries of a conversion obey the policy.
-/

namespace SceneConvert

variable {α : Type} {P : Policy α} {s : State α}

namespace State

/-! ## Directives -/

theorem recordAll_frame (items : List Finding) (s : State α) :
    (items.foldl record s).objects = s.objects ∧
      (items.foldl record s).counters.light = s.counters.light := by
  induction items generalizing s with
  | nil => exact ⟨rfl, rfl⟩
  | cons x items ih =>
    obtain ⟨hobjects, hlight⟩ := ih (s.record x)
    have hrecord : (s.record x).objects = s.objects ∧
        (s.record x).counters.light = s.counters.light := by
      cases x <;> exact ⟨rfl, rfl⟩
    exact ⟨hobjects.trans hrecord.1, hlight.trans hrecord.2⟩

namespace Obeys

theorem recordAll {items : List Finding} (hs : s.Obeys P)
    (hnames : ∀ p, .spectrum p ∈ items → ∃ n, p.name = Counter.spectrum.name n) :
    (items.foldl record s).Obeys P ∧
      (∀ p, .spectrum p ∈ items → P.holds (items.foldl record s).entries (.spectrum, p.name)) ∧
      ∀ r, P.holds s.entries r → P.holds (items.foldl record s).entries r := by
  induction items generalizing s with
  | nil => exact ⟨hs, by simp, fun _ h => h⟩
  | cons x items ih =>
    have hrest : ∀ p, .spectrum p ∈ items → ∃ n, p.name = Counter.spectrum.name n :=
      fun p hp => hnames p (List.mem_cons_of_mem x hp)
    cases x with
    | remark r =>
      obtain ⟨hobeys, hspectra, hkept⟩ := ih (s := s.record (.remark r)) (hs.note _) hrest
      exact ⟨hobeys, fun p hp => hspectra p (by simpa using hp), hkept⟩
    | problem p =>
      obtain ⟨hobeys, hspectra, hkept⟩ := ih (s := s.record (.problem p)) (hs.note _) hrest
      exact ⟨hobeys, fun p hp => hspectra p (by simpa using hp), hkept⟩
    | spectrum q =>
      obtain ⟨n, hn⟩ := hnames q List.mem_cons_self
      have hword : P.word q.name := hn ▸ P.counted .spectrum n
      have hrecord : (s.record (.spectrum q)).Obeys P :=
        (hs.take .spectrum).emit (f := .spectrum q.name q.wavelengths q.values) nofun hword nofun nofun
      have hentries : (s.record (.spectrum q)).entries =
          s.entries ++ [.fragment (.spectrum q.name q.wavelengths q.values)] := entries_emit _ _
      obtain ⟨hobeys, hspectra, hkept⟩ := ih hrecord hrest
      refine ⟨hobeys, fun p hp => ?_, fun r hr => hkept r (hentries ▸ P.grows _ hr)⟩
      rcases List.mem_cons.1 hp with hpq | hp
      · cases hpq
        exact hkept _ (hentries ▸ P.defines hword)
      · exact hspectra p hp

theorem remarks (hs : s.Obeys P) (rs : List Remark) : (rs.foldl remark s).Obeys P := by
  induction rs generalizing s with
  | nil => exact hs
  | cons r rs ih => exact ih (hs.note _)

/-- What a survey knows may be used. A texture that is not declared was reported. -/
theorem holds_of_known {v : Site α} {f : Findings} (hs : v.state.Obeys P)
    (hwords : ∀ w ∈ v.words, P.word w) (hproblem : f.HasProblem → P.IsLenient) {r : Reference}
    (hr : v.Known f r) (hspectrum : ∀ n, r ≠ (.spectrum, n)) : P.holds v.state.entries r := by
  obtain ⟨family, n⟩ := r
  cases family with
  | texture =>
    rcases hr.2 with hdeclared | hfound
    · exact hs.bound.textures n (List.contains_iff_mem.1 hdeclared)
    · exact hproblem hfound _ _ (hwords n hr.1)
  | material => exact hs.bound.materials n (List.contains_iff_mem.1 hr.2)
  | spectrum => exact absurd rfl (hspectrum n)
  | _ => exact hr.elim

variable [Scalar α]

theorem conclude (hs : s.Obeys P) (options : Options) {result : Except Refusal (Verdict α)}
    (h : ∀ v, result = .ok v →
      v.change.Rests (P.ground s.entries) s ∧ (v.change.dangles = true → P.IsLenient)) :
    (s.conclude options result).Obeys P := by
  match result with
  | .error (.problem p) => exact hs.note _
  | .error .overflow => exact hs.rebind { hs.bound with } rfl rfl rfl rfl
  | .ok ⟨change, problem, afterwards⟩ =>
    obtain ⟨hrests, hdangles⟩ := h _ rfl
    have hremarks := (hs.commit options hrests hdangles).remarks afterwards
    cases problem with
    | none => exact hremarks
    | some p => exact hremarks.note _

theorem apply {ctx : Context} {source : Path} {st : Statement} (hs : s.Obeys P)
    (hwords : ∀ w ∈ st.words, P.word w)
    (hfiles : ∀ w ∈ st.words, P.file (ctx.files.fileFor source w ctx.includeRoot))
    (h : P.IsLenient ∨ (s.apply ctx source st).diagnostics = []) :
    (s.apply ctx source st).Obeys P := by
  let v : Site α := s.site ctx source st
  have hgrows := s.grows_survey ctx source st
  have hmoved : v.state.Obeys P := hs.rebind { hs.bound with } rfl rfl rfl rfl
  have hproblem : (s.survey ctx source st).2.HasProblem → P.IsLenient := fun hfound =>
    h.elim id fun hsilent => absurd hfound (silent_apply hsilent).2.1
  have hcounted : ∀ p, .spectrum p ∈ (s.survey ctx source st).2.items.toList →
      ∃ n, p.name = Counter.spectrum.name n := fun p hp =>
    hgrows.counted rfl (Array.mem_toList_iff.1 hp)
  obtain ⟨hrecorded, hspectra, hkept⟩ := hmoved.recordAll hcounted
  rw [apply_eq_conclude]
  refine hrecorded.conclude ctx.options ?_
  intro verdict hverdict
  have hsound := s.sound_of_survey ctx source st hverdict
  have hwithin : (v.ground (s.survey ctx source st).2).Within
      (P.ground ((s.survey ctx source st).2.items.toList.foldl record v.state).entries) := by
    refine ⟨fun r hr => ?_, hwords, ?_⟩
    · by_cases hspectrum : ∃ n, r = (.spectrum, n)
      · obtain ⟨n, rfl⟩ := hspectrum
        obtain ⟨p, hp, rfl⟩ := hr
        exact hspectra p (Array.mem_toList_iff.2 hp)
      · exact hkept r (hmoved.holds_of_known hwords hproblem hr fun n hn => hspectrum ⟨n, hn⟩)
    · rintro p ⟨w, hw, rfl⟩
      exact hfiles w hw
  obtain ⟨hobjects, hlight⟩ := recordAll_frame (s.survey ctx source st).2.items.toList v.state
  refine ⟨(hsound.1.mono hwithin).of_state hobjects hlight, fun hdangles => ?_⟩
  refine h.elim id ?_
  intro hsilent
  have hsome := hsound.2.dangles hdangles
  rw [(silent_apply hsilent).2.2 verdict hverdict] at hsome
  cases hsome

end Obeys

end State

/-! ## Runs -/

theorem Inclusion.get?_of_repeated {ctx : Context} {stack : List Path} {source path : Path}
    {st : Statement} {output : Option Path}
    (h : ofStatement ctx stack s source st = .ok (.repeated path output)) :
    ∃ key, s.included.get? key = some output := by
  obtain ⟨key, -, -, hseen⟩ := found_of_repeated h
  exact ⟨key, hseen⟩

namespace Policy

/-- The words of an event of the file `source`, and the files that they mean, are allowed. -/
def Permits (P : Policy α) (ctx : Context) (source : Path) : Event → Prop
  | .fault _ => True
  | .statement st => ∀ w ∈ st.words,
    P.word w ∧ P.file (ctx.files.fileFor source w ctx.includeRoot)

/-- What has to be known at the end of a run. -/
structure IsMetBy (P : Policy α) (t : State α) : Prop where
  silent : P.IsLenient ∨ t.diagnostics = []
  finished : ∀ page ∈ t.finished, P.included page.file

theorem IsMetBy.before {P : Policy α} {s t : State α} (h : P.IsMetBy t)
    (hsilent : t.diagnostics = [] → s.diagnostics = [])
    (hfinished : ∀ page ∈ s.finished, page ∈ t.finished) : P.IsMetBy s :=
  ⟨h.silent.imp id hsilent, fun page hpage => h.finished page (hfinished page hpage)⟩

end Policy

namespace State

/-- What holds at the end of a part of a run held before it, and the entries of the part obey. -/
def Governed (P : Policy α) (_ : List IncludedFile) (s t : State α) : Prop :=
  P.IsMetBy t → P.IsMetBy s ∧ (s.Obeys P → t.Obeys P)

variable [Scalar α]

theorem governed_tick {ctx : Context} {source : Path} {stack : List Path} {event : Event}
    {s t : State α} (hpermits : P.Permits ctx source event) (htick : Tick ctx source stack event s t) :
    Governed P [] s t := by
  intro hmet
  obtain ⟨ws, hws⟩ := htick.output
  rw [Output.writeAll_eq] at hws
  have hfinished : t.finished = s.finished := congrArg Output.finished hws
  refine ⟨hmet.before htick.silent fun page hpage => hfinished ▸ hpage, fun hs => ?_⟩
  cases htick with
  | fault f => exact hs.note _
  | @refused _ st _ _ _ =>
    have hmoved : (s.moveTo source st.line).Obeys P := hs.rebind { hs.bound with } rfl rfl rfl rfl
    exact hmoved.note _
  | @repeated _ st path output _ hi =>
    have hmoved : (s.moveTo source st.line).Obeys P := hs.rebind { hs.bound with } rfl rfl rfl rfl
    have hremark := hmoved.note (.remark (.includeRepeated path))
    cases output with
    | none => exact hremark
    | some output =>
      obtain ⟨key, hkey⟩ := Inclusion.get?_of_repeated hi
      refine hremark.write ⟨nofun, nofun, nofun, fun p hp => ?_⟩ rfl
      cases hp
      exact hs.included key output hkey
  | directive =>
    exact hs.apply (fun w hw => (hpermits w hw).1) (fun w hw => (hpermits w hw).2) hmet.silent

omit [Scalar α] in
theorem enterFile_frame (ctx : Context) (s : State α) (file : IncludedFile) :
    (s.enterFile ctx file).2.diagnostics = s.diagnostics ∧
      (s.enterFile ctx file).2.finished = s.finished ∧
      (s.Obeys P → (s.enterFile ctx file).2.Obeys P) := by
  have hremark := diagnostics_remark s (.including file.path)
  cases hmode : ctx.options.singleFile with
  | true =>
    simp only [enterFile, hmode, ↓reduceIte]
    exact ⟨hremark, rfl, fun hs => hs.note _⟩
  | false =>
    simp only [enterFile, hmode, Bool.false_eq_true, ↓reduceIte]
    exact ⟨hremark, rfl, fun hs => hs.rebind { hs.bound with } rfl rfl rfl rfl⟩

omit [Scalar α] in
theorem governed_file {ctx : Context} {file : IncludedFile} {files : List IncludedFile}
    {s before inner : State α} (hdiagnostics : before.diagnostics = s.diagnostics)
    (hfinished : before.finished = s.finished) (hbefore : s.Obeys P → before.Obeys P)
    (h : Governed P files (before.enterFile ctx file).2 inner) :
    Governed P (file :: files) s (inner.leaveFile before file (before.enterFile ctx file).1) := by
  intro hmet
  obtain ⟨hsilent, hkept, henter⟩ := enterFile_frame (P := P) ctx before file
  generalize (before.enterFile ctx file).1 = output at hmet ⊢
  have hpages : ∀ page ∈ inner.finished, page ∈ (inner.leaveFile before file output).finished := by
    intro page hpage
    cases output with
    | none => exact hpage
    | some output => exact Array.mem_push.2 (.inl hpage)
  have hleave : (inner.leaveFile before file output).diagnostics = inner.diagnostics := by
    cases output <;> rfl
  have hinner : P.IsMetBy inner := hmet.before (fun h => hleave ▸ h) hpages
  obtain ⟨hentered, hobeys⟩ := h hinner
  refine ⟨hentered.before (fun h => ?_) fun page hpage => ?_, fun hs => ?_⟩
  · rw [← hdiagnostics, ← hsilent]
    exact h
  · rw [hkept, hfinished]
    exact hpage
  · have hs' := hobeys (henter (hbefore hs))
    have hincluded (hfile : ∀ p, output = some p → P.included p) : ∀ key p,
        (inner.included.set file.key output).get? key = some (some p) → P.included p := by
      intro key p hp
      by_cases hkey : key = file.key
      · rw [hkey, Dictionary.get?_set_self] at hp
        exact hfile p (Option.some.inj hp)
      · rw [Dictionary.get?_set_of_ne _ _ hkey] at hp
        exact hs'.included key p hp
    obtain ⟨ns, hns⟩ := hs'.meshes
    cases output with
    | none => exact ⟨hs'.entries, { hs'.bound with }, hincluded nofun, ns, { hns with }⟩
    | some output =>
      have houtput : P.included output :=
        hmet.finished ⟨output, inner.page.toList⟩ (Array.mem_push.2 (.inr rfl))
      have hclosed : State.Obeys P { inner with
          location := before.location, included := inner.included.set file.key (some output)
          finished := inner.finished.push ⟨output, inner.page.toList⟩
          page := before.page, pageDepth := before.pageDepth } :=
        ⟨hs'.entries, { hs'.bound with }, hincluded (fun p hp => by cases hp; exact houtput), ns,
          { hns with }⟩
      refine hclosed.write ⟨nofun, nofun, nofun, fun p hp => ?_⟩ rfl
      cases hp
      exact houtput

theorem kept_governed (P : Policy α) (ctx : Context) :
    Kept ctx (P.Permits ctx) (Governed P) where
  refl s hmet := ⟨hmet, id⟩
  trans h h' hmet := by
    obtain ⟨hmiddle, hobeys'⟩ := h' hmet
    obtain ⟨hfirst, hobeys⟩ := h hmiddle
    exact ⟨hfirst, fun hs => hobeys' (hobeys hs)⟩
  tick hpermits _ htick := governed_tick hpermits htick
  file _ _ _ h :=
    governed_file rfl rfl (fun hs => hs.rebind { hs.bound with } rfl rfl rfl rfl) h

theorem obeys_read {ctx : Context} {source : Path} {text : String} {s : State α}
    (hs : s.Obeys P) (hmet : P.IsMetBy (s.read ctx source text))
    (hevents : ∀ e ∈ Event.ofText ctx.options.collapseLists text, P.Permits ctx source e)
    (hfiles : ∀ file ∈ s.entered ctx source [ctx.files.absolute ctx.input]
      (Event.ofText ctx.options.collapseLists text),
      ∀ e ∈ Event.ofText ctx.options.collapseLists file.text, P.Permits ctx file.path e) :
    (s.read ctx source text).Obeys P :=
  (((kept_governed P ctx).run hevents hfiles) hmet).2 hs

omit [Scalar α] in
theorem obeys_finish {s : State α} (hs : s.Obeys P) : s.finish.Obeys P := by
  have hclose : s.closeObject.Obeys P := by
    unfold closeObject
    split
    · exact hs
    · exact (hs.rebind (t := { s with openObject := none }) { hs.bound with } rfl rfl rfl rfl).note _
  unfold finish
  split
  · exact hs
  · unfold writeCamera
    split
    · exact hclose
    · have hactive := hclose.write (e := .activeCamera) ⟨nofun, nofun, nofun, nofun⟩ rfl
      exact hactive.emit nofun P.camera nofun nofun

omit [Scalar α] in
theorem isMetBy_of_finish {s : State α} (h : P.IsMetBy s.finish) : P.IsMetBy s :=
  h.before silent_finish fun _ hpage => s.finished_finish ▸ hpage

theorem obeys_opening (ctx : Context) (scene : Scene) : (scene.opening ctx : State α).Obeys P := by
  have hinitial : (initial ctx.input ctx.mainDepth : State α).Obeys P :=
    ⟨.nil, ⟨nofun, nofun, nofun, nofun, nofun⟩, nofun, [], ⟨.nil, nofun, rfl, rfl⟩⟩
  cases scene with
  | text t => exact hinitial.note _
  | input => exact (hinitial.note _).note _

end State

/-- The events of the scene and of every file that it enters are permitted. -/
def Scene.Permitted (P : Policy α) [Scalar α] (ctx : Context) (scene : Scene) : Prop :=
  ∀ text, scene.content ctx = .ok text →
    (∀ e ∈ Event.ofText ctx.options.collapseLists text, P.Permits ctx ctx.input e) ∧
    ∀ file ∈ (scene.opening ctx : State α).entered ctx ctx.input [ctx.files.absolute ctx.input]
      (Event.ofText ctx.options.collapseLists text),
      ∀ e ∈ Event.ofText ctx.options.collapseLists file.text, P.Permits ctx file.path e

theorem Scene.permitted_of_forall [Scalar α] {P : Policy α} (hword : ∀ w, P.word w)
    (hfile : ∀ p, P.file p) (ctx : Context) (scene : Scene) : scene.Permitted P ctx := by
  have permits (source : Path) (e : Event) : P.Permits ctx source e := by
    cases e with
    | fault f => trivial
    | statement st => exact fun w _ => ⟨hword w, hfile _⟩
  exact fun text _ => ⟨fun e _ => permits _ e, fun file _ e _ => permits file.path e⟩

/-- All that a permitted scene writes obeys the policy. -/
theorem State.obeys_ofScene [Scalar α] {ctx : Context} {scene : Scene} {s : State α}
    (h : ofScene ctx scene = .ok s) (hpermitted : scene.Permitted P ctx) (hmet : P.IsMetBy s) :
    s.Obeys P := by
  obtain ⟨text, htext, rfl⟩ := exists_read_of_ofScene h
  obtain ⟨hevents, hfiles⟩ := hpermitted text htext
  exact obeys_finish (obeys_read (obeys_opening ctx scene) (isMetBy_of_finish hmet) hevents hfiles)

end SceneConvert
