import SceneConvert.Proofs.Document.InlinedText
import SceneConvert.Proofs.Run.Entrances
import SceneConvert.Proofs.Run.IncludeStack
import SceneConvert.Proofs.Run.OutputFiles
import SceneConvert.Proofs.Run.Passage

/-!
# SceneConvert.Proofs.Run.Once

Files that are not converted again.

* `Entrance.Settled`: a state remembers a file that was converted, its output file and the page there.
* `Remembers`: all files that were entered are different ones, and those that are not being converted are
  remembered. `invariant_remembers`: so it is throughout a run, where files are not converted again.
* `Moment.Skips`: a moment at which a file is named that is not converted again.
* `Scene.Passes.converts_once`: no file is converted twice, and a later include of it is such a moment.
-/

namespace SceneConvert

open FileTree

variable {α : Type} {ctx : Context}

theorem State.finished_leaveFile (s before : State α) (file : IncludedFile) (output : Option Path) :
    (s.leaveFile before file output).finished.toList =
      s.finished.toList ++ output.toList.map fun p => ⟨p, s.page.toList⟩ := by
  cases output with
  | none => exact (List.append_nil _).symm
  | some output => exact Array.toList_push

theorem State.included_leaveFile (s before : State α) (file : IncludedFile) (output : Option Path) :
    (s.leaveFile before file output).included = s.included.set file.key output := by
  cases output <;> rfl

theorem State.kept_enterFile (s : State α) (file : IncludedFile) :
    (s.enterFile ctx file).2.included = s.included ∧ (s.enterFile ctx file).2.finished = s.finished := by
  unfold enterFile
  dsimp only
  split <;> exact ⟨rfl, rfl⟩

theorem Entrance.output_eq_none (x : Entrance α) :
    x.output ctx = none ↔ ctx.options.singleFile = true := by
  unfold output State.enterFile
  dsimp only
  split <;> simp [*]

variable [Scalar α]

/-- The state remembers which file the included one was written to, and has the page of that file. -/
structure Entrance.Settled (ctx : Context) (x : Entrance α) (s : State α) : Prop where
  included : s.included.get? x.file.key = some (x.output ctx)
  page : ∀ p, x.output ctx = some p → ⟨p, (x.inner ctx).page.toList⟩ ∈ s.finished.toList

theorem Entrance.Settled.congr {x : Entrance α} {s t : State α} (h : x.Settled ctx s)
    (hincluded : t.included = s.included) (hfinished : t.finished = s.finished) : x.Settled ctx t :=
  ⟨by rw [hincluded, h.included], fun p hp => by rw [hfinished]; exact h.page p hp⟩

theorem Entrance.settled_behind (x : Entrance α) : x.Settled ctx (x.behind ctx) where
  included := by rw [behind, State.included_leaveFile, Dictionary.get?_set_self]
  page p hp := by
    rw [behind, State.finished_leaveFile, hp]
    exact List.mem_append_right _ List.mem_cons_self

theorem Entrance.Settled.behind {x y : Entrance α} (h : y.Settled ctx (x.inner ctx))
    (hne : y.file.key ≠ x.file.key) : y.Settled ctx (x.behind ctx) where
  included := by
    rw [Entrance.behind, State.included_leaveFile, Dictionary.get?_set_of_ne _ _ hne, h.included]
  page p hp := by
    rw [Entrance.behind, State.finished_leaveFile]
    exact List.mem_append_left _ (h.page p hp)

/-- The files that were entered at the moments `past` are different ones. Those that are not being
converted are remembered. -/
structure Remembers (ctx : Context) (past : List (Moment α)) (stack : List Path) (s : State α) :
    Prop where
  nodup : ((entrances ctx past).map fun x => x.file.key).Nodup
  settled : ∀ x ∈ entrances ctx past, x.file.key ∉ stack → x.Settled ctx s

theorem Remembers.tick {past : List (Moment α)} {source : Path} {stack : List Path} {event : Event}
    {s t : State α} (h : Remembers ctx past stack s) (htick : Tick ctx source stack event s t) :
    Remembers ctx (past ++ [⟨s, source, stack, event⟩]) stack t := by
  have hpast : entrances ctx (past ++ [(⟨s, source, stack, event⟩ : Moment α)]) = entrances ctx past := by
    rw [entrances_append, htick.entrances, List.append_nil]
  obtain ⟨ws, hws⟩ := htick.output
  rw [Output.writeAll_eq] at hws
  refine ⟨hpast ▸ h.nodup, fun x hx hfresh => ?_⟩
  exact (h.settled x (hpast ▸ hx) hfresh).congr (congrArg Output.included hws)
    (congrArg Output.finished hws)

section

variable (hskip : ctx.options.skipRepeatedIncludes = true)

include hskip

/-- A file is entered only if it was not before. -/
theorem Remembers.enter {past : List (Moment α)} {x : Entrance α}
    (h : Remembers ctx past x.stack x.state) (hx : x.Happens ctx) :
    Remembers ctx (past ++ [x.moment]) (x.file.key :: x.stack) (x.before.enterFile ctx x.file).2 := by
  have hpast : entrances ctx (past ++ [x.moment]) = entrances ctx past ++ [x] := by
    rw [entrances_append, hx.entrances]
  obtain ⟨hfound, hfirst, -⟩ := Inclusion.found_of_enter hx.enters
  have hunseen : x.state.included.get? x.file.key = none := hfirst hskip
  refine ⟨?_, fun y hy hfresh => ?_⟩
  · rw [hpast, List.map_append, List.map_singleton, List.nodup_append]
    refine ⟨h.nodup, List.nodup_singleton _, ?_⟩
    rintro _ hkey _ hx' rfl
    obtain ⟨y, hy, hkey⟩ := List.mem_map.1 hkey
    rw [List.mem_singleton.1 hx'] at hkey
    have hseen := (h.settled y hy (hkey ▸ hfound.fresh)).included
    rw [hkey, hunseen] at hseen
    cases hseen
  · rw [hpast, List.mem_append, List.mem_singleton] at hy
    rw [List.mem_cons, not_or] at hfresh
    rcases hy with hy | rfl
    · exact (h.settled y hy hfresh.2).congr (State.kept_enterFile x.before x.file).1
        (State.kept_enterFile x.before x.file).2
    · exact absurd rfl hfresh.1

omit hskip in
theorem Remembers.leave {past : List (Moment α)} {x : Entrance α} (hx : x ∈ entrances ctx past)
    (h : Remembers ctx past (x.file.key :: x.stack) (x.inner ctx)) :
    Remembers ctx past x.stack (x.behind ctx) := by
  refine ⟨h.nodup, fun y hy hfresh => ?_⟩
  by_cases hkey : y.file.key = x.file.key
  · obtain rfl := List.inj_on_of_nodup_map h.nodup hy hx hkey
    exact y.settled_behind
  · exact (h.settled y hy (by simp [hkey, hfresh])).behind hkey

theorem invariant_remembers :
    Invariant ctx fun past _ stack _ (s : State α) => Remembers ctx past stack s where
  tick h htick := h.tick htick
  enter h hx := h.enter hskip hx
  leave _ hx _ h :=
    h.leave (mem_entrances.2 ⟨List.mem_append_right _ List.mem_cons_self, hx⟩)

end

/-- At this moment the directive on the line names a file that is not converted again. Nothing is
reported, and all it does is to write one line for the output file, if there is one. -/
structure Moment.Skips (ctx : Context) (m : Moment Float32) (line : Nat) (path : Path)
    (output : Option Path) : Prop where
  entrance : m.entrance? ctx = none
  raised : m.raised ctx = []
  behind : m.behind ctx = { m.state with
    journal := m.state.journal.push (.remark (.includeRepeated path))
    location := (m.source, line)
    page := m.state.page ++ (output.toList.map Entry.include_).toArray
    written := m.state.written ++ (output.toList.map fun p =>
      ⟨.include_ p, m.state.pageDepth, m.state.journal.size + 1⟩).toArray }
  lines : ∀ depth, entryLines depth (m.behind ctx).page.toList =
    entryLines depth m.state.page.toList ++
      output.toList.map fun p => ⟨depth, "(include " ++ singleQuoted p.text ++ ")"⟩

theorem Moment.skips_of_repeated {m : Moment Float32} {st : Statement} {path : Path}
    {output : Option Path} (hevent : m.event = .statement st)
    (hst : Action.ofWord st.word = .include_)
    (hi : Inclusion.ofStatement ctx m.stack (m.state.moveTo m.source st.line) m.source st =
      .ok (.repeated path output)) : m.Skips ctx st.line path output := by
  have hbehind : m.behind ctx = (m.state.moveTo m.source st.line).mention path output := by
    simp only [behind, hevent, if_pos hst, hi]
  have hstate : m.behind ctx = { m.state with
      journal := m.state.journal.push (.remark (.includeRepeated path))
      location := (m.source, st.line)
      page := m.state.page ++ (output.toList.map Entry.include_).toArray
      written := m.state.written ++ (output.toList.map fun p =>
        ⟨.include_ p, m.state.pageDepth, m.state.journal.size + 1⟩).toArray } := by
    rw [hbehind]
    cases output with
    | none => simp [State.mention, State.remark, State.note, State.moveTo]
    | some p => simp [State.mention, State.remark, State.note, State.moveTo, State.write]
  refine ⟨by simp only [entrance?, hevent, if_pos hst, hi],
    by simp only [raised, hevent, if_pos hst, hi], hstate, fun depth => ?_⟩
  rw [hstate, Array.toList_append, entryLines_append]
  cases output <;> rfl

/-- Where files are not converted again, no file is: not under another name, and not the input. An
include of a file that was converted before, and is not being converted, only includes the output of
that time. -/
theorem Scene.Passes.converts_once {scene : Scene} {ms : List (Moment Float32)} {t : State Float32}
    (h : scene.Passes ctx ms t) (hskip : ctx.options.skipRepeatedIncludes = true) :
    (ctx.files.locate ctx.input ::
      (entrances ctx ms).map fun x => ctx.files.locate x.file.path).Nodup ∧
    ∀ past m rest st place x, ms = past ++ m :: rest → m.event = .statement st →
      Action.ofWord st.word = .include_ → ctx.included? m.source st = some place →
      x ∈ entrances ctx past → ctx.files.locate x.file.path = .ok place → pathOf place ∉ m.stack →
      ∃ path, ctx.files.locate path = .ok place ∧ m.Skips ctx st.line path (x.output ctx) ∧
        (x.output ctx = none ↔ ctx.options.singleFile = true) ∧
        ∀ p, x.output ctx = some p → ∃ f ∈ (Conversion.ofState ctx t.finish).files,
          f.path = p ∧ f.text = Conversion.includedText ctx (x.inner ctx).page.toList := by
  obtain ⟨text, -, hruns⟩ := h
  have hbegin : Remembers ctx [] [ctx.files.absolute ctx.input] (scene.opening ctx : State Float32) :=
    ⟨List.nodup_nil, fun x hx => absurd hx List.not_mem_nil⟩
  obtain ⟨⟨-, hend⟩, hmoments⟩ := hruns.invariant (invariant_remembers hskip) hbegin
  rw [List.nil_append] at hend
  have hplace (x : Entrance Float32) (hx : x ∈ entrances ctx ms) :
      ∃ place, ctx.files.locate x.file.path = .ok place ∧ x.file.key = pathOf place ∧
        x.file.key ≠ ctx.files.absolute ctx.input := by
    obtain ⟨hmem, hx⟩ := mem_entrances.1 hx
    obtain ⟨place, hkey, hlocate, -, hfresh⟩ := Inclusion.exists_place_of_enter hx.enters
    obtain ⟨places, hstack⟩ := hruns.converting (.begin ctx) x.moment hmem
    refine ⟨place, hlocate, hkey, fun hinput => hfresh ?_⟩
    have hstack_eq : x.stack = places.map pathOf ++ [ctx.files.absolute ctx.input] := hstack.stack_eq
    rw [← hkey, hinput, hstack_eq]
    exact List.mem_append_right _ List.mem_cons_self
  refine ⟨List.nodup_cons.2 ⟨fun hmem => ?_, ?_⟩, ?_⟩
  · obtain ⟨x, hx, hinput⟩ := List.mem_map.1 hmem
    obtain ⟨place, hlocate, hkey, hne⟩ := hplace x hx
    rw [hlocate] at hinput
    exact hne (by rw [hkey, FileTree.absolute, ← hinput])
  · refine List.pairwise_map.2 ((List.pairwise_map.1 hend.nodup).imp_of_mem fun hx hy hne heq => hne ?_)
    obtain ⟨place, hlocate, hkey, -⟩ := hplace _ hx
    obtain ⟨place', hlocate', hkey', -⟩ := hplace _ hy
    rw [hlocate, hlocate'] at heq
    rw [hkey, hkey', Except.ok.inj heq]
  · rintro past m rest st place x rfl hevent hst hincluded hx hlocate hfresh
    obtain ⟨-, hremembers⟩ := hmoments past m rest rfl
    rw [List.nil_append] at hremembers
    have hx' : x ∈ entrances ctx (past ++ m :: rest) := by
      rw [entrances_append]
      exact List.mem_append_left _ hx
    obtain ⟨place', hlocate', hkey, hne⟩ := hplace x hx'
    obtain rfl : place = place' := Except.ok.inj (hlocate.symm.trans hlocate')
    have hsettled := hremembers.settled x hx (hkey ▸ hfresh)
    obtain ⟨path, hpath, hseen⟩ := Inclusion.exists_path_of_included (α := Float32) hincluded
    have hi := ((hseen m.stack (m.state.moveTo m.source st.line)).2 hfresh).1 (x.output ctx) hskip
      (hkey ▸ hsettled.included)
    refine ⟨path, hpath, Moment.skips_of_repeated hevent hst hi, x.output_eq_none, fun p hp => ?_⟩
    have hpage := (hend.settled x hx' (by simpa using hne)).page p hp
    rw [← State.finished_finish] at hpage
    exact ⟨_, List.mem_cons_of_mem _ (List.mem_map_of_mem hpage), rfl, rfl⟩

/-- A scene next to a part, which is not converted again. -/
def Context.sparing : Context :=
  { Conversion.neighbours with options := { skipRepeatedIncludes := true } }

def Context.sparingPart : IncludedFile := ⟨⟨"/a/part.pbrt"⟩, ⟨"/a/part.pbrt"⟩, ""⟩

/-- An include of the part, under some name. -/
def Context.sparingInclude (name : String) : Statement := ⟨1, "Include", some (.text name), .empty⟩

omit [Scalar α] in
theorem Context.ofStatement_sparing {name : String}
    (hname : sparing.files.include? sparing.input name sparing.includeRoot = some sparingPart.path)
    (s : State α) :
    Inclusion.ofStatement sparing [sparing.files.absolute sparing.input] s sparing.input
        (sparingInclude name) =
      match s.included.get? sparingPart.key with
      | some output => .ok (.repeated sparingPart.path output)
      | none => .ok (.enter sparingPart) := by
  have htext : (sparingInclude name).text? = some name := rfl
  have hfiles : sparing.filesFor s.journal sparingPart.path = sparing.files := rfl
  have hkey : sparing.files.absolute sparingPart.path = sparingPart.key := by decide +kernel
  have hstack : sparingPart.key ∉ [sparing.files.absolute sparing.input] := by decide +kernel
  have hread : sparing.files.readText sparingPart.path = .ok "" := by with_unfolding_all rfl
  simp only [Inclusion.ofStatement, htext, hname, hfiles, hkey, if_neg hstack, hread]
  cases s.included.get? sparingPart.key <;> rfl

/-- The part, entered by the first directive of the scene. -/
def Context.sparingEntrance : Entrance Float32 :=
  ⟨State.opening sparing, sparing.input, [sparing.files.absolute sparing.input],
    sparingInclude "part.pbrt", sparingPart⟩

/-- An include of the part under another name, behind the first one. -/
def Context.sparingMoment : Moment Float32 :=
  ⟨sparingEntrance.behind sparing, sparing.input, [sparing.files.absolute sparing.input],
    .statement (sparingInclude "../a/./part.pbrt")⟩

theorem Context.happens_sparing : sparingEntrance.Happens sparing :=
  ⟨by decide, ofStatement_sparing (by decide +kernel) _⟩

theorem Context.output_sparing : sparingEntrance.output sparing = some ⟨"part.prc"⟩ := by
  decide +kernel

theorem Context.inner_sparing : sparingEntrance.inner sparing =
    (sparingEntrance.before.enterFile sparing sparingPart).2 := by
  have hempty : Event.ofText sparing.options.collapseLists sparingPart.text = [] := by
    with_unfolding_all rfl
  rw [Entrance.inner, Entrance.events]
  exact hempty ▸ State.run_nil

theorem Context.repeated_sparing :
    Inclusion.ofStatement sparing sparingMoment.stack (sparingMoment.state.moveTo sparing.input 1)
        sparing.input (sparingInclude "../a/./part.pbrt") =
      .ok (.repeated sparingPart.path (some ⟨"part.prc"⟩)) := by
  have hseen : (sparingMoment.state.moveTo sparing.input 1).included.get? sparingPart.key =
      some (sparingEntrance.output sparing) := sparingEntrance.settled_behind.included
  refine (ofStatement_sparing (by decide +kernel) _).trans ?_
  rw [hseen, output_sparing]

theorem Context.runs_sparing {event : Event} {t : State Float32}
    (h : Tick sparing sparing.input [sparing.files.absolute sparing.input] event
      (sparingEntrance.behind sparing) t) :
    Runs sparing sparing.input [sparing.files.absolute sparing.input]
      [.statement (sparingInclude "part.pbrt"), event] (State.opening sparing)
      ([sparingEntrance.moment] ++ [⟨sparingEntrance.behind sparing, sparing.input,
        [sparing.files.absolute sparing.input], event⟩]) t := by
  have hwithin : Runs sparing sparingPart.path (sparingPart.key :: sparingEntrance.stack)
      (Event.ofText true "") (sparingEntrance.before.enterFile sparing sparingPart).2 []
      (sparingEntrance.inner sparing) := by
    rw [inner_sparing, show Event.ofText true "" = [] by with_unfolding_all rfl]
    exact .nil
  have hgoesOn : (sparingEntrance.behind sparing).halted = false := by
    rw [Entrance.behind, inner_sparing]
    rfl
  exact .enter rfl happens_sparing.includes happens_sparing.enters hwithin (.tick hgoesOn h .nil)

theorem Context.passes_sparing : ∃ t,
    Scene.Passes sparing (.text "Include \"part.pbrt\" Include \"../a/./part.pbrt\"")
      ([sparingEntrance.moment] ++ [sparingMoment]) t := by
  have hevents : Event.ofText true "Include \"part.pbrt\" Include \"../a/./part.pbrt\"" =
      [.statement (sparingInclude "part.pbrt"), .statement (sparingInclude "../a/./part.pbrt")] := by
    cbv
  have htick : Tick sparing sparing.input [sparing.files.absolute sparing.input] sparingMoment.event
      sparingMoment.state _ := .repeated (by decide) repeated_sparing
  exact ⟨_, _, rfl, hevents ▸ runs_sparing htick⟩

/-- The second include is a line for the output of the first one. -/
theorem Scene.Passes.converts_once_sparing :
    ∃ t, Scene.Passes Context.sparing (.text "Include \"part.pbrt\" Include \"../a/./part.pbrt\"")
        ([Context.sparingEntrance.moment] ++ [Context.sparingMoment]) t ∧
      ∃ path, Context.sparingMoment.Skips Context.sparing 1 path (some ⟨"part.prc"⟩) := by
  obtain ⟨t, hpasses⟩ := Context.passes_sparing
  have hentered : entrances Context.sparing [Context.sparingEntrance.moment] =
      [Context.sparingEntrance] := Context.happens_sparing.entrances
  have hfresh : pathOf ["a", "part.pbrt"] ∉ [Context.sparing.files.absolute Context.sparing.input] := by
    decide +kernel
  obtain ⟨path, -, hskips, -⟩ := (hpasses.converts_once rfl).2 _ _ [] _ ["a", "part.pbrt"] _ rfl rfl
    (by decide) (by decide +kernel) (hentered ▸ List.mem_cons_self) (by with_unfolding_all rfl) hfresh
  exact ⟨t, hpasses, path, Context.output_sparing ▸ hskips⟩

end SceneConvert
