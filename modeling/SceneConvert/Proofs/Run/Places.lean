import SceneConvert.Proofs.Run.Once
import SceneConvert.Proofs.Statement.Places
import SceneConvert.Proofs.Survey.Unlexical
import SceneConvert.Proofs.Token.Places

/-!
# SceneConvert.Proofs.Run.Places

The places that diagnostics point at.

* `Scene.Reads`: the file that is being read behind some moments of a conversion, and its text.
* `Runs.location`: where a run leaves the state, whatever files it entered.
* `Diagnostic.PointsAt`: a diagnostic with the file and the line of a token.
* `Moment.Blames`: what is reported at a moment points at the word of its directive, or at what is wrong
  with the text.
* `Scene.Passes.diagnostics_point`: every diagnostic of a conversion points at a token of a file that was
  being read.
-/

namespace SceneConvert

variable {α : Type} {ctx : Context} {scene : Scene}

/-! ## The file that is being read -/

/-- Behind the moments `past` this file with this text is being read: the input, or a file that was
entered at one of them and not left at those that came later. `stack` has the absolute paths of the files
that are being converted. -/
inductive Scene.Reads (ctx : Context) (scene : Scene) (past : List (Moment α)) :
    Path → List Path → String → Prop
  | input {text : String} : scene.content ctx = .ok text →
    Reads ctx scene past ctx.input [ctx.files.absolute ctx.input] text
  | included {earlier since : List (Moment α)} {x : Entrance α} : past = earlier ++ x.moment :: since →
    x.Happens ctx → (∀ m ∈ since, x.file.key :: x.stack <:+ m.stack) →
    (ctx.filesFor x.before.journal x.file.path).readText x.file.path = .ok x.file.text →
    Reads ctx scene past x.file.path (x.file.key :: x.stack) x.file.text

/-- A file goes on to be read while no moment leaves it. -/
theorem Scene.Reads.append {past more : List (Moment α)} {source : Path} {stack : List Path} {text : String}
    (h : scene.Reads ctx past source stack text) (hmore : ∀ m ∈ more, stack <:+ m.stack) :
    scene.Reads ctx (past ++ more) source stack text := by
  cases h with
  | input htext => exact .input htext
  | @included earlier since x hpast hx hsince htext =>
    have hpast' : past ++ more = earlier ++ x.moment :: (since ++ more) := by
      rw [hpast, List.append_assoc, List.cons_append]
    exact .included hpast' hx (List.forall_mem_append.2 ⟨hsince, hmore⟩) htext

variable [Scalar α]

theorem Scene.invariant_reads : Invariant ctx fun past source stack events (_ : State α) =>
    ∃ text passed, Event.ofText ctx.options.collapseLists text = passed ++ events ∧
      scene.Reads ctx past source stack text where
  tick := by
    rintro past source stack event events s t ⟨text, passed, hevents, hreads⟩ -
    refine ⟨text, passed ++ [event], by rw [hevents, List.append_assoc, List.singleton_append], ?_⟩
    exact hreads.append (List.forall_mem_singleton.2 List.suffix_rfl)
  enter := by
    rintro past events x - hx
    obtain ⟨-, -, hread⟩ := Inclusion.found_of_enter hx.enters
    exact ⟨x.file.text, [], rfl, .included rfl hx (List.forall_mem_nil _) hread⟩
  leave := by
    rintro past within events rest x ⟨text, passed, hevents, hreads⟩ hx hwithin -
    refine ⟨text, passed ++ [.statement x.directive],
      by rw [hevents, List.append_assoc, List.singleton_append], hreads.append ?_⟩
    refine List.forall_mem_cons.2 ⟨List.suffix_rfl, fun m hm => ?_⟩
    exact (List.suffix_cons _ _).trans (hwithin.suffix_stack m hm)

/-! ## Where the state is -/

theorem Tick.location {source : Path} {stack : List Path} {st : Statement} {s t : State α}
    (h : Tick ctx source stack (.statement st) s t) : t.location = (source, st.line) := by
  cases h with
  | refused => rfl
  | @repeated _ _ path output => cases output <;> rfl
  | directive => exact State.location_apply ctx source s st

/-- A run of a file leaves the state at one of its statements, if it gets to any. -/
theorem Runs.location {source : Path} {stack : List Path} {events : List Event} {s t : State α}
    {ms : List (Moment α)} (h : Runs ctx source stack events s ms t) :
    (t.location = s.location ∧ t.openObject = s.openObject) ∨
      ∃ st, .statement st ∈ events ∧ t.location = (source, st.line) := by
  have behind {source : Path} {st : Statement} {events : List Event} {s t : State α}
      (hs : s.location = (source, st.line))
      (h : (t.location = s.location ∧ t.openObject = s.openObject) ∨
        ∃ st, .statement st ∈ events ∧ t.location = (source, st.line)) :
      ∃ st', .statement st' ∈ .statement st :: events ∧ t.location = (source, st'.line) := by
    rcases h with ⟨h, -⟩ | ⟨st', hst', h⟩
    · exact ⟨st, List.mem_cons_self, h.trans hs⟩
    · exact ⟨st', List.mem_cons_of_mem _ hst', h⟩
  induction h with
  | nil | halted => exact .inl ⟨rfl, rfl⟩
  | @tick source stack event events s t u ms _ htick _ ih =>
    cases event with
    | statement st => exact .inr (behind htick.location ih)
    | fault f =>
      cases htick
      exact ih.imp id fun ⟨st, hst, h⟩ => ⟨st, List.mem_cons_of_mem _ hst, h⟩
  | @enter source stack st events s inner u file within ms _ _ _ _ _ _ ih =>
    refine .inr (behind ?_ ih)
    cases ((s.moveTo source st.line).enterFile ctx file).1 <;> rfl

/-! ## Diagnostics -/

/-- The diagnostic has the path of a file and the line of a token of its text. -/
structure Diagnostic.PointsAt (d : Diagnostic) (source : Path) (text : String) (x : Lexeme) : Prop where
  file : d.file = some source
  line : d.line = some x.line
  stands : x.StandsIn 1 text.toList
  first : 1 ≤ x.line
  last : x.line ≤ (textLines text).length

theorem Problem.pointsAt {text : String} {x : Lexeme} (hx : x ∈ Lexeme.ofText text) (p : Problem)
    (source : Path) : (p.diagnostic source x.line).PointsAt source text x where
  file := rfl
  line := rfl
  stands := Lexeme.standsIn_of_mem_scan hx
  first := (Lexeme.line_of_mem_ofText hx).1
  last := (Lexeme.line_of_mem_ofText hx).2

/-- A diagnostic of this moment points at the token `x` in the text of the file. At a directive that is its
word, and what is wrong with a string is on the line where the string starts. -/
structure Moment.Blames (m : Moment α) (text : String) (d : Diagnostic) (x : Lexeme) : Prop where
  points : d.PointsAt m.source text x
  word : ∀ st, m.event = .statement st → x.token = .word st.word ∧ d.line = some st.line
  string : d.kind = .lexical → ∃ before rest, text.toList = before ++ '"' :: rest ∧
    d.line = some (before.count '\n' + 1) ∧ ∃ p ∈ (Lexeme.readQuoted rest).faults, d.message = p.message

theorem Moment.exists_problem_of_raised {m : Moment α} {st : Statement} (hevent : m.event = .statement st)
    {d : Diagnostic} (hd : d ∈ m.raised ctx) :
    ∃ p : Problem, p.kind ≠ .lexical ∧ d = p.diagnostic m.source st.line := by
  unfold raised at hd
  rw [hevent] at hd
  dsimp only at hd
  split at hd
  · split at hd
    · rename_i p hp
      exact ⟨p, Inclusion.kind_of_error hp, List.mem_singleton.1 hd⟩
    · cases hd
  · obtain ⟨p, hp, rfl⟩ := List.mem_map.1 hd
    exact ⟨p, State.kind_of_mem_problems_survey hp, rfl⟩

theorem Moment.exists_blames {m : Moment α} {text : String}
    (hevent : m.event ∈ Event.ofText ctx.options.collapseLists text) :
    ∃ x ∈ Lexeme.ofText text, ∀ d ∈ m.raised ctx, m.Blames text d x := by
  obtain ⟨x, hx, habout⟩ := Event.exists_isAbout hevent
  refine ⟨x, hx, fun d hd => ?_⟩
  cases he : m.event with
  | statement st =>
    rw [he] at habout
    obtain ⟨hword, hline⟩ := habout
    obtain ⟨p, hkind, rfl⟩ := exists_problem_of_raised he hd
    refine ⟨hline ▸ p.pointsAt hx m.source, ?_, fun h => absurd h hkind⟩
    rintro st' hst'
    rw [he] at hst'
    cases hst'
    exact ⟨hword, rfl⟩
  | fault f =>
    rw [he] at habout
    obtain rfl : d = f.problem.diagnostic m.source f.line := by
      unfold raised at hd
      rw [he] at hd
      exact List.mem_singleton.1 hd
    refine ⟨habout.line ▸ f.problem.pointsAt hx m.source, fun st hst => by simp [he] at hst, fun h => ?_⟩
    rcases habout.inside with hp | hkind
    · obtain ⟨before, rest, htext, hline, hp⟩ := Lexeme.exists_string_of_mem_faults hx hp
      exact ⟨before, rest, htext, congrArg some (habout.line.trans hline), f.problem, hp, rfl⟩
    · exact absurd (hkind.symm.trans h) nofun

/-- Every diagnostic has the path of a file that was being read when it was raised, the input or an
included one, and a line of the text of this file: that of the word of the directive at which it was
raised, or of the string that is misspelled, or of a token that is out of place. At the end of the input
it is the line of one of its directives. -/
theorem Scene.Passes.diagnostics_point {ms : List (Moment Float32)} {t : State Float32}
    (h : scene.Passes ctx ms t) :
    (Conversion.ofState ctx t.finish).diagnostics =
      ms.flatMap (Moment.raised ctx) ++ t.raisedAtEnd ∧
    (∀ past m rest, ms = past ++ m :: rest →
      ∃ text, scene.Reads ctx past m.source m.stack text ∧
        m.event ∈ Event.ofText ctx.options.collapseLists text ∧
        ∀ d ∈ m.raised ctx, ∃ x ∈ Lexeme.ofText text, m.Blames text d x) ∧
    ∀ d ∈ t.raisedAtEnd, ∃ text, scene.content ctx = .ok text ∧
      ∃ st x, .statement st ∈ Event.ofText ctx.options.collapseLists text ∧ x ∈ Lexeme.ofText text ∧
        x.token = .word st.word ∧ x.line = st.line ∧ d.PointsAt ctx.input text x := by
  refine ⟨h.diagnostics, ?_⟩
  obtain ⟨text, htext, hruns⟩ := h
  refine ⟨?_, fun d hd => ⟨text, htext, ?_⟩⟩
  · rintro past m rest rfl
    have hbegin : ∃ text' passed, Event.ofText ctx.options.collapseLists text' =
        passed ++ Event.ofText ctx.options.collapseLists text ∧
          scene.Reads ctx ([] : List (Moment Float32)) ctx.input [ctx.files.absolute ctx.input] text' :=
      ⟨text, [], rfl, .input htext⟩
    obtain ⟨-, hmoments⟩ := hruns.invariant scene.invariant_reads hbegin
    obtain ⟨rest', text', passed, hevents, hreads⟩ := hmoments past m rest rfl
    have hevent : m.event ∈ Event.ofText ctx.options.collapseLists text' := by
      rw [hevents]
      exact List.mem_append_right _ List.mem_cons_self
    obtain ⟨x, hx, hblames⟩ := m.exists_blames hevent
    exact ⟨text', hreads, hevent, fun d hd => ⟨x, hx, hblames d hd⟩⟩
  · unfold State.raisedAtEnd at hd
    split at hd
    · cases hd
    obtain ⟨o, ho, rfl⟩ := List.mem_map.1 hd
    rcases hruns.location with ⟨-, hopen⟩ | ⟨st, hst, hplace⟩
    · have hnone : (scene.opening ctx : State Float32).openObject = none := by cases scene <;> rfl
      rw [hopen, hnone] at ho
      cases ho
    · obtain ⟨x, hx, hword, hline⟩ := Event.exists_isAbout hst
      refine ⟨st, x, hst, hx, hword, hline, ?_⟩
      rw [hplace, ← hline]
      exact Problem.pointsAt hx _ _

/-- A directive without its numbers. -/
def Context.bareTranslate : Statement := ⟨2, "Translate", none, .empty⟩

/-- The directive on the line behind an include. -/
def Context.sparingFlaw : Moment Float32 :=
  ⟨sparingEntrance.behind sparing, sparing.input, [sparing.files.absolute sparing.input],
    .statement bareTranslate⟩

theorem Context.passes_flaw : ∃ t,
    Scene.Passes sparing (.text "Include \"part.pbrt\"\nTranslate")
      ([sparingEntrance.moment] ++ [sparingFlaw]) t := by
  have hevents : Event.ofText true "Include \"part.pbrt\"\nTranslate" =
      [.statement (sparingInclude "part.pbrt"), .statement bareTranslate] := by
    cbv
  have htick : Tick sparing sparing.input [sparing.files.absolute sparing.input] sparingFlaw.event
      sparingFlaw.state _ := .directive (by decide)
  exact ⟨_, _, rfl, hevents ▸ runs_sparing htick⟩

theorem Context.raised_flaw : sparingFlaw.raised sparing =
    [⟨.semantic, some sparing.input, some 2, "Translate expects 3 numbers"⟩] := rfl

/-- What is wrong behind an include is reported in the file that it stands in. -/
theorem Scene.Passes.diagnostics_point_sparing :
    let flaw := Context.sparingFlaw
    ∃ t text x,
      Scene.Passes Context.sparing (.text "Include \"part.pbrt\"\nTranslate")
        ([Context.sparingEntrance.moment] ++ [flaw]) t ∧
      Scene.Reads Context.sparing (.text "Include \"part.pbrt\"\nTranslate")
        [Context.sparingEntrance.moment] Context.sparing.input flaw.stack text ∧
      flaw.Blames text ⟨.semantic, some Context.sparing.input, some 2, "Translate expects 3 numbers"⟩ x := by
  obtain ⟨t, hpasses⟩ := Context.passes_flaw
  obtain ⟨-, hmoments, -⟩ := hpasses.diagnostics_point
  obtain ⟨text, hreads, -, hblames⟩ := hmoments _ _ [] rfl
  rw [Context.raised_flaw] at hblames
  obtain ⟨x, -, hx⟩ := hblames _ List.mem_cons_self
  exact ⟨t, text, x, hpasses, hreads, hx⟩

end SceneConvert
