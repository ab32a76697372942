import SceneConvert.Proofs.Run.Entered

/-!
# SceneConvert.Proofs.Run.History

A run as the moments that it goes through.

* `Moment`: an event of a run, with the state before it and the files that are being converted then.
* `Moment.behind`: the state behind the event.
* `Runs`: the statements of a file take one state to another, through some moments. Included files are
  entered with nothing to bound how deep.
* `exists_runs`, `Runs.unique`, `Runs.eq_run`: every run ends, in one way only, in the state that
  `State.run` computes.
* `Follows`, `Runs.follows`: a part of the state that leaving a file does not touch goes from each moment
  to the next one unchanged.
-/

namespace SceneConvert

/-- An event of the file `source` in the middle of a run. -/
structure Moment (α : Type) where
  /-- The state before the event. -/
  state : State α
  source : Path
  /-- The absolute paths of the files that are being converted, the innermost first. -/
  stack : List Path
  event : Event

variable {α : Type}

variable [Scalar α]

/-- The state behind the event. An event that enters a file leads to the first statement of the file. -/
def Moment.behind (ctx : Context) (m : Moment α) : State α :=
  match m.event with
  | .fault f => m.state.note (.report (f.problem.diagnostic m.source f.line))
  | .statement st =>
    if Action.ofWord st.word = .include_ then
      let s := m.state.moveTo m.source st.line
      match Inclusion.ofStatement ctx m.stack s m.source st with
      | .error p => s.reportProblem p
      | .ok (.repeated path output) => s.mention path output
      | .ok (.enter file) => (s.enterFile ctx file).2
    else m.state.apply ctx m.source st

/-- What `view` shows of the state behind each moment is what it shows at the next one. -/
inductive Follows (ctx : Context) {σ : Type} (view : State α → σ) : List (Moment α) → σ → σ → Prop
  | nil (x : σ) : Follows ctx view [] x x
  | cons {m : Moment α} {ms : List (Moment α)} {z : σ} :
    Follows ctx view ms (view (m.behind ctx)) z → Follows ctx view (m :: ms) (view m.state) z

section

variable {ctx : Context} {σ : Type} {view : State α → σ}

theorem Follows.append {ms ms' : List (Moment α)} {x y z : σ} (h : Follows ctx view ms x y)
    (h' : Follows ctx view ms' y z) : Follows ctx view (ms ++ ms') x z := by
  induction h with
  | nil => exact h'
  | cons _ ih => exact .cons (ih h')

theorem Follows.split {ms ms' : List (Moment α)} {x z : σ}
    (h : Follows ctx view (ms ++ ms') x z) :
    ∃ y, Follows ctx view ms x y ∧ Follows ctx view ms' y z := by
  induction ms generalizing x with
  | nil => exact ⟨x, .nil x, h⟩
  | cons m ms ih =>
    cases h with
    | cons hrest =>
      obtain ⟨y, hms, hms'⟩ := ih hrest
      exact ⟨y, .cons hms, hms'⟩

end

/-- The state behind the events of the file `source`, and the moments on the way, those of included
files in place. -/
inductive Runs (ctx : Context) :
    Path → List Path → List Event → State α → List (Moment α) → State α → Prop
  | nil {source : Path} {stack : List Path} {s : State α} : Runs ctx source stack [] s [] s
  | halted {source : Path} {stack : List Path} {events : List Event} {s : State α} :
    s.halted = true → Runs ctx source stack events s [] s
  | tick {source : Path} {stack : List Path} {event : Event} {events : List Event}
      {s t u : State α} {ms : List (Moment α)} :
    s.halted = false → Tick ctx source stack event s t → Runs ctx source stack events t ms u →
    Runs ctx source stack (event :: events) s (⟨s, source, stack, event⟩ :: ms) u
  | enter {source : Path} {stack : List Path} {st : Statement} {events : List Event}
      {s inner u : State α} {file : IncludedFile} {within ms : List (Moment α)} :
    s.halted = false → Action.ofWord st.word = .include_ →
    Inclusion.ofStatement ctx stack (s.moveTo source st.line) source st = .ok (.enter file) →
    Runs ctx file.path (file.key :: stack) (Event.ofText ctx.options.collapseLists file.text)
      ((s.moveTo source st.line).enterFile ctx file).2 within inner →
    Runs ctx source stack events
      (inner.leaveFile (s.moveTo source st.line) file ((s.moveTo source st.line).enterFile ctx file).1)
      ms u →
    Runs ctx source stack (.statement st :: events) s
      (⟨s, source, stack, .statement st⟩ :: within ++ ms) u

section

variable {ctx : Context} {source : Path} {stack : List Path} {event : Event} {events : List Event}
variable {s t u : State α} {ms ms' : List (Moment α)}

theorem Tick.not_enter {st : Statement} {file : IncludedFile}
    (h : Tick ctx source stack (.statement st) s t) (hst : Action.ofWord st.word = .include_) :
    Inclusion.ofStatement ctx stack (s.moveTo source st.line) source st ≠ .ok (.enter file) := by
  intro hi
  cases h with
  | refused _ hi' | repeated _ hi' =>
    rw [hi] at hi'
    cases hi'
  | directive hst' => exact hst' hst

theorem Tick.behind (h : Tick ctx source stack event s t) :
    (⟨s, source, stack, event⟩ : Moment α).behind ctx = t := by
  cases h with
  | fault f => rfl
  | refused hst hi | repeated hst hi => simp only [Moment.behind, if_pos hst, hi]
  | directive hst => simp only [Moment.behind, if_neg hst]

theorem Tick.unique (h : Tick ctx source stack event s t) (h' : Tick ctx source stack event s u) :
    t = u := h.behind.symm.trans h'.behind

/-- A run ends, in the state that is computed. -/
theorem exists_runs (ctx : Context) (source : Path) (stack : List Path) (events : List Event)
    (s : State α) : ∃ ms, Runs ctx source stack events s ms (s.run ctx source stack events) := by
  fun_induction State.entered ctx source stack events s with
  | case1 source stack s =>
    rw [State.run_nil]
    exact ⟨[], .nil⟩
  | case2 source stack s event events hs =>
    rw [State.run_of_halted hs]
    exact ⟨[], .halted hs⟩
  | case3 source stack s events hs f ih =>
    obtain ⟨ms, hms⟩ := ih
    rw [State.run_fault (by simpa using hs)]
    exact ⟨_, .tick (by simpa using hs) (.fault s f) hms⟩
  | case4 source stack s events hs st hst _ p hi ih =>
    obtain ⟨ms, hms⟩ := ih
    rw [State.run_include_error (by simpa using hs) hst hi]
    exact ⟨_, .tick (by simpa using hs) (.refused hst hi) hms⟩
  | case5 source stack s events hs st hst _ path output hi ih =>
    obtain ⟨ms, hms⟩ := ih
    rw [State.run_include_repeated (by simpa using hs) hst hi]
    exact ⟨_, .tick (by simpa using hs) (.repeated hst hi) hms⟩
  | case6 source stack s events hs st hst _ file hi output inner henter text behind ihinner ih =>
    obtain ⟨within, hwithin⟩ := ihinner
    obtain ⟨ms, hms⟩ := ih
    have hinner : Runs ctx file.path (file.key :: stack) text
        ((s.moveTo source st.line).enterFile ctx file).2 within behind := by
      rw [henter]
      exact hwithin
    have hrest : Runs ctx source stack events
        (behind.leaveFile (s.moveTo source st.line) file
          ((s.moveTo source st.line).enterFile ctx file).1) ms
        (State.run ctx source stack events
          (behind.leaveFile (s.moveTo source st.line) file output)) := by
      rw [henter]
      exact hms
    rw [State.run_include_enter (by simpa using hs) hst hi, henter]
    exact ⟨_, .enter (by simpa using hs) hst hi hinner hrest⟩
  | case7 source stack s events hs st hst ih =>
    obtain ⟨ms, hms⟩ := ih
    rw [State.run_apply (by simpa using hs) hst]
    exact ⟨_, .tick (by simpa using hs) (.directive hst) hms⟩

theorem Runs.unique (h : Runs ctx source stack events s ms t)
    (h' : Runs ctx source stack events s ms' u) : ms = ms' ∧ t = u := by
  induction h generalizing ms' u with
  | nil => cases h' <;> exact ⟨rfl, rfl⟩
  | halted hs =>
    cases h' with
    | nil | halted => exact ⟨rfl, rfl⟩
    | tick hs' | enter hs' => simp [hs] at hs'
  | tick hs htick _ ih =>
    cases h' with
    | halted hs' => simp [hs] at hs'
    | tick _ htick' hrest =>
      cases htick.unique htick'
      obtain ⟨rfl, rfl⟩ := ih hrest
      exact ⟨rfl, rfl⟩
    | enter _ hst hi => exact absurd hi (htick.not_enter hst)
  | enter hs hst hi _ _ ihwithin ih =>
    cases h' with
    | halted hs' => simp [hs] at hs'
    | tick _ htick => exact absurd hi (htick.not_enter hst)
    | enter _ _ hi' hwithin hrest =>
      rw [hi] at hi'
      cases hi'
      obtain ⟨rfl, rfl⟩ := ihwithin hwithin
      obtain ⟨rfl, rfl⟩ := ih hrest
      exact ⟨rfl, rfl⟩

theorem Runs.eq_run (h : Runs ctx source stack events s ms t) :
    t = s.run ctx source stack events := by
  obtain ⟨ms', hms'⟩ := exists_runs ctx source stack events s
  exact (h.unique hms').2

end

theorem Runs.follows {σ : Type} {view : State α → σ} {ctx : Context} {source : Path}
    {stack : List Path} {events : List Event} {s t : State α} {ms : List (Moment α)}
    (h : Runs ctx source stack events s ms t)
    (hleave : ∀ (inner before : State α) (file : IncludedFile) (output : Option Path),
      view (inner.leaveFile before file output) = view inner) :
    Follows ctx view ms (view s) (view t) := by
  induction h with
  | nil | halted => exact .nil _
  | tick _ htick _ ih =>
    rw [← htick.behind] at ih
    exact .cons ih
  | @enter source stack st _ s _ _ file _ _ _ hst hi _ _ ihwithin ih =>
    rw [hleave] at ih
    have henter : (⟨s, source, stack, .statement st⟩ : Moment _).behind ctx =
        ((s.moveTo source st.line).enterFile ctx file).2 := by
      simp only [Moment.behind, if_pos hst, hi]
    rw [← henter] at ihwithin
    exact .cons (ihwithin.append ih)

end SceneConvert
