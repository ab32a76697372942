import SceneConvert.Proofs.Run.Step

/-!
# SceneConvert.Proofs.Run.Entered

What a run goes through.

* `State.entered`: the files that a run enters, in order.
* `Tick`: what the next event does when it enters no file.
* `Kept`: relations between the states of a run that every tick and every file keeps. `Kept.run`: the
  states before and behind a run are related.
-/

namespace SceneConvert

namespace State

variable {α : Type} [Scalar α]

/-- The files that a run enters, in the order in which it enters them. -/
def entered (ctx : Context) (source : Path) (stack : List Path) (events : List Event)
    (s : State α) : List IncludedFile :=
  match events with
  | [] => []
  | event :: events =>
    if s.halted then []
    else match event with
      | .fault f => entered ctx source stack events (s.note (.report (f.problem.diagnostic source f.line)))
      | .statement st =>
        if Action.ofWord st.word = .include_ then
          let s := s.moveTo source st.line
          match _found : Inclusion.ofStatement ctx stack s source st with
          | .error p => entered ctx source stack events (s.reportProblem p)
          | .ok (.repeated path output) => entered ctx source stack events (s.mention path output)
          | .ok (.enter file) =>
            let (output, inner) := s.enterFile ctx file
            let text := Event.ofText ctx.options.collapseLists file.text
            let behind := run ctx file.path (file.key :: stack) text inner
            file :: entered ctx file.path (file.key :: stack) text inner ++
              entered ctx source stack events (behind.leaveFile s file output)
        else entered ctx source stack events (s.apply ctx source st)
  termination_by ((ctx.unvisited stack).length, events.length)
  decreasing_by
  all_goals first
    | exact Prod.Lex.right _ (Nat.lt_succ_self _)
    | exact Prod.Lex.left _ _ (Context.length_unvisited_cons
        (Inclusion.ofStatement_enter _found).1 (Inclusion.ofStatement_enter _found).2)

section

variable {ctx : Context} {source : Path} {stack : List Path}
variable {events : List Event} {st : Statement} {s : State α}

theorem entered_eq_nil (h : ∀ st, .statement st ∈ events → Action.ofWord st.word ≠ .include_) :
    s.entered ctx source stack events = [] := by
  fun_induction State.entered ctx source stack events s with
  | case1 | case2 => rfl
  | case3 source stack s events hs f ih => exact ih fun st hst => h st (List.mem_cons_of_mem _ hst)
  | case4 source stack s events hs st hst | case5 source stack s events hs st hst
  | case6 source stack s events hs st hst => exact absurd hst (h st List.mem_cons_self)
  | case7 source stack s events hs st hst ih => exact ih fun st hst => h st (List.mem_cons_of_mem _ hst)

theorem entered_include {file : IncludedFile} (h : s.halted = false)
    (hst : Action.ofWord st.word = .include_)
    (hi : Inclusion.ofStatement ctx stack (s.moveTo source st.line) source st = .ok (.enter file)) :
    s.entered ctx source stack (.statement st :: events) =
      file :: ((s.moveTo source st.line).enterFile ctx file).2.entered ctx file.path (file.key :: stack)
        (Event.ofText ctx.options.collapseLists file.text) ++
      entered ctx source stack events
        ((run ctx file.path (file.key :: stack) (Event.ofText ctx.options.collapseLists file.text)
          ((s.moveTo source st.line).enterFile ctx file).2).leaveFile (s.moveTo source st.line) file
            ((s.moveTo source st.line).enterFile ctx file).1) := by
  rw [entered, if_neg (by simp [h])]
  simp only [if_pos hst]
  split
  · rename_i hi'; rw [hi] at hi'; cases hi'
  · rename_i hi'; rw [hi] at hi'; cases hi'
  · rename_i file' hi'
    rw [hi] at hi'
    cases hi'
    rfl

end

end State

section

variable {α : Type} [Scalar α]

/-- What an event of the file `source` does that enters no file. -/
inductive Tick (ctx : Context) (source : Path) (stack : List Path) : Event → State α → State α → Prop
  | fault (s : State α) (f : Fault) :
    Tick ctx source stack (.fault f) s (s.note (.report (f.problem.diagnostic source f.line)))
  | refused {s : State α} {st : Statement} {p : Problem} :
    Action.ofWord st.word = .include_ →
    Inclusion.ofStatement ctx stack (s.moveTo source st.line) source st = .error p →
    Tick ctx source stack (.statement st) s ((s.moveTo source st.line).reportProblem p)
  | repeated {s : State α} {st : Statement} {path : Path} {output : Option Path} :
    Action.ofWord st.word = .include_ →
    Inclusion.ofStatement ctx stack (s.moveTo source st.line) source st =
      .ok (.repeated path output) →
    Tick ctx source stack (.statement st) s ((s.moveTo source st.line).mention path output)
  | directive {s : State α} {st : Statement} :
    Action.ofWord st.word ≠ .include_ →
    Tick ctx source stack (.statement st) s (s.apply ctx source st)

/-- A relation between two states of a run and the files that are entered between them. `E` says what
is known of the events of a file. -/
structure Kept (ctx : Context) (E : Path → Event → Prop)
    (R : List IncludedFile → State α → State α → Prop) : Prop where
  refl : ∀ s, R [] s s
  trans : ∀ {files files' s t u}, R files s t → R files' t u → R (files ++ files') s u
  tick : ∀ {source stack event s t}, E source event → s.halted = false →
    Tick ctx source stack event s t → R [] s t
  file : ∀ {source stack st file files} {s inner : State α}, E source (.statement st) →
    s.halted = false →
    Inclusion.ofStatement ctx stack (s.moveTo source st.line) source st = .ok (.enter file) →
    R files ((s.moveTo source st.line).enterFile ctx file).2 inner →
    R (file :: files) s
      (inner.leaveFile (s.moveTo source st.line) file ((s.moveTo source st.line).enterFile ctx file).1)

theorem Kept.run {ctx : Context} {E : Path → Event → Prop}
    {R : List IncludedFile → State α → State α → Prop} (kept : Kept ctx E R) {source : Path}
    {stack : List Path} {events : List Event} {s : State α} (hevents : ∀ e ∈ events, E source e)
    (hfiles : ∀ file ∈ s.entered ctx source stack events,
      ∀ e ∈ Event.ofText ctx.options.collapseLists file.text, E file.path e) :
    R (s.entered ctx source stack events) s (s.run ctx source stack events) := by
  fun_induction State.entered ctx source stack events s with
  | case1 source stack s =>
    rw [State.run_nil]
    exact kept.refl s
  | case2 source stack s event events hs =>
    rw [State.run_of_halted hs]
    exact kept.refl s
  | case3 source stack s events hs f ih =>
    rw [State.run_fault (by simpa using hs)]
    have fault : Tick ctx source stack (.fault f) s _ := .fault s f
    have htick := kept.tick (hevents _ List.mem_cons_self) (by simpa using hs) fault
    exact kept.trans htick (ih (fun e he => hevents e (List.mem_cons_of_mem _ he)) hfiles)
  | case4 source stack s events hs st hst _ p hi ih =>
    rw [State.run_include_error (by simpa using hs) hst hi]
    have htick := kept.tick (hevents _ List.mem_cons_self) (by simpa using hs) (.refused hst hi)
    exact kept.trans htick (ih (fun e he => hevents e (List.mem_cons_of_mem _ he)) hfiles)
  | case5 source stack s events hs st hst _ path output hi ih =>
    rw [State.run_include_repeated (by simpa using hs) hst hi]
    have htick := kept.tick (hevents _ List.mem_cons_self) (by simpa using hs) (.repeated hst hi)
    exact kept.trans htick (ih (fun e he => hevents e (List.mem_cons_of_mem _ he)) hfiles)
  | case6 source stack s events hs st hst _ file hi output inner henter text behind ihinner ih =>
    rw [State.run_include_enter (by simpa using hs) hst hi, henter]
    have hinner := ihinner (hfiles file (by simp)) fun f hf => hfiles f (by simp [hf])
    have hrest := ih (fun e he => hevents e (List.mem_cons_of_mem _ he))
      fun f hf => hfiles f (by simp [hf])
    have hfile := kept.file (hevents _ List.mem_cons_self) (by simpa using hs) hi
      (by rw [henter]; exact hinner)
    rw [henter] at hfile
    exact kept.trans hfile hrest
  | case7 source stack s events hs st hst ih =>
    rw [State.run_apply (by simpa using hs) hst]
    have directive : Tick ctx source stack (.statement st) s _ := .directive hst
    have htick := kept.tick (hevents _ List.mem_cons_self) (by simpa using hs) directive
    exact kept.trans htick (ih (fun e he => hevents e (List.mem_cons_of_mem _ he)) hfiles)

end

end SceneConvert
