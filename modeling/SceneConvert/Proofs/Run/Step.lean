import SceneConvert.Scene.Finish

/-!
# SceneConvert.Proofs.Run.Step

One equation for each way in which a run goes on, and one for going on behind some events.
-/

namespace SceneConvert

namespace State

variable {α : Type} [Scalar α] {ctx : Context} {source : Path} {stack : List Path}
variable {events : List Event} {st : Statement} {s : State α}

@[simp] theorem run_nil : run ctx source stack [] s = s := by
  rw [run]

theorem run_of_halted (h : s.halted = true) : run ctx source stack events s = s := by
  cases events with
  | nil => exact run_nil
  | cons event events => rw [run.eq_def]; exact if_pos h

theorem run_fault {f : Fault} (h : s.halted = false) :
    run ctx source stack (.fault f :: events) s =
      run ctx source stack events (s.note (.report (f.problem.diagnostic source f.line))) := by
  rw [run, if_neg (by simp [h])]

theorem run_apply (h : s.halted = false) (hst : Action.ofWord st.word ≠ .include_) :
    run ctx source stack (.statement st :: events) s =
      run ctx source stack events (s.apply ctx source st) := by
  rw [run, if_neg (by simp [h])]
  simp only [if_neg hst]

theorem run_include_error {p : Problem} (h : s.halted = false)
    (hst : Action.ofWord st.word = .include_)
    (hi : Inclusion.ofStatement ctx stack (s.moveTo source st.line) source st = .error p) :
    run ctx source stack (.statement st :: events) s =
      run ctx source stack events ((s.moveTo source st.line).reportProblem p) := by
  rw [run, if_neg (by simp [h])]
  simp only [if_pos hst]
  split
  · rename_i p' hi'
    obtain rfl : p = p' := by simpa using hi.symm.trans hi'
    rfl
  all_goals rename_i hi'; rw [hi] at hi'; cases hi'

theorem run_include_repeated {path : Path} {output : Option Path} (h : s.halted = false)
    (hst : Action.ofWord st.word = .include_)
    (hi : Inclusion.ofStatement ctx stack (s.moveTo source st.line) source st =
      .ok (.repeated path output)) :
    run ctx source stack (.statement st :: events) s =
      run ctx source stack events ((s.moveTo source st.line).mention path output) := by
  rw [run, if_neg (by simp [h])]
  simp only [if_pos hst]
  split
  · rename_i hi'; rw [hi] at hi'; cases hi'
  · rename_i path' output' hi'
    rw [hi] at hi'
    cases hi'
    rfl
  · rename_i hi'; rw [hi] at hi'; cases hi'

theorem run_include_enter {file : IncludedFile} (h : s.halted = false)
    (hst : Action.ofWord st.word = .include_)
    (hi : Inclusion.ofStatement ctx stack (s.moveTo source st.line) source st = .ok (.enter file)) :
    run ctx source stack (.statement st :: events) s =
      run ctx source stack events
        ((run ctx file.path (file.key :: stack) (Event.ofText ctx.options.collapseLists file.text)
          ((s.moveTo source st.line).enterFile ctx file).2).leaveFile (s.moveTo source st.line) file
            ((s.moveTo source st.line).enterFile ctx file).1) := by
  rw [run, if_neg (by simp [h])]
  simp only [if_pos hst]
  split
  · rename_i hi'; rw [hi] at hi'; cases hi'
  · rename_i hi'; rw [hi] at hi'; cases hi'
  · rename_i file' hi'
    rw [hi] at hi'
    cases hi'
    rfl

theorem run_include_empty {file : IncludedFile} (h : s.halted = false)
    (hst : Action.ofWord st.word = .include_)
    (hi : Inclusion.ofStatement ctx stack (s.moveTo source st.line) source st = .ok (.enter file))
    (hempty : Event.ofText ctx.options.collapseLists file.text = []) :
    run ctx source stack (.statement st :: events) s =
      run ctx source stack events
        (((s.moveTo source st.line).enterFile ctx file).2.leaveFile (s.moveTo source st.line) file
          ((s.moveTo source st.line).enterFile ctx file).1) := by
  rw [run_include_enter h hst hi, hempty, run_nil]

theorem run_append (ctx : Context) (source : Path) (stack : List Path) (xs ys : List Event)
    (s : State α) :
    run ctx source stack (xs ++ ys) s = run ctx source stack ys (run ctx source stack xs s) := by
  fun_induction run ctx source stack xs s with
  | case1 source stack s => rfl
  | case2 source stack s event events hs => rw [run_of_halted hs, run_of_halted hs]
  | case3 source stack s events hs f ih =>
    rw [List.cons_append, run_fault (by simpa using hs), ih]
  | case4 source stack s events hs st hst moved p hi ih =>
    rw [List.cons_append, run_include_error (by simpa using hs) hst hi, ih]
  | case5 source stack s events hs st hst moved path output hi ih =>
    rw [List.cons_append, run_include_repeated (by simpa using hs) hst hi, ih]
  | case6 source stack s events hs st hst moved file hi output inner henter text _ ih =>
    rw [List.cons_append, run_include_enter (by simpa using hs) hst hi, ← ih]
    simp only [henter, text, moved]
  | case7 source stack s events hs st hst ih =>
    rw [List.cons_append, run_apply (by simpa using hs) hst, ih]

end State

end SceneConvert
