import SceneConvert.Proofs.Run.Output
import SceneConvert.Proofs.Run.Scene
import SceneConvert.Proofs.Run.Silence
import SceneConvert.Proofs.Survey.Colorless
import SceneConvert.Proofs.Survey.Verdicts

/-!
# SceneConvert.Proofs.Run.Rejection

What a rejected directive leaves behind.

* `State.problem?`: the problem for which a directive is rejected, if it is.
* `Residue`: the little that a rejected directive may change. Most change nothing.
* `Untouched`: the output, and all that gives names to things, is as it was.
* `run_rejected`: a rejected directive is reported and leaves no more than its residue.
-/

namespace SceneConvert

namespace State

variable {α : Type}

/-- The problem for which a statement of the file `source` is rejected, if it is. -/
def problem? [Scalar α] (ctx : Context) (source : Path) (stack : List Path) (s : State α)
    (st : Statement) : Option Problem :=
  if Action.ofWord st.word = .include_ then
    match Inclusion.ofStatement ctx stack (s.moveTo source st.line) source st with
    | .error p => some p
    | .ok _ => none
  else
    match (s.survey ctx source st).1 with
    | .error (.problem p) => some p
    | .error .overflow => none
    | .ok v => v.problem

/-- What a rejected directive may make of a state, its report apart. -/
inductive Residue (s : State α) : Action → State α → Prop
  | nothing (a : Action) : Residue s a s
  /-- The fresh name of the material is bound, although nothing has it. -/
  | material : Residue s .material ((s.take .material).2.bindMaterial (s.counters.next .material))
  | emission :
    Residue s .areaLightSource ((s.take .emission).2.bindEmission (s.counters.next .emission))
  | camera : Residue s .camera (s.nameSystem "camera" s.graphics.transform.inverse)
  | nestedObject {name : String} : s.openObject.isSome = true →
    Residue s .objectBegin
      { s.push with
        objects := s.objects.set name #[]
        openObject := some ⟨name, s.graphics.transform⟩ }
  | strayEnd : s.saved = [] → Residue s .objectEnd { s with openObject := none }
  | openObject : s.openObject.isSome = true →
    Residue s .worldEnd { s.popAll with openObject := none }

/-- The output of a state, everything that was declared in it, and all but two of its counters are
those of another one. -/
structure Untouched (s t : State α) : Prop where
  output : t.output = s.output
  meshes : t.meshes = s.meshes
  textures : t.textures = s.textures
  materials : t.materials = s.materials
  camera : t.camera = s.camera
  filmAspect : t.filmAspect = s.filmAspect
  halted : t.halted = s.halted
  counters : ∀ c, c ≠ .material → c ≠ .emission → t.counters.get c = s.counters.get c

theorem Residue.untouched {s t : State α} {a : Action} (h : Residue s a t) : s.Untouched t := by
  cases h
  case material =>
    refine ⟨rfl, rfl, rfl, rfl, rfl, rfl, rfl, fun c hmaterial _ => ?_⟩
    exact (s.counters.get_add 1 .material c).trans (if_neg hmaterial.symm)
  case emission =>
    refine ⟨rfl, rfl, rfl, rfl, rfl, rfl, rfl, fun c _ hemission => ?_⟩
    exact (s.counters.get_add 1 .emission c).trans (if_neg hemission.symm)
  all_goals exact ⟨rfl, rfl, rfl, rfl, rfl, rfl, rfl, fun _ _ _ => rfl⟩

/-! ## What is said -/

theorem foldl_remark (rs : List Remark) (s : State α) :
    ∃ j, rs.foldl remark s = { s with journal := j } := by
  induction rs generalizing s with
  | nil => exact ⟨_, rfl⟩
  | cons r rs ih =>
    obtain ⟨j, hj⟩ := ih (s.remark r)
    exact ⟨j, hj⟩

theorem conclude_ok [Scalar α] (options : Options) (s : State α) (v : Verdict α) :
    ∃ j, s.conclude options (.ok v) = { v.change.commit options s with journal := j } := by
  obtain ⟨j, hj⟩ := foldl_remark v.afterwards (v.change.commit options s)
  rw [conclude, hj]
  cases v.problem with
  | none => exact ⟨j, rfl⟩
  | some p => exact ⟨_, rfl⟩

theorem recordAll_of_colorless {items : List Finding} (s : State α)
    (h : ∀ p, .spectrum p ∉ items) : ∃ j, items.foldl record s = { s with journal := j } := by
  induction items generalizing s with
  | nil => exact ⟨_, rfl⟩
  | cons x items ih =>
    obtain ⟨j, hj⟩ := ih (s.record x) fun p hp => h p (List.mem_cons_of_mem x hp)
    rw [List.foldl_cons, hj]
    cases x with
    | remark r => exact ⟨j, rfl⟩
    | problem p => exact ⟨j, rfl⟩
    | spectrum p => exact absurd List.mem_cons_self (h p)

theorem getLast?_diagnostics_reportProblem (s : State α) (p : Problem) :
    (s.reportProblem p).diagnostics.getLast? = some (p.diagnostic s.location.1 s.location.2) := by
  rw [reportProblem, diagnostics_note]
  simp [Note.diagnostic?]

variable [Scalar α] {ctx : Context} {source : Path} {stack : List Path} {s : State α} {st : Statement}

/-- A directive with a problem has met no spectrum. -/
theorem recordAll_of_flawed
    (h : ∀ v, (s.survey ctx source st).1 = .ok v → v.problem.isSome = true) :
    ∃ j, (s.survey ctx source st).2.items.toList.foldl record (s.moveTo source st.line) =
      { s with journal := j, location := (source, st.line) } := by
  have hcolorless := s.colorless_of_flawed ctx source st h
  obtain ⟨j, hj⟩ := recordAll_of_colorless (s.moveTo source st.line)
    fun p hp => hcolorless p (Array.mem_toList_iff.1 hp)
  exact ⟨j, hj⟩

/-- A change that is made although there is a problem leaves no more than a residue, whatever was
said before. -/
theorem residue_of_flawed {v : Verdict α} {p : Problem} (hv : (s.survey ctx source st).1 = .ok v)
    (hp : v.problem = some p) :
    ∃ u, s.Residue (Action.ofWord st.word) u ∧ ∀ (options : Options) (j : Journal) (place : Path × Nat),
      v.change.commit options { s with journal := j, location := place } =
        { u with journal := j, location := place } := by
  cases hplain : (Action.ofWord st.word).isPlain with
  | true =>
    have hmodest := (Verdict.modest_ofStatement ctx source hplain).gives _ v _ (Prod.ext hv rfl)
    rcases hmodest.flawed p hp with ⟨ha, hc⟩ | ⟨ha, hc⟩ | ⟨ha, hc⟩ <;> rw [ha, hc]
    · exact ⟨_, .camera, fun _ _ _ => rfl⟩
    · exact ⟨_, .material, fun _ _ _ => rfl⟩
    · exact ⟨_, .emission, fun _ _ _ => rfl⟩
  | false =>
    have hstaged := staged_of_survey hplain hv
    rw [hp] at hstaged
    generalize Action.ofWord st.word = a, v.change = c, hq : some p = q at hstaged ⊢
    cases hstaged with
    | nothing | opens | closes | draws | adds => cases hq
    | closesAll =>
      exact ⟨_, .openObject (by cases ho : s.openObject <;> simp [ho] at hq ⊢), fun _ _ _ => rfl⟩
    | begins name =>
      exact ⟨_, .nestedObject (by cases ho : s.openObject <;> simp [ho] at hq ⊢), fun _ _ _ => rfl⟩
    | ends =>
      have hsaved : s.saved = [] := by cases hsaved : s.saved <;> simp [hsaved] at hq ⊢
      refine ⟨_, .strayEnd hsaved, fun options j place => ?_⟩
      simp only [Change.commit, pop, hsaved]

theorem exists_residue_of_apply {p : Problem} (hst : Action.ofWord st.word ≠ .include_)
    (hp : s.problem? ctx source stack st = some p) :
    ∃ u, s.Residue (Action.ofWord st.word) u ∧ ∃ j,
      s.apply ctx source st =
        { u with journal := j, location := (source, st.line) }.reportProblem p := by
  unfold problem? at hp
  rw [if_neg hst] at hp
  rw [apply_eq_conclude]
  cases hv : (s.survey ctx source st).1 with
  | error r =>
    have hflawed : ∀ v, (s.survey ctx source st).1 = .ok v → v.problem.isSome = true := by
      intro v h
      rw [hv] at h
      cases h
    obtain ⟨j, hj⟩ := recordAll_of_flawed hflawed
    rw [hj]
    cases r with
    | problem q =>
      rw [hv] at hp
      cases hp
      exact ⟨s, .nothing _, j, rfl⟩
    | overflow =>
      rw [hv] at hp
      cases hp
  | ok v =>
    have hproblem : v.problem = some p := by
      rw [hv] at hp
      exact hp
    have hflawed : ∀ w, (s.survey ctx source st).1 = .ok w → w.problem.isSome = true := by
      intro w hw
      rw [hv] at hw
      cases hw
      rw [hproblem]
      rfl
    obtain ⟨j, hj⟩ := recordAll_of_flawed hflawed
    obtain ⟨u, hu, hcommit⟩ := residue_of_flawed hv hproblem
    obtain ⟨j', hj'⟩ := foldl_remark v.afterwards { u with journal := j, location := (source, st.line) }
    refine ⟨u, hu, j', ?_⟩
    rw [hj, conclude, hcommit, hj', hproblem]

/-- A rejected directive is reported behind all else, at its own place, and the run goes on. It leaves
no trace in the output, nor in anything that gives names to things, and of the rest of the state it
changes no more than its residue. -/
theorem run_rejected {p : Problem} (hs : s.halted = false)
    (hp : s.problem? ctx source stack st = some p) :
    ∃ t : State α,
      (∀ events, s.run ctx source stack (.statement st :: events) = t.run ctx source stack events) ∧
      t.diagnostics.getLast? = some (p.diagnostic source st.line) ∧
      s.Untouched t ∧
      ∃ u, s.Residue (Action.ofWord st.word) u ∧
        t = { u with journal := t.journal, location := t.location } := by
  by_cases hst : Action.ofWord st.word = .include_
  · refine ⟨(s.moveTo source st.line).reportProblem p, fun events => ?_,
      getLast?_diagnostics_reportProblem _ p, ⟨rfl, rfl, rfl, rfl, rfl, rfl, rfl, fun _ _ _ => rfl⟩,
      s, .nothing _, rfl⟩
    unfold problem? at hp
    rw [if_pos hst] at hp
    split at hp <;> cases hp
    rename_i hi
    exact run_include_error hs hst hi
  · obtain ⟨u, hu, j, ht⟩ := exists_residue_of_apply hst hp
    refine ⟨s.apply ctx source st, fun events => run_apply hs hst, ?_, ?_, u, hu, ?_⟩
    · rw [ht]
      exact getLast?_diagnostics_reportProblem _ p
    · rw [ht]
      exact { hu.untouched with }
    · rw [ht]
      rfl

/-- A light from a point with too few coordinates: its sampled spectrum is not written. -/
theorem run_rejected_light :
    let st : Statement :=
      ⟨1, "LightSource", some (.text "distant"),
        ⟨[⟨"L", some "spectrum", .list [.integer 400, .integer 1], false⟩,
          ⟨"from", some "point", .list [.integer 1, .integer 2], false⟩]⟩⟩
    let s : State Float32 := opening Conversion.solitary
    s.problem? Conversion.solitary ⟨"/main.pbrt"⟩ [⟨"/main.pbrt"⟩] st = some (.distantLightPoint "from") ∧
      ∃ t : State Float32,
        s.run Conversion.solitary ⟨"/main.pbrt"⟩ [⟨"/main.pbrt"⟩] [.statement st] = t ∧
        t.diagnostics.getLast? =
          some ⟨.semantic, some ⟨"/main.pbrt"⟩, some 1,
            "\"from\" of distant light needs three values"⟩ ∧
        t.written = #[] ∧ t.counters.get .spectrum = 0 := by
  intro st s
  have hp : s.problem? Conversion.solitary ⟨"/main.pbrt"⟩ [⟨"/main.pbrt"⟩] st =
      some (.distantLightPoint "from") := by rfl
  obtain ⟨t, hrun, hlast, hkept, -⟩ := run_rejected rfl hp
  refine ⟨hp, t, (hrun []).trans run_nil, hlast, ?_, ?_⟩
  · exact congrArg Output.written hkept.output
  · exact hkept.counters .spectrum nofun nofun

end State

end SceneConvert
