import Mathlib
import SceneConvert.Proofs.Run.Ledger
import SceneConvert.Proofs.Survey.Reading

/-!
# SceneConvert.Proofs.Run.Registry

Which names of materials can be used.

* `Moment.Declares`, `Declared`: a directive declares a material under a name, by giving the name or by
  getting a fresh one.
* `Scene.Passes.mem_materials`: the materials there are at a moment are the ones declared before it.
* `Scene.Passes.names_declared`: what becomes of the names in the directives that use them.
-/

namespace SceneConvert

open Survey

variable {α : Type}

theorem State.inert_graphics : Inert (State.graphics : State α → Graphics α) where
  note _ _ := rfl
  moveTo _ _ _ := rfl
  spectrum _ _ := rfl
  mention _ _ output := by cases output <;> rfl
  enterFile ctx s file := by
    unfold State.enterFile
    dsimp only
    split <;> rfl
  leaveFile _ _ _ output := by cases output <;> rfl
  halt _ := rfl

/-! ## Verdicts -/

section

variable [Scalar α] {ctx : Context} {source : Path} {s : State α} {st : Statement}

/-- An anonymous material that there is no problem with is none at all, or gets a fresh name. -/
theorem Verdict.gives_material_kinds (hmaterials : ctx.options.skipMaterials = false)
    (h : Action.ofWord st.word = .material) :
    Gives (ofStatement ctx s source st) fun v => v.problem = none →
      v.change = .bindMaterial none ∨ ∃ m, v.change = .freshMaterial (some m) := by
  unfold ofStatement
  rw [h]
  refine gives_then fun kind => ?_
  rw [hmaterials, if_neg Bool.false_ne_true]
  refine gives_if (gives_pure fun _ => .inl rfl) (gives_then fun m => ?_)
  cases m with
  | error p => exact gives_pure nofun
  | ok m => exact gives_then fun _ => gives_pure fun _ => .inr ⟨m, rfl⟩

theorem Verdict.gives_makeNamedMaterial_change (hmaterials : ctx.options.skipMaterials = false)
    (h : Action.ofWord st.word = .makeNamedMaterial) :
    Gives (ofStatement ctx s source st) fun v => ∃ name m, st.text? = some name ∧
      v.change = .namedMaterial name m := by
  unfold ofStatement
  rw [h]
  refine gives_bind gives_text fun name hname => ?_
  rw [hmaterials]
  refine gives_then fun kind => gives_if (gives_refuse _) (gives_when (fun _ => ?_) ?_) <;>
    exact gives_then fun m => gives_then fun _ => gives_pure ⟨name, m, hname, rfl⟩

theorem State.gives_survey {P : Verdict α → Prop} {v : Verdict α}
    (h : Gives (Verdict.ofStatement ctx (s.moveTo source st.line) source st) P)
    (hv : (s.survey ctx source st).1 = .ok v) : P v := h.gives _ v _ (Prod.ext hv rfl)

theorem State.problem_of_survey {v : Verdict α} (hv : (s.survey ctx source st).1 = .ok v)
    (h : Action.ofWord st.word = .material ∨ Action.ofWord st.word = .makeNamedMaterial)
    (hchange : v.change ≠ .freshMaterial none) : v.problem = none := by
  have hplain : (Action.ofWord st.word).isPlain = true := by
    rcases h with h | h <;> rw [h] <;> rfl
  cases hp : v.problem with
  | none => rfl
  | some p =>
    obtain ⟨ha, -⟩ | ⟨-, hc⟩ | ⟨ha, -⟩ :=
      (State.gives_survey (Verdict.modest_ofStatement ctx source hplain) hv).flawed p hp
    · rcases h with h | h <;> rw [h] at ha <;> cases ha
    · exact absurd hc hchange
    · rcases h with h | h <;> rw [h] at ha <;> cases ha

theorem State.survey_namedMaterial {name : String} (h : Action.ofWord st.word = .namedMaterial)
    (hname : st.text? = some name) (hmaterials : ctx.options.skipMaterials = false) :
    s.survey ctx source st =
      (if s.hasMaterial name then .ok ⟨.bindMaterial (some name), none, []⟩
        else .error (.problem (.materialUndeclared name)), .start st.parameters s.counters.spectrum) := by
  unfold survey Verdict.ofStatement
  rw [h]
  unfold Verdict.namedMaterial
  dsimp only
  rw [outcome_bind, st.outcome_text, hname, hmaterials]
  change Survey.outcome (if s.hasMaterial name then _ else _) _ = _
  split <;> rfl

end

/-! ## Declarations -/

/-- The name that a change declares a material under, when so many fresh names are taken. -/
def Change.declared? (anonymous : Nat) : Change α → Option String
  | freshMaterial (some _) => some (Counter.material.name anonymous)
  | namedMaterial name _ => some name
  | _ => none

theorem Ledger.mem_after {x : Ledger α} {c : Change α} {n : String} :
    n ∈ (x.after c).materials ↔ n ∈ x.materials ∨ c.declared? x.anonymous = some n := by
  have hsame : n ∈ x.materials ↔ n ∈ x.materials ∨ (none : Option String) = some n := by simp
  cases c with
  | freshMaterial m =>
    cases m with
    | none => exact hsame
    | some m => exact mem_declare.trans (or_congr_right (by simp [Change.declared?, eq_comm]))
  | namedMaterial name m => exact mem_declare.trans (or_congr_right (by simp [Change.declared?, eq_comm]))
  | shape plan => cases plan <;> exact hsame
  | _ => exact hsame

variable [Scalar α] {ctx : Context}

/-- A directive that is accepted declares a material under a name: it gives the name, or is an
anonymous material that gets the name and is bound under it. -/
def Moment.Declares (ctx : Context) (n : String) (m : Moment α) : Prop :=
  ∃ st, m.Accepts ctx st ∧
    (Action.ofWord st.word = .makeNamedMaterial ∧ st.text? = some n ∨
      Action.ofWord st.word = .material ∧ (m.behind ctx).graphics.material = some n)

/-- One of the directives declares a material under the name. -/
def Declared (ctx : Context) (past : List (Moment α)) (n : String) : Prop := ∃ m ∈ past, m.Declares ctx n

theorem Moment.exists_graphics_behind (ctx : Context) (m : Moment α) :
    ∃ u, u.graphics = m.state.graphics ∧ u.ledger = m.state.ledger ∧
      (m.behind ctx).graphics = ((m.change ctx).commit ctx.options u).graphics := by
  obtain ⟨u, hu, hbehind⟩ := (State.inert_graphics.prod State.inert_ledger).behind ctx m
  obtain ⟨hgraphics, hledger⟩ := Prod.mk.inj hu
  exact ⟨u, hgraphics, hledger, (Prod.mk.inj hbehind).1⟩

theorem Moment.graphics_behind_bindMaterial {m : Moment α} {name : Option String}
    (h : m.change ctx = .bindMaterial name) :
    (m.behind ctx).graphics = { m.state.graphics with material := name } := by
  obtain ⟨u, hgraphics, -, hbehind⟩ := m.exists_graphics_behind ctx
  rw [hbehind, h, ← hgraphics]
  rfl

theorem Moment.graphics_behind_freshMaterial {m : Moment α} {x : Option Material}
    (h : m.change ctx = .freshMaterial x) :
    (m.behind ctx).graphics.material = some (Counter.material.name m.state.counters.material) := by
  obtain ⟨u, -, hledger, hbehind⟩ := m.exists_graphics_behind ctx
  have hcount : u.counters.material = m.state.counters.material := congrArg Ledger.anonymous hledger
  rw [hbehind, h, ← hcount]
  cases x <;> rfl

theorem Moment.accepts_of_declared? {m : Moment α} {count : Nat} {n : String}
    (h : (m.change ctx).declared? count = some n) :
    ∃ st, m.Accepts ctx st ∧ (m.change ctx).MadeBy (Action.ofWord st.word) ∧
      (m.change ctx).DeclaredBy (Action.ofWord st.word) st.text? := by
  have hnothing : m.change ctx ≠ .nothing := fun hc => by rw [hc] at h; cases h
  obtain ⟨st, v, g, hevent, -, hsurvey, hv, hmade⟩ := Moment.exists_of_change rfl hnothing
  have hok := congrArg Prod.fst hsurvey
  have hword : Action.ofWord st.word = .material ∨ Action.ofWord st.word = .makeNamedMaterial := by
    generalize m.change ctx = c at h hmade
    cases c with
    | freshMaterial x => exact .inl hmade
    | namedMaterial name x => exact .inr hmade
    | _ => cases h
  have hproblem := State.problem_of_survey hok hword fun hc => by
    rw [hv] at hc
    rw [hc] at h
    cases h
  exact ⟨st, ⟨hevent, v, hok, hproblem⟩, hmade, hv ▸ State.declaredBy_of_survey hok⟩

/-- What a change declares is what its directive declares. -/
theorem Moment.declared?_change_iff (hmaterials : ctx.options.skipMaterials = false) {m : Moment α}
    {n : String} :
    (m.change ctx).declared? m.state.counters.material = some n ↔ m.Declares ctx n := by
  constructor
  · intro h
    obtain ⟨st, haccepts, hmade, hdeclared⟩ := Moment.accepts_of_declared? h
    refine ⟨st, haccepts, ?_⟩
    cases hchange : m.change ctx with
    | freshMaterial x =>
      rw [hchange] at h hmade
      cases x with
      | none => cases h
      | some x => exact .inr ⟨hmade, (Moment.graphics_behind_freshMaterial hchange).trans h⟩
    | namedMaterial name x =>
      rw [hchange] at h hdeclared
      exact .inl ⟨hdeclared.1, hdeclared.2.trans h⟩
    | _ =>
      rw [hchange] at h
      cases h
  · rintro ⟨st, ⟨hevent, v, hv, hproblem⟩, ⟨hword, hname⟩ | ⟨hword, hbound⟩⟩
    · obtain ⟨name, x, hname', hx⟩ :=
        State.gives_survey (Verdict.gives_makeNamedMaterial_change hmaterials hword) hv
      rw [Moment.change_of_survey hevent (by simp [hword]) hv, hx]
      exact hname'.symm.trans hname
    · have hchange := Moment.change_of_survey hevent (by simp [hword]) hv
      obtain hnone | ⟨x, hx⟩ :=
        State.gives_survey (Verdict.gives_material_kinds hmaterials hword) hv hproblem
      · rw [Moment.graphics_behind_bindMaterial (hchange.trans hnone)] at hbound
        cases hbound
      · rw [Moment.graphics_behind_freshMaterial (hchange.trans hx)] at hbound
        rw [hchange, hx]
        exact hbound

/-! ## Runs -/

theorem Moment.mem_materials_behind (hmaterials : ctx.options.skipMaterials = false) {m : Moment α}
    {n : String} :
    n ∈ (m.behind ctx).ledger.materials ↔ n ∈ m.state.ledger.materials ∨ m.Declares ctx n := by
  rw [m.ledger_behind, Ledger.mem_after, ← Moment.declared?_change_iff hmaterials]
  rfl

theorem Declared.cons_iff {m : Moment α} {past : List (Moment α)} {n : String} :
    Declared ctx (m :: past) n ↔ m.Declares ctx n ∨ Declared ctx past n := by
  simp [Declared]

theorem Follows.mem_materials (hmaterials : ctx.options.skipMaterials = false) {past : List (Moment α)}
    {x y : Ledger α} (h : Follows ctx State.ledger past x y) {n : String} :
    n ∈ y.materials ↔ n ∈ x.materials ∨ Declared ctx past n := by
  induction h with
  | nil x => simp [Declared]
  | cons _ ih => rw [ih, Moment.mem_materials_behind hmaterials, Declared.cons_iff, or_assoc]

/-- The materials there are at a moment are the ones that were declared before it. -/
theorem Scene.Passes.mem_materials {scene : Scene} {past rest : List (Moment α)} {m : Moment α}
    {t : State α} (h : scene.Passes ctx (past ++ m :: rest) t)
    (hmaterials : ctx.options.skipMaterials = false) {n : String} :
    n ∈ m.state.materials ↔ Declared ctx past n := by
  obtain ⟨y, hpast, hrest⟩ := (State.inert_ledger.follows h).split
  cases hrest
  exact (hpast.mem_materials hmaterials).trans (or_iff_right List.not_mem_nil)

/-! ## Uses -/

/-- The directive makes a material that blends others. -/
def Statement.Blends (st : Statement) : Prop :=
  Action.ofWord st.word = .material ∧ st.text? = some "mix" ∨
    Action.ofWord st.word = .makeNamedMaterial ∧ st.text?.isSome = true ∧
      (st.parameters.value? "type").bind Value.word? = some "mix"

def Change.material? : Change α → Option Material
  | freshMaterial m => m
  | namedMaterial _ m => some m
  | _ => none

/-- The directive is accepted and makes a blend of these two materials. -/
def Moment.Mixes (ctx : Context) (m : Moment α) (first second : String) : Prop :=
  ∃ st amount, m.Accepts ctx st ∧ (m.change ctx).material? = some (.blend first second amount)

/-- The name becomes the current material, and nothing else happens. -/
def Moment.Binds (ctx : Context) (m : Moment α) (n : String) : Prop :=
  (m.behind ctx).graphics = { m.state.graphics with material := some n } ∧ m.raised ctx = []

/-- Nothing is bound, and the only thing reported is a semantic problem with the name. -/
def Moment.Spurns (ctx : Context) (m : Moment α) (n : String) : Prop :=
  (m.behind ctx).graphics = m.state.graphics ∧
    ∃ d, m.raised ctx = [d] ∧ d.kind = .semantic ∧
      d.message = "NamedMaterial " ++ Problem.quoted n ++ " unknown"

theorem Moment.change_of_blends {m : Moment α} {st : Statement} (hevent : m.event = .statement st)
    (h : st.Blends) (hmaterials : ctx.options.skipMaterials = false) :
    ∃ name, (m.change ctx).material? =
      (Material.blended m.state.hasMaterial name st.parameters.value?).toOption := by
  obtain ⟨hword, hkind⟩ | ⟨hword, hname, hkind⟩ := h
  · refine ⟨m.state.counters.next .material, ?_⟩
    rw [Moment.change_of_reads (Verdict.reads_blend hword hkind hmaterials) hevent (by simp [hword])]
    change _ = (Material.blended (m.state.moveTo m.source st.line).hasMaterial
      ((m.state.moveTo m.source st.line).counters.next .material) st.parameters.value?).toOption
    generalize Material.blended _ _ st.parameters.value? = blended
    cases blended <;> rfl
  · obtain ⟨name, hname⟩ := Option.isSome_iff_exists.1 hname
    refine ⟨name, ?_⟩
    rw [Moment.change_of_reads (Verdict.reads_namedBlend hword hname hkind hmaterials) hevent
      (by simp [hword])]
    change _ = (Material.blended (m.state.moveTo m.source st.line).hasMaterial name
      st.parameters.value?).toOption
    generalize Material.blended _ _ st.parameters.value? = blended
    cases blended <;> rfl

theorem Moment.mixes_iff {m : Moment α} {st : Statement} (hevent : m.event = .statement st)
    (h : st.Blends) (hmaterials : ctx.options.skipMaterials = false) {first second : String} :
    m.Mixes ctx first second ↔ blendedNames st.parameters.value? = [first, second] ∧
      (first ≠ "" ∧ first ∈ m.state.materials) ∧ second ≠ "" ∧ second ∈ m.state.materials := by
  obtain ⟨name, hname⟩ := m.change_of_blends hevent h hmaterials
  have hok (x : Material) : (m.change ctx).material? = some x ↔
      Material.blended m.state.hasMaterial name st.parameters.value? = .ok x := by
    rw [hname]
    cases Material.blended m.state.hasMaterial name st.parameters.value? <;> simp [Except.toOption]
  have haccepts (x : Material) (hx : (m.change ctx).material? = some x) : ∃ st, m.Accepts ctx st := by
    obtain ⟨n, hn⟩ : ∃ n, (m.change ctx).declared? 0 = some n := by
      generalize m.change ctx = c at hx
      cases c with
      | freshMaterial y => cases y <;> [cases hx; exact ⟨_, rfl⟩]
      | namedMaterial n y => exact ⟨n, rfl⟩
      | _ => cases hx
    obtain ⟨st, hst, -⟩ := Moment.accepts_of_declared? hn
    exact ⟨st, hst⟩
  have hmem (n : String) : m.state.hasMaterial n = true ↔ n ∈ m.state.materials := by
    simp [State.hasMaterial]
  rw [← hmem, ← hmem, ← Material.blended_eq_blend_iff name]
  constructor
  · rintro ⟨st, amount, -, hx⟩
    exact ⟨amount, (hok _).1 hx⟩
  · rintro ⟨amount, hx⟩
    obtain ⟨st, hst⟩ := haccepts _ ((hok _).2 hx)
    exact ⟨st, amount, hst, (hok _).2 hx⟩

section

variable {m : Moment α} {st : Statement} {n : String}

theorem Moment.raised_of_namedMaterial (hevent : m.event = .statement st)
    (h : Action.ofWord st.word = .namedMaterial) (hname : st.text? = some n)
    (hmaterials : ctx.options.skipMaterials = false) :
    m.raised ctx = if n ∈ m.state.materials then []
      else [(Problem.materialUndeclared n).diagnostic m.source st.line] := by
  unfold raised
  rw [hevent]
  dsimp only
  rw [if_neg (by simp [h]), State.survey_namedMaterial h hname hmaterials]
  by_cases hmem : n ∈ m.state.materials <;>
    simp [hmem, State.hasMaterial, Survey.problems, Survey.flaw?, Problem.reports, Findings.start]

theorem Moment.binds_of_mem (hevent : m.event = .statement st)
    (h : Action.ofWord st.word = .namedMaterial) (hname : st.text? = some n)
    (hmaterials : ctx.options.skipMaterials = false) (hmem : n ∈ m.state.materials) :
    m.Binds ctx n := by
  have hsurvey : (m.state.survey ctx m.source st).1 = .ok ⟨.bindMaterial (some n), none, []⟩ := by
    rw [State.survey_namedMaterial h hname hmaterials]
    exact if_pos (by simpa [State.hasMaterial] using hmem)
  refine ⟨Moment.graphics_behind_bindMaterial ?_, ?_⟩
  · exact Moment.change_of_survey hevent (by simp [h]) hsurvey
  · rw [Moment.raised_of_namedMaterial hevent h hname hmaterials, if_pos hmem]

theorem Moment.spurns_of_not_mem (hevent : m.event = .statement st)
    (h : Action.ofWord st.word = .namedMaterial) (hname : st.text? = some n)
    (hmaterials : ctx.options.skipMaterials = false) (hmem : n ∉ m.state.materials) :
    m.Spurns ctx n := by
  have hchange : m.change ctx = .nothing := by
    unfold Moment.change
    rw [hevent]
    dsimp only
    rw [if_neg (by simp [h]), State.survey_namedMaterial h hname hmaterials,
      if_neg (by simpa [State.hasMaterial] using hmem)]
    rfl
  obtain ⟨u, hgraphics, -, hbehind⟩ := m.exists_graphics_behind ctx
  refine ⟨?_, _, (Moment.raised_of_namedMaterial hevent h hname hmaterials).trans (if_neg hmem), rfl, rfl⟩
  rw [hbehind, hchange, ← hgraphics]
  rfl

end

/-- A name can be used exactly where a material was declared under it before, by a directive that gives
the name or by an anonymous material that got it. Otherwise its use is reported, once, and changes
nothing. A blend cannot use an empty name. -/
theorem Scene.Passes.names_declared {scene : Scene} {past rest : List (Moment α)} {m : Moment α}
    {t : State α} {st : Statement} (h : scene.Passes ctx (past ++ m :: rest) t)
    (hmaterials : ctx.options.skipMaterials = false) (hevent : m.event = .statement st) :
    (∀ n, Action.ofWord st.word = .namedMaterial → st.text? = some n →
      (m.Binds ctx n ↔ Declared ctx past n) ∧ (¬Declared ctx past n → m.Spurns ctx n)) ∧
    (st.Blends → ∀ first second, m.Mixes ctx first second ↔
      blendedNames st.parameters.value? = [first, second] ∧
        (first ≠ "" ∧ Declared ctx past first) ∧ second ≠ "" ∧ Declared ctx past second) := by
  have hdeclared (n : String) : n ∈ m.state.materials ↔ Declared ctx past n := h.mem_materials hmaterials
  refine ⟨fun n hword hname => ?_, fun hblends first second => ?_⟩
  · have hspurns : n ∉ m.state.materials → m.Spurns ctx n :=
      Moment.spurns_of_not_mem hevent hword hname hmaterials
    rw [← hdeclared]
    refine ⟨⟨fun hbinds => ?_, Moment.binds_of_mem hevent hword hname hmaterials⟩, hspurns⟩
    by_contra hmem
    obtain ⟨-, d, hd, -⟩ := hspurns hmem
    rw [hbinds.2] at hd
    cases hd
  · rw [← hdeclared, ← hdeclared]
    exact Moment.mixes_iff hevent hblends hmaterials

/-- A material is declared under a name, which is then used. -/
theorem Scene.Passes.names_declared_red :
    ∃ (m m' : Moment Float32) (t : State Float32),
      Passes Conversion.solitary
        (.text "MakeNamedMaterial \"red\" \"string type\" \"matte\" NamedMaterial \"red\"") [m, m'] t ∧
      m'.event = .statement ⟨1, "NamedMaterial", some (.text "red"), ⟨[]⟩⟩ ∧
      m'.Binds Conversion.solitary "red" := by
  let ctx := Conversion.solitary
  let type : Parameter := ⟨"type", some "string", .text "matte", false⟩
  let first : Statement := ⟨1, "MakeNamedMaterial", some (.text "red"), ⟨[type]⟩⟩
  let second : Statement := ⟨1, "NamedMaterial", some (.text "red"), ⟨[]⟩⟩
  have hevents : Event.ofText true
      "MakeNamedMaterial \"red\" \"string type\" \"matte\" NamedMaterial \"red\"" =
        [first, second].map Event.statement := by cbv
  have hpasses := @Scene.passes_series Float32 _ ctx _ _ hevents (by decide) (by decide +kernel)
  have huses := @Scene.Passes.names_declared _ _ ctx _ [_] [] _ _ second hpasses rfl rfl
  refine ⟨_, _, _, hpasses, rfl, (huses.1 "red" (by decide) rfl).1.2
    ⟨_, List.mem_singleton_self _, first, ⟨rfl, ?_⟩, .inl ⟨by decide, rfl⟩⟩⟩
  have hflawless : ((State.opening ctx : State Float32).survey ctx ctx.input first).1.toOption.map
      (fun v => v.problem.isNone) = some true := by decide +kernel
  cases hv : ((State.opening ctx : State Float32).survey ctx ctx.input first).1 with
  | error r =>
    rw [hv] at hflawless
    cases hflawless
  | ok v =>
    rw [hv] at hflawless
    exact ⟨v, rfl, by simpa [Except.toOption] using hflawless⟩

/-- A name that an anonymous material got can be used as well. -/
theorem Scene.Passes.names_anonymous :
    ∃ (m m' : Moment Float32) (t : State Float32),
      Passes Conversion.solitary (.text "Material \"matte\" NamedMaterial \"material_0\"") [m, m'] t ∧
      m'.event = .statement ⟨1, "NamedMaterial", some (.text "material_0"), ⟨[]⟩⟩ ∧
      m'.Binds Conversion.solitary "material_0" ∧
      ∀ st, m.event = .statement st → Action.ofWord st.word ≠ .makeNamedMaterial := by
  let ctx := Conversion.solitary
  let first : Statement := ⟨1, "Material", some (.text "matte"), ⟨[]⟩⟩
  let second : Statement := ⟨1, "NamedMaterial", some (.text "material_0"), ⟨[]⟩⟩
  have hevents : Event.ofText true "Material \"matte\" NamedMaterial \"material_0\"" =
      [first, second].map Event.statement := by cbv
  have hpasses := @Scene.passes_series Float32 _ ctx _ _ hevents (by decide) (by decide +kernel)
  refine ⟨_, _, _, hpasses, rfl, Moment.binds_of_mem rfl (by decide) rfl rfl (by decide +kernel), ?_⟩
  intro st hst
  cases hst
  decide

end SceneConvert
