import SceneConvert.Proofs.Survey.Outcome

/-!
# SceneConvert.Proofs.Survey.Verdicts

What each directive can come to.

* `Survey.Gives`: every result is of some kind.
* `Change.isPlain`, `Action.isPlain`: what has to do neither with scopes nor with shapes.
* `Change.DeclaredBy`: a change declares no other name than the operand of its directive.
* `Verdict.modest_ofStatement`: a plain directive makes a plain change, and only three of them change
  anything although there is a problem.
* `State.survey_openScope`, `survey_closeScope`, `survey_endWorld`, `survey_beginObject`,
  `survey_endObject`, `survey_drawObject`, `survey_shape`: the other directives, exactly.
* `State.staged_of_survey`: what they come to, in one place.
* `State.declaredBy_of_survey`: what any directive declares.
-/

namespace SceneConvert

namespace Survey

variable {β γ : Type} {P : β → Prop} {Q : γ → Prop}

/-- Every result of the survey satisfies `P`. -/
structure Gives (m : Survey β) (P : β → Prop) : Prop where
  gives : ∀ f b g, m.outcome f = (.ok b, g) → P b

theorem gives_pure {b : β} (h : P b) : Gives (pure b) P := by
  refine ⟨fun f b' g hb => ?_⟩
  cases hb
  exact h

theorem gives_refuse (p : Problem) : Gives (refuse p) P := ⟨fun _ _ _ h => by cases h⟩

theorem gives_bind {m : Survey β} {k : β → Survey γ} (hm : Gives m P) (hk : ∀ b, P b → Gives (k b) Q) :
    Gives (m >>= k) Q := by
  refine ⟨fun f c h hc => ?_⟩
  rw [outcome_bind] at hc
  rcases hb : m.outcome f with ⟨r | b, g⟩ <;> rw [hb] at hc
  · cases hc
  · exact (hk b (hm.gives f b g hb)).gives g c h hc

theorem gives_then {m : Survey β} {k : β → Survey γ} (hk : ∀ b, Gives (k b) Q) :
    Gives (m >>= k) Q :=
  gives_bind (P := fun _ => True) ⟨fun _ _ _ _ => trivial⟩ fun b _ => hk b

theorem gives_when {c : Prop} {_ : Decidable c} {m : Survey β} {k : β → Survey γ} {n : Survey γ}
    (hk : ∀ b, Gives (k b) Q) (hn : Gives n Q) : Gives (if c then m >>= k else n) Q := by
  split
  · exact gives_then hk
  · exact hn

theorem gives_if {c : Prop} {_ : Decidable c} {m n : Survey β} (hm : Gives m P) (hn : Gives n P) :
    Gives (if c then m else n) P := by
  split
  · exact hm
  · exact hn

end Survey

open Survey

variable {α : Type}

/-- The fragments define a texture of this name, and at most the image it is a multiple of before it. -/
def Fragment.TextureOf (name : String) (fs : List (Fragment α)) : Prop :=
  fs.map reference = [(.texture, name)] ∨
    fs.map reference = [(.texture, name ++ "-tex"), (.texture, name)]

theorem Fragment.TextureOf.all_family {name : String} {fs : List (Fragment α)} (h : TextureOf name fs) :
    fs.all (fun f => f.family = .texture) = true := by
  have hall : (fs.map reference).all (fun r => r.1 = .texture) = true := by
    rcases h with h | h <;> rw [h] <;> rfl
  rwa [List.all_map] at hall

namespace Change

/-- A change that neither opens nor closes anything and adds no shape. -/
def isPlain : Change α → Bool
  | endWorld | openScope | closeScope | beginObject _ | endObject | drawObject _ | shape _ => false
  | texture _ fragments => fragments.all fun f => f.family = .texture
  | _ => true

/-- A plain change that gives nothing a name of the scene and is no new camera. -/
def isMere : Change α → Bool
  | namedMaterial .. | texture .. | camera (some _) => false
  | c => c.isPlain

theorem isPlain_of_isMere {c : Change α} (h : c.isMere = true) : c.isPlain = true := by
  cases c <;> first | exact h | cases h | rfl

/-- If the change declares a name, that is the operand of the directive. A new camera has one, its kind. -/
def DeclaredBy (a : Action) (operand : Option String) : Change α → Prop
  | camera (some _) => a = .camera ∧ operand.isSome = true
  | namedMaterial name _ => a = .makeNamedMaterial ∧ operand = some name
  | texture name fragments => a = .texture ∧ operand = some name ∧ Fragment.TextureOf name fragments
  | _ => True

theorem declaredBy_of_isMere {c : Change α} (h : c.isMere = true) {a : Action} {operand : Option String} :
    c.DeclaredBy a operand := by
  cases c with
  | camera k =>
    cases k with
    | none => trivial
    | some k => cases h
  | namedMaterial | texture => cases h
  | _ => trivial

end Change

namespace Action

/-- A directive that has to do neither with scopes and objects nor with shapes. -/
def isPlain : Action → Bool
  | worldEnd | attributeBegin | attributeEnd | transformBegin | transformEnd | objectBegin | objectEnd
  | objectInstance | shape => false
  | _ => true

end Action

namespace Verdict

/-- What a plain directive with this operand can come to. -/
structure Modest (a : Action) (operand : Option String) (v : Verdict α) : Prop where
  plain : v.change.isPlain = true
  declared : v.change.DeclaredBy a operand
  flawed : ∀ p, v.problem = some p →
    a = .camera ∧ v.change = .camera none ∨ a = .material ∧ v.change = .freshMaterial none ∨
      a = .areaLightSource ∧ v.change = .emission none

variable {a : Action} {operand : Option String} {s : State α} {st : Statement}

theorem modest_of_isMere {v : Verdict α} (h : v.change.isMere = true) (hproblem : v.problem = none) :
    Modest a operand v :=
  ⟨Change.isPlain_of_isMere h, Change.declaredBy_of_isMere h, fun p hp => by simp [hproblem] at hp⟩

theorem gives_accept {change : Change α} (h : change.isMere = true) :
    Gives (accept change) (Modest a operand) := gives_pure (modest_of_isMere h rfl)

theorem gives_acceptUsed {change : Change α} (h : change.isMere = true) :
    Gives (acceptUsed change) (Modest a operand) :=
  gives_then fun _ => gives_pure (modest_of_isMere h rfl)

theorem gives_text : Gives st.text fun name => st.text? = some name := by
  unfold Statement.text Survey.require
  split
  · exact gives_pure ‹_›
  · exact gives_refuse _

theorem gives_cameraVerdict [Scalar α] (ctx : Context) :
    Gives (camera ctx s st) (Modest .camera st.text?) := by
  refine gives_bind gives_text fun kind hkind => gives_if (gives_accept rfl) (gives_then fun c => ?_)
  cases c with
  | error p => exact gives_pure ⟨rfl, trivial, fun _ _ => .inl ⟨rfl, rfl⟩⟩
  | ok c => exact gives_then fun _ => gives_pure ⟨rfl, ⟨rfl, by rw [hkind]; rfl⟩, nofun⟩

theorem gives_materialVerdict (ctx : Context) : Gives (material ctx s st) (Modest .material operand) := by
  refine gives_then fun kind => gives_if (gives_accept rfl) (gives_if (gives_accept rfl) ?_)
  refine gives_then fun m => ?_
  cases m with
  | error p => exact gives_pure ⟨rfl, trivial, fun _ _ => .inr (.inl ⟨rfl, rfl⟩)⟩
  | ok m => exact gives_acceptUsed rfl

theorem gives_areaLightVerdict (ctx : Context) :
    Gives (areaLight ctx s st) (Modest .areaLightSource operand) := by
  refine gives_then fun kind => gives_if (gives_accept rfl) (gives_then fun c => ?_)
  cases c with
  | error p => exact gives_pure ⟨rfl, trivial, fun _ _ => .inr (.inr ⟨rfl, rfl⟩)⟩
  | ok c => exact gives_acceptUsed rfl

theorem gives_makeNamedMaterial (ctx : Context) :
    Gives (makeNamedMaterial ctx s st) (Modest .makeNamedMaterial st.text?) := by
  refine gives_bind gives_text fun name hname => gives_if (gives_accept rfl) (gives_then fun kind => ?_)
  refine gives_if (gives_refuse _) (gives_when (fun _ => ?_) ?_) <;>
    exact gives_then fun m => gives_then fun _ => gives_pure ⟨rfl, ⟨rfl, hname⟩, nofun⟩

theorem gives_namedMaterial (ctx : Context) : Gives (namedMaterial ctx s st) (Modest a operand) :=
  gives_then fun _ => gives_if (gives_accept rfl) (gives_if (gives_accept rfl) (gives_refuse _))

theorem gives_texture (ctx : Context) (source : Path) (name : String) :
    Gives (Survey.texture ctx s source name) (Fragment.TextureOf name) := by
  have node (spec : Survey Node.Spec) :
      Gives (return [.node name (← spec)] : Survey (List (Fragment α))) (Fragment.TextureOf name) :=
    gives_then fun _ => gives_pure (.inl rfl)
  refine gives_then fun (class_, kind) => ?_
  dsimp only
  split
  · exact node _
  · exact node _
  · exact node _
  · refine gives_then fun (image, factor) => gives_pure ?_
    cases factor with
    | none => exact .inl rfl
    | some factor => exact .inr rfl
  · exact node _
  · exact gives_refuse _

theorem gives_textureVerdict (ctx : Context) (source : Path) :
    Gives (texture ctx s source st) (Modest .texture st.text?) := by
  refine gives_if (gives_accept rfl) (gives_bind gives_text fun name hname => ?_)
  refine gives_bind (gives_texture ctx source name) fun fragments hfragments => ?_
  exact gives_then fun _ =>
    gives_pure ⟨hfragments.all_family, ⟨rfl, hname, hfragments⟩, nofun⟩

variable [Scalar α]

theorem gives_lightVerdict (ctx : Context) (source : Path) :
    Gives (light ctx s source st) (Modest a operand) :=
  gives_then fun _ => gives_if (gives_accept rfl) (gives_then fun _ => gives_acceptUsed rfl)

/-- A plain directive makes a plain change. If there is a problem, the change is that of a camera, a
material or an emission that is left out. -/
theorem modest_ofStatement (ctx : Context) (source : Path)
    (h : (Action.ofWord st.word).isPlain = true) :
    Gives (ofStatement ctx s source st) (Modest (Action.ofWord st.word) st.text?) := by
  have placed {β : Type} {m : Survey β} {change : β → Change α}
      (hmere : ∀ b, (change b).isMere = true) :
      Gives (do accept (change (← m))) (Modest (Action.ofWord st.word) st.text?) :=
    gives_then fun b => gives_accept (hmere b)
  unfold ofStatement
  generalize Action.ofWord st.word = a at h placed ⊢
  cases a
  case translate => exact placed fun _ => rfl
  case rotate => exact gives_then fun _ => placed fun _ => rfl
  case scale => exact gives_then fun _ => placed fun _ => rfl
  case lookAt => exact gives_then fun _ => placed fun _ => rfl
  case transform => exact placed fun _ => rfl
  case concatTransform => exact placed fun _ => rfl
  case coordinateSystem => exact placed fun _ => rfl
  case coordSysTransform => exact gives_then fun _ => placed fun _ => rfl
  case camera => exact gives_cameraVerdict ctx
  case film => exact placed fun _ => rfl
  case sampler => exact placed fun _ => rfl
  case integrator => exact placed fun _ => rfl
  case material => exact gives_materialVerdict ctx
  case makeNamedMaterial => exact gives_makeNamedMaterial ctx
  case namedMaterial => exact gives_namedMaterial ctx
  case texture => exact gives_textureVerdict ctx source
  case lightSource => exact gives_lightVerdict ctx source
  case areaLightSource => exact gives_areaLightVerdict ctx
  case ignored => exact gives_then fun _ => gives_accept rfl
  case unsupported => exact gives_refuse _
  case unknown => exact gives_refuse _
  case identity | worldBegin | reverseOrientation | include_ => exact gives_accept rfl
  all_goals cases h

end Verdict

/-! ## Scopes, objects and shapes -/

theorem Statement.outcome_text (st : Statement) (f : Findings) :
    st.text.outcome f =
      (match st.text? with
        | some name => .ok name
        | none => .error (.problem (.textExpected st.word)), f) := by
  unfold text
  cases st.text? <;> rfl

namespace State

variable [Scalar α] {ctx : Context} {source : Path} {s : State α} {st : Statement}

theorem survey_openScope (h : Action.ofWord st.word = .attributeBegin ∨
      Action.ofWord st.word = .transformBegin) :
    s.survey ctx source st =
      (.ok ⟨.openScope, none, []⟩, .start st.parameters s.counters.spectrum) := by
  unfold survey Verdict.ofStatement
  rcases h with h | h <;> rw [h] <;> rfl

theorem survey_closeScope (h : Action.ofWord st.word = .attributeEnd ∨
      Action.ofWord st.word = .transformEnd) :
    s.survey ctx source st =
      (if s.saved.isEmpty then .error (.problem (.scopeUnmatched st.word))
        else .ok ⟨.closeScope, none, []⟩, .start st.parameters s.counters.spectrum) := by
  have close : (Verdict.closeScope (s.moveTo source st.line) st).outcome
      (.start st.parameters s.counters.spectrum) =
        (if s.saved.isEmpty then .error (.problem (.scopeUnmatched st.word))
          else .ok ⟨.closeScope, none, []⟩, .start st.parameters s.counters.spectrum) := by
    unfold Verdict.closeScope
    change (if s.saved.isEmpty then refuse _ else _ : Survey (Verdict α)).outcome _ = _
    split <;> rfl
  unfold survey Verdict.ofStatement
  rcases h with h | h <;> rw [h] <;> exact close

theorem survey_endWorld (ctx : Context) (source : Path) (s : State α)
    (h : Action.ofWord st.word = .worldEnd) :
    ∃ items, s.survey ctx source st =
      (.ok ⟨.endWorld, s.openObject.map fun o => .objectOpen o.name, []⟩, items) := by
  have remarks (gs : List (Graphics α)) (f : Findings) :
      ∃ g, Survey.outcome (gs.forM fun _ => Survey.remark Remark.scopeUnclosed) f = (.ok (), g) := by
    induction gs generalizing f with
    | nil => exact ⟨f, rfl⟩
    | cons g gs ih =>
      obtain ⟨g, hg⟩ := ih { f with items := f.items.push (.remark .scopeUnclosed) }
      exact ⟨g, by rw [← hg]; rfl⟩
  obtain ⟨g, hg⟩ := remarks s.saved (.start st.parameters s.counters.spectrum)
  refine ⟨g, ?_⟩
  unfold survey Verdict.ofStatement
  rw [h]
  refine (outcome_bind_ok hg).trans ?_
  rw [show (s.moveTo source st.line).openObject = s.openObject from rfl]
  cases s.openObject <;> rfl

theorem survey_beginObject (h : Action.ofWord st.word = .objectBegin) :
    (s.survey ctx source st).1 =
      match st.text? with
      | none => .error (.problem (.textExpected st.word))
      | some name =>
        .ok ⟨.beginObject name, if s.openObject.isSome then some .objectNested else none, []⟩ := by
  unfold survey Verdict.ofStatement
  rw [h]
  unfold Verdict.beginObject
  dsimp only
  rw [outcome_bind, st.outcome_text]
  cases st.text? with
  | none => rfl
  | some name =>
    change (Survey.outcome (if s.objects.contains name then _ else _) _).1 = _
    cases s.objects.contains name <;>
      (change (Survey.outcome (if s.openObject.isSome then _ else _) _).1 = _
       cases s.openObject <;> rfl)

theorem survey_endObject (h : Action.ofWord st.word = .objectEnd) :
    s.survey ctx source st =
      (.ok ⟨.endObject, if s.saved.isEmpty then some (.scopeUnmatched "ObjectEnd") else none, []⟩,
        ⟨st.parameters, if s.openObject.isNone then #[.problem .objectEndStray] else #[],
          s.counters.spectrum⟩) := by
  unfold survey Verdict.ofStatement
  rw [h]
  change (Verdict.endObject (s.moveTo source st.line)).outcome _ = _
  unfold Verdict.endObject
  change Survey.outcome (if s.openObject.isNone then _ else _) _ = _
  cases s.openObject <;>
    (change Survey.outcome (if s.saved.isEmpty then _ else _) _ = _
     cases s.saved <;> rfl)

theorem survey_drawObject (h : Action.ofWord st.word = .objectInstance) :
    (s.survey ctx source st).1 =
      match st.text? with
      | none => .error (.problem (.textExpected st.word))
      | some name =>
        if ctx.options.skipInstances then .ok ⟨.nothing, none, []⟩
        else if s.openObject.isSome then .error (.problem .instanceInObject)
        else match s.objects.get? name with
          | none => .error (.problem (.objectUnknown name))
          | some records => .ok ⟨.drawObject records, none, []⟩ := by
  unfold survey Verdict.ofStatement
  rw [h]
  unfold Verdict.drawObject
  dsimp only
  rw [outcome_bind, st.outcome_text]
  cases st.text? with
  | none => rfl
  | some name =>
    dsimp only
    split
    · rfl
    · change (Survey.outcome (if s.openObject.isSome then _ else _) _).1 = _
      split
      · rfl
      · change (Survey.outcome (require _ (s.objects.get? name) >>= _) _).1 = _
        cases s.objects.get? name <;> rfl

theorem survey_shape {v : Verdict α} (h : Action.ofWord st.word = .shape)
    (hv : (s.survey ctx source st).1 = .ok v) :
    v.problem = none ∧ (v.change = .nothing ∨ ∃ plan, v.change = .shape plan) := by
  have shape : Gives (Verdict.shape ctx (s.moveTo source st.line) source st)
      fun v => v.problem = none ∧ (v.change = .nothing ∨ ∃ plan, v.change = .shape plan) := by
    refine gives_then fun kind => gives_if (gives_pure ⟨rfl, .inl rfl⟩) (gives_then fun plan => ?_)
    exact gives_then fun _ => gives_pure ⟨rfl, .inr ⟨plan, rfl⟩⟩
  unfold survey Verdict.ofStatement at hv
  rw [h] at hv
  exact shape.gives _ v _ (Prod.ext hv rfl)

/-- What a directive about scopes, objects or shapes comes to, the change and its problem, unless it is
refused. -/
inductive Staged (s : State α) : Action → Change α → Option Problem → Prop
  | nothing (a : Action) : Staged s a .nothing none
  | opens (a : Action) : Staged s a .openScope none
  | closes (a : Action) : Staged s a .closeScope none
  | closesAll : Staged s .worldEnd .endWorld (s.openObject.map fun o => .objectOpen o.name)
  | begins (name : String) :
    Staged s .objectBegin (.beginObject name) (if s.openObject.isSome then some .objectNested else none)
  | ends :
    Staged s .objectEnd .endObject (if s.saved.isEmpty then some (.scopeUnmatched "ObjectEnd") else none)
  | draws (a : Action) (records : Array (Placed α)) : Staged s a (.drawObject records) none
  | adds (a : Action) (plan : ShapePlan) : Staged s a (.shape plan) none

theorem staged_of_survey {v : Verdict α} (h : (Action.ofWord st.word).isPlain = false)
    (hv : (s.survey ctx source st).1 = .ok v) :
    s.Staged (Action.ofWord st.word) v.change v.problem := by
  cases ha : Action.ofWord st.word <;> rw [ha] at h <;> try exact absurd h.symm Bool.false_ne_true
  case worldEnd =>
    obtain ⟨items, hworld⟩ := survey_endWorld ctx source s ha
    rw [hworld] at hv
    cases hv
    exact .closesAll
  case attributeBegin =>
    rw [survey_openScope (.inl ha)] at hv
    cases hv
    exact .opens _
  case transformBegin =>
    rw [survey_openScope (.inr ha)] at hv
    cases hv
    exact .opens _
  case attributeEnd =>
    rw [survey_closeScope (.inl ha)] at hv
    split at hv <;> cases hv
    exact .closes _
  case transformEnd =>
    rw [survey_closeScope (.inr ha)] at hv
    split at hv <;> cases hv
    exact .closes _
  case objectBegin =>
    rw [survey_beginObject ha] at hv
    split at hv <;> cases hv
    exact .begins _
  case objectEnd =>
    rw [survey_endObject ha] at hv
    cases hv
    exact .ends
  case objectInstance =>
    rw [survey_drawObject ha] at hv
    split at hv
    · cases hv
    · split at hv
      · cases hv
        exact .nothing _
      · split at hv
        · cases hv
        · split at hv <;> cases hv
          exact .draws _ _
  case shape =>
    obtain ⟨hp, hc | ⟨plan, hc⟩⟩ := survey_shape ha hv
    · rw [hp, hc]
      exact .nothing _
    · rw [hp, hc]
      exact .adds _ plan

theorem declaredBy_of_survey {v : Verdict α} (hv : (s.survey ctx source st).1 = .ok v) :
    v.change.DeclaredBy (Action.ofWord st.word) st.text? := by
  cases ha : (Action.ofWord st.word).isPlain with
  | true => exact ((Verdict.modest_ofStatement ctx source ha).gives _ v _ (Prod.ext hv rfl)).declared
  | false =>
    have hstaged := staged_of_survey ha hv
    generalize Action.ofWord st.word = a, v.change = change, v.problem = problem at hstaged ⊢
    cases hstaged <;> trivial

theorem declaredBy_change (ctx : Context) (source : Path) (s : State α) (st : Statement) :
    (Survey.change (s.survey ctx source st).1).DeclaredBy (Action.ofWord st.word) st.text? := by
  cases hv : (s.survey ctx source st).1 with
  | error r => trivial
  | ok v => exact declaredBy_of_survey hv

end State

end SceneConvert
