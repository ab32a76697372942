import SceneConvert.Proofs.Run.Core
import SceneConvert.Proofs.Run.Plain
import SceneConvert.Proofs.Survey.Agrees

/-!
# SceneConvert.Proofs.Survey.Lessens

A directive that is surveyed with a switch turned on and without.

* `akin_light`, `same_camera`, `agrees_shape`: agreement of the remaining surveys.
* `Survey.Lessens`: one survey comes to no other problems than another one, and to the same core.
* `lessens_skip`: leaving out what does not change the core.
* `Verdict.lessens_ofStatement`: with the switch turned on no directive has more problems, undeclared
  textures apart where textures are left out.
-/

namespace SceneConvert

namespace Survey

variable {α : Type} {keep : Problem → Bool} {s t : State α}

/-! ## Lights -/

section

variable [Scalar α]

theorem same_point {name : String} {bad : Problem} {default : Vec3 α} (hbad : bad.kind ≠ .lexical) :
    Same keep (point name bad default) (point name bad default) :=
  same_of_leads (v := .blank []) rfl fun _ _ => Site.leads_point hbad

variable (h : s.Resembles keep t)

include h

theorem akin_pointLight : Akin keep (pointLight s) (pointLight t) :=
  agrees_same (same_point nofun) fun _ => agrees_akin (akin_illuminant h) fun _ _ => akin_pure

theorem akin_distantLight : Akin keep (distantLight s) (distantLight t) := by
  refine agrees_same (same_point nofun) fun source => agrees_same (same_point nofun) fun target => ?_
  dsimp only
  rw [h.transform]
  exact agrees_if agrees_refuse (agrees_akin (akin_illuminant h) fun _ _ => akin_pure)

theorem akin_environmentLight {ctx ctx' : Context} {source : Path} :
    Akin keep (environmentLight ctx s source) (environmentLight ctx' t source) := by
  refine agrees_same same_scale fun factor => agrees_same same_word fun filename => agrees_if ?_ ?_
  · exact agrees_akin (akin_color h) fun _ _ => akin_pure
  · exact agrees_same same_has fun colored => agrees_when same_remark fun _ => akin_pure

theorem akin_light {ctx ctx' : Context} {source : Path} {kind : String} :
    Akin keep (light ctx s source kind) (light ctx' t source kind) := by
  unfold light
  split
  · exact akin_pointLight h
  · exact akin_distantLight h
  · exact akin_environmentLight h
  · exact agrees_refuse

omit [Scalar α] in
theorem akin_areaLight {kind : String} : Akin keep (areaLight s kind) (areaLight t kind) := by
  unfold areaLight
  split
  · exact akin_illuminant h
  · exact akin_illuminant h
  · exact agrees_refuse

end

/-! ## Cameras and shapes -/

theorem same_camera {kind : String} {cameraToWorld : Transform α} :
    Same keep (camera kind cameraToWorld) (camera kind cameraToWorld) :=
  same_of_leads (v := .blank []) rfl fun _ _ => Site.leads_camera

theorem same_film : Same keep film film :=
  same_of_leads (v := .blank []) rfl fun _ _ => Site.leads_film

theorem same_sphere : Same keep sphere sphere :=
  same_of_leads (v := .blank []) rfl fun _ _ => Site.leads_sphere

theorem same_triangleMesh : Same keep triangleMesh triangleMesh :=
  same_of_leads (v := .blank []) rfl fun _ _ => Site.leads_triangleMesh

/-- Plans that leave the same in the output. -/
abbrev SameImprint (plan plan' : ShapePlan) : Prop := plan.imprint = plan'.imprint

section

variable {ctx : Context} {w : Omission}

theorem agrees_trianglePlan :
    Agrees keep SameImprint (trianglePlan (ctx.skipping w) s) (trianglePlan ctx t) := by
  refine agrees_same same_triangleMesh fun mesh => ?_
  rw [Context.skipping_options, Options.meshThreshold_skipping]
  exact agrees_if (agrees_pure rfl) (agrees_same same_remark fun _ => agrees_pure rfl)

theorem agrees_plyPlan (hlog : ctx.log = none) {source : Path} :
    Agrees keep SameImprint (plyPlan (ctx.skipping w) s source) (plyPlan ctx t source) := by
  rw [show plyPlan (ctx.skipping w) s source = plyPlan ctx s source from rfl]
  unfold plyPlan
  simp only [Context.filesFor_of_log hlog]
  refine agrees_same same_word fun filename => agrees_if agrees_refuse ?_
  refine agrees_when same_remark fun _ => agrees_akin akin_journal fun _ _ => ?_
  rcases readPlyInfo ctx.files (ctx.files.fileFor source filename ctx.includeRoot) with (_ | _) | info
  · exact agrees_refuse
  · exact agrees_throw
  · exact agrees_same same_remark fun _ => agrees_pure rfl

theorem agrees_shape (hlog : ctx.log = none) {source : Path} {kind : String} :
    Agrees keep SameImprint (shape (ctx.skipping w) s source kind) (shape ctx t source kind) := by
  unfold shape
  split
  · exact same_sphere.mono fun _ _ => congrArg ShapePlan.imprint
  · exact agrees_trianglePlan
  · exact agrees_plyPlan hlog
  · exact agrees_refuse

end

end Survey

open Survey

/-! ## Verdicts -/

section

variable {α : Type} [Scalar α] {w : Omission}

/-- Verdicts with one problem, whose changes make the same of every core, and the first of which leaves
no more in the output. -/
structure Verdict.Like (w : Omission) (v v' : Verdict α) : Prop where
  effect : ∀ s : State α, (s.core w).after v.change = (s.core w).after v'.change
  imprint : v.change.imprint.Within v'.change.imprint
  problem : v.problem = v'.problem

/-- The first survey comes to no problems but those of the second one and to the same core, and leaves no
more in the output, unless the second one stops the conversion. -/
structure Survey.Less (w : Omission) (o o' : Except Refusal (Verdict α) × Findings) : Prop where
  problems : ((Survey.problems o).filter w.keeps).Sublist ((Survey.problems o').filter w.keeps)
  goesOn : o'.1 ≠ .error .overflow → o.1 ≠ .error .overflow
  effect : o'.1 ≠ .error .overflow → ∀ s : State α, (s.core w).behind o.1 = (s.core w).behind o'.1
  sampled : o'.2.sampled = 0 → o.2.sampled = 0
  imprint : o'.1 ≠ .error .overflow → (Survey.change o.1).imprint.Within (Survey.change o'.1).imprint

def Survey.Lessens (w : Omission) (m m' : Survey (Verdict α)) : Prop :=
  ∀ ps a b, Survey.Less w (m.outcome (.start ps a)) (m'.outcome (.start ps b))

namespace Verdict

theorem like_self (v : Verdict α) : Like w v v := ⟨fun _ => rfl, .refl _, rfl⟩

theorem agrees_accept {c : Change α} : Agrees w.keeps (Like w) (accept c) (accept c) :=
  agrees_pure (like_self _)

theorem agrees_flawed {c : Change α} {p : Problem} :
    Agrees w.keeps (Like w) (flawed c p) (flawed c p) := agrees_pure (like_self _)

theorem agrees_acceptUsed {c c' : Change α}
    (h : ∀ s : State α, (s.core w).after c = (s.core w).after c')
    (himprint : c.imprint.Within c'.imprint) :
    Agrees w.keeps (Like w) (acceptUsed c) (acceptUsed c') :=
  agrees_same same_unused fun _ => agrees_pure ⟨h, himprint, rfl⟩

theorem same_text {keep : Problem → Bool} {st : Statement} : Same keep st.text st.text := same_require

theorem same_numbers {keep : Problem → Bool} {st : Statement} {count : Nat} :
    Same keep (st.numbers count) (st.numbers count) :=
  agrees_same same_require fun _ => agrees_if same_pure agrees_refuse

end Verdict

namespace Survey

theorem Agrees.lessens {m m' : Survey (Verdict α)} (h : Agrees w.keeps (Verdict.Like w) m m') :
    Lessens w m m' := by
  intro ps a b
  obtain ⟨hresult, hfindings⟩ := h.agree _ _ (Findings.agree_start ps a b)
  rcases hm : m.outcome (.start ps a) with ⟨r, f⟩
  rcases hm' : m'.outcome (.start ps b) with ⟨r', g⟩
  rw [hm, hm'] at hresult hfindings
  have hproblems : f.problems w.keeps = g.problems w.keeps := hfindings.problems
  have hsampled (h : g.sampled = 0) : f.sampled = 0 := hfindings.sampled.trans h
  cases hresult with
  | @ok v v' hv =>
    refine ⟨?_, fun _ => nofun, fun _ => hv.effect, hsampled, fun _ => hv.imprint⟩
    simp only [Survey.problems, flaw?, List.filter_append, hv.problem]
    exact List.Sublist.append (by rw [← Findings.problems, hproblems]; exact .refl _) (.refl _)
  | error e =>
    refine ⟨?_, fun he => he, fun _ _ => rfl, hsampled, fun _ => .refl _⟩
    simp only [Survey.problems, List.filter_append]
    exact List.Sublist.append (by rw [← Findings.problems, hproblems]; exact .refl _) (.refl _)

/-- Whatever comes of the survey, its change makes the same of a core as `c` does, and leaves no less in
the output. -/
def Comes (w : Omission) (c : Change α) (m : Survey (Verdict α)) : Prop :=
  ∀ f, (m.outcome f).1 ≠ .error .overflow →
    (∀ s : State α, (s.core w).behind (m.outcome f).1 = (s.core w).after c) ∧
      c.imprint.Within (change (m.outcome f).1).imprint

theorem comes_of_gives {m : Survey (Verdict α)} (h : Gives m fun v =>
      (∀ s : State α, (s.core w).after v.change = s.core w) ∧ Imprint.nothing.Within v.change.imprint) :
    Comes w .nothing m := by
  intro f _
  rcases hm : m.outcome f with ⟨r | v, g⟩
  · exact ⟨fun _ => rfl, .refl _⟩
  · exact h.gives f v g hm

theorem Comes.lessens {m : Survey (Verdict α)} {c : Change α} (h : Comes w c m) :
    Lessens w (Verdict.accept c) m := fun ps _ b =>
  ⟨List.nil_sublist _, fun _ => nofun, fun hend s => ((h (.start ps b) hend).1 s).symm, fun _ => rfl,
    fun hend => (h (.start ps b) hend).2⟩

theorem lessens_text {st : Statement} {k k' : String → Survey (Verdict α)}
    (hk : ∀ name, Lessens w (k name) (k' name)) : Lessens w (st.text >>= k) (st.text >>= k') := by
  intro ps a b
  rw [outcome_bind, outcome_bind, st.outcome_text, st.outcome_text]
  cases st.text? with
  | some name => exact hk name ps a b
  | none => exact ⟨.refl _, fun he => he, fun _ _ => rfl, fun _ => rfl, fun _ => .refl _⟩

theorem lessens_skip {off given : Bool} {c : Change α} {m m' : Survey (Verdict α)}
    (hskip : off = true → Comes w c m') (hm : off = false → given = false → Lessens w m m') :
    Lessens w (if (off || given) = true then Verdict.accept c else m)
      (if given = true then Verdict.accept c else m') := by
  cases given with
  | true =>
    rw [Bool.or_true]
    exact Verdict.agrees_accept.lessens
  | false =>
    cases off with
    | true => exact (hskip rfl).lessens
    | false => exact hm rfl rfl

end Survey

/-! ## States with one core -/

namespace State

variable {s t : State α}

omit [Scalar α] in
theorem resembles_of_core (h : s.core w = t.core w) : s.Resembles w.keeps t where
  transform := congrArg Core.transform h
  textures name := by
    by_cases hw : w = .textures
    · refine .inr ?_
      simp [Omission.keeps, Omission.brings, hw, Diagnostic.missesTexture_textureUndeclared]
    · have htextures := congrArg Core.textures h
      simp only [core, if_neg hw, Option.some.injEq] at htextures
      exact .inl (congrArg (List.contains · name) htextures)

omit [Scalar α] in
theorem materials_of_core (h : s.core w = t.core w) (hw : w ≠ .materials) :
    (∀ name, s.hasMaterial name = t.hasMaterial name) ∧ s.counters.material = t.counters.material := by
  have hmaterials := congrArg Core.materials h
  simp only [core, if_neg hw, Option.some.injEq, Prod.mk.injEq] at hmaterials
  exact ⟨fun name => congrArg (List.contains · name) hmaterials.1, hmaterials.2⟩

omit [Scalar α] in
theorem isEmpty_saved_of_core (h : s.core w = t.core w) : s.saved.isEmpty = t.saved.isEmpty := by
  have hsaved := congrArg (fun c => c.saved.isEmpty) h
  simpa [core] using hsaved

end State

namespace Verdict

variable {s t : State α} (h : s.core w = t.core w) {ctx : Context} {source : Path} {st : Statement}

include h

theorem agrees_translate : Agrees w.keeps (Like w) (translate s st) (translate t st) := by
  unfold translate
  rw [(State.resembles_of_core h).transform]
  exact agrees_same same_numbers fun _ => agrees_accept

theorem agrees_rotate : Agrees w.keeps (Like w) (rotate s st) (rotate t st) := by
  unfold rotate
  rw [(State.resembles_of_core h).transform]
  exact agrees_same same_numbers fun _ => agrees_same same_require fun _ => agrees_accept

theorem agrees_scale : Agrees w.keeps (Like w) (scale s st) (scale t st) := by
  unfold scale
  rw [(State.resembles_of_core h).transform]
  exact agrees_same same_numbers fun _ => agrees_same same_require fun _ => agrees_accept

theorem agrees_lookAt : Agrees w.keeps (Like w) (lookAt s st) (lookAt t st) := by
  unfold lookAt
  rw [(State.resembles_of_core h).transform]
  exact agrees_same same_numbers fun _ => agrees_same same_require fun _ => agrees_accept

omit h in
theorem same_matrix {keep : Problem → Bool} {singular : Problem} :
    Same keep (matrix st singular : Survey (Transform α)) (matrix st singular) :=
  agrees_same same_numbers fun _ => same_require

theorem agrees_coordSysTransform :
    Agrees w.keeps (Like w) (coordSysTransform s st) (coordSysTransform t st) := by
  unfold coordSysTransform
  rw [show s.coordinateSystems = t.coordinateSystems from congrArg Core.coordinateSystems h]
  exact agrees_same same_text fun _ => agrees_same same_require fun _ => agrees_accept

theorem lessens_camera : Lessens w (camera (ctx.skipping w) s st) (camera ctx t st) := by
  have hoption : (ctx.skipping w).options.skipCamera = (decide (w = .camera) || ctx.options.skipCamera) := by
    cases w <;> simp [Context.skipping, Options.skipping]
  unfold camera
  rw [hoption, (State.resembles_of_core h).transform]
  refine lessens_text fun kind => lessens_skip (fun _ => ?_) fun _ _ => Agrees.lessens ?_
  · intro f hend
    rw [outcome_bind, outcome_attempt] at hend ⊢
    generalize (Survey.camera kind t.graphics.transform.inverse).outcome f = o at hend ⊢
    rcases o with ⟨(p | _) | c, g⟩
    · exact ⟨fun _ => rfl, .refl _⟩
    · exact (hend rfl).elim
    · exact ⟨fun _ => rfl, Imprint.nothing_within⟩
  · refine agrees_attempt same_camera (fun p => agrees_flawed) fun c c' hc => ?_
    exact agrees_same same_unused fun _ => agrees_pure ⟨fun _ => rfl, .refl _, rfl⟩

theorem agrees_endWorld : Agrees w.keeps (Like w) (endWorld s) (endWorld t) := by
  have remarks : ∀ gs gs' : List (Graphics α), gs.length = gs'.length →
      Same w.keeps (gs.forM fun _ => remark .scopeUnclosed) (gs'.forM fun _ => remark .scopeUnclosed) := by
    intro gs
    induction gs with
    | nil =>
      intro gs' hlength
      obtain rfl : gs' = [] := List.length_eq_zero_iff.1 hlength.symm
      exact same_pure
    | cons g gs ih =>
      intro gs' hlength
      cases gs' with
      | nil => cases hlength
      | cons g' gs' => exact agrees_same same_remark fun _ => ih gs' (Nat.succ.inj hlength)
  have hlength : s.saved.length = t.saved.length := by
    simpa [State.core] using congrArg (fun c => c.saved.length) h
  unfold endWorld
  rw [show s.openObject = t.openObject from congrArg Core.openObject h]
  refine agrees_same (remarks _ _ hlength) fun _ => ?_
  split
  · exact agrees_flawed
  · exact agrees_accept

theorem agrees_closeScope : Agrees w.keeps (Like w) (closeScope s st) (closeScope t st) := by
  unfold closeScope
  rw [State.isEmpty_saved_of_core h]
  exact agrees_if agrees_refuse agrees_accept

theorem agrees_beginObject : Agrees w.keeps (Like w) (beginObject s st) (beginObject t st) := by
  have hobjects (name : String) : s.objects.contains name = t.objects.contains name :=
    congrFun (congrArg Core.objects h) name
  unfold beginObject
  simp only [hobjects, show s.openObject = t.openObject from congrArg Core.openObject h]
  refine agrees_same same_text fun name => agrees_when same_remark fun _ => ?_
  exact agrees_if agrees_flawed agrees_accept

theorem agrees_endObject : Agrees w.keeps (Like w) (endObject s) (endObject t) := by
  unfold endObject
  rw [show s.openObject = t.openObject from congrArg Core.openObject h, State.isEmpty_saved_of_core h]
  refine agrees_when same_report fun _ => ?_
  exact agrees_if agrees_flawed agrees_accept

theorem lessens_drawObject (hrecorded : ∀ name, t.recorded name = [] → s.recorded name = []) :
    Lessens w (drawObject (ctx.skipping w) s st) (drawObject ctx t st) := by
  have hoption : (ctx.skipping w).options.skipInstances =
      (decide (w = .instances) || ctx.options.skipInstances) := by
    cases w <;> simp [Context.skipping, Options.skipping]
  unfold drawObject
  rw [hoption, show s.openObject = t.openObject from congrArg Core.openObject h]
  refine lessens_text fun name => lessens_skip (fun _ => comes_of_gives ?_) fun _ _ => Agrees.lessens ?_
  · refine gives_if (gives_refuse _) (gives_then fun _ => gives_pure ⟨fun _ => rfl, ?_⟩)
    exact Imprint.nothing_within_ite
  · refine agrees_if agrees_refuse ?_
    have hknown : (s.objects.get? name).isSome = (t.objects.get? name).isSome :=
      congrFun (congrArg Core.objects h) name
    have hempty := hrecorded name
    unfold State.recorded at hempty
    cases hs : s.objects.get? name <;> cases ht : t.objects.get? name <;> rw [hs, ht] at hknown hempty
    · exact agrees_refuse
    · cases hknown
    · cases hknown
    · exact agrees_pure ⟨fun _ => rfl, Imprint.ite_within hempty, rfl⟩

omit h [Scalar α] in
theorem skipMaterials_skipping (ctx : Context) (w : Omission) :
    (ctx.skipping w).options.skipMaterials = (decide (w = .materials) || ctx.options.skipMaterials) := by
  cases w <;> simp [Context.skipping, Options.skipping]

omit h in
/-- What is left out with materials does not change a core that is without them. -/
theorem after_of_materials (hw : w = .materials) :
    (∀ (s : State α) (m : Option Material), (s.core w).after (.freshMaterial m) = s.core w) ∧
      ∀ (s : State α) (name : String) (m : Material),
        (s.core w).after (.namedMaterial name m) = s.core w := by
  subst hw
  exact ⟨fun _ _ => rfl, fun _ _ _ => rfl⟩

theorem lessens_material : Lessens w (material (ctx.skipping w) s st) (material ctx t st) := by
  unfold material
  rw [skipMaterials_skipping]
  refine lessens_text fun kind => lessens_skip (fun hw => comes_of_gives ?_) fun hw _ => ?_
  · have hafter := (after_of_materials (α := α) (of_decide_eq_true hw)).1
    refine gives_if (gives_pure ⟨fun _ => rfl, .refl _⟩) (gives_then fun m => ?_)
    cases m with
    | error p => exact gives_pure ⟨fun s => hafter s none, .refl _⟩
    | ok m =>
      exact gives_then fun _ => gives_pure ⟨fun s => hafter s (some m), Imprint.nothing_within⟩
  · obtain ⟨hmaterial, hcounter⟩ := State.materials_of_core h (of_decide_eq_false hw)
    have hname : s.counters.next .material = t.counters.next .material :=
      congrArg Counter.material.name hcounter
    rw [hname]
    refine Agrees.lessens (agrees_if agrees_accept ?_)
    refine agrees_attempt (akin_material (State.resembles_of_core h) hmaterial)
      (fun p => agrees_flawed) fun m m' _ => agrees_acceptUsed (fun _ => rfl) (.refl _)

theorem lessens_makeNamedMaterial :
    Lessens w (makeNamedMaterial (ctx.skipping w) s st) (makeNamedMaterial ctx t st) := by
  unfold makeNamedMaterial
  rw [skipMaterials_skipping]
  refine lessens_text fun name => lessens_skip (fun hw => comes_of_gives ?_) fun hw _ => ?_
  · have hafter := (after_of_materials (α := α) (of_decide_eq_true hw)).2
    refine gives_then fun kind => gives_if (gives_refuse _) ?_
    have rest (u : Unit) : Gives (do
        let m ← Survey.material t name kind
        acceptUsed (.namedMaterial name m)) fun v =>
          (∀ s : State α, (s.core w).after v.change = s.core w) ∧
            Imprint.nothing.Within v.change.imprint :=
      gives_then fun m => gives_then fun _ =>
        gives_pure ⟨fun s => hafter s name m, Imprint.nothing_within⟩
    exact gives_when rest (rest ())
  · obtain ⟨hmaterial, -⟩ := State.materials_of_core h (of_decide_eq_false hw)
    simp only [hmaterial]
    refine Agrees.lessens (agrees_same same_word fun kind => agrees_if agrees_refuse ?_)
    refine agrees_when same_remark fun _ => ?_
    refine agrees_akin (akin_material (State.resembles_of_core h) hmaterial) fun m m' => ?_
    exact agrees_acceptUsed (fun _ => rfl) (.refl _)

theorem lessens_namedMaterial :
    Lessens w (namedMaterial (ctx.skipping w) s st) (namedMaterial ctx t st) := by
  unfold namedMaterial
  rw [skipMaterials_skipping]
  refine lessens_text fun name => lessens_skip (fun _ => comes_of_gives ?_) fun hw _ => ?_
  · exact gives_if (gives_pure ⟨fun _ => rfl, .refl _⟩) (gives_refuse _)
  · rw [(State.materials_of_core h (of_decide_eq_false hw)).1]
    exact Agrees.lessens (agrees_if agrees_accept agrees_refuse)

theorem lessens_texture :
    Lessens w (texture (ctx.skipping w) s source st) (texture ctx t source st) := by
  have hoption : (ctx.skipping w).options.skipTextures =
      (decide (w = .textures) || ctx.options.skipTextures) := by
    cases w <;> simp [Context.skipping, Options.skipping]
  unfold texture
  rw [hoption]
  refine lessens_skip (fun hw => comes_of_gives ?_) fun _ _ => lessens_text fun name => Agrees.lessens ?_
  · obtain rfl := of_decide_eq_true hw
    refine gives_then fun name => gives_then fun fragments => gives_then fun _ => ?_
    exact gives_pure ⟨fun _ => rfl, Imprint.nothing_within_ite⟩
  · refine agrees_bind (agrees_texture (State.resembles_of_core h) ctx) fun fragments fragments' hnil => ?_
    refine agrees_same same_unused fun _ => agrees_pure ⟨fun _ => rfl, .inl ?_, rfl⟩
    simp only [Change.imprint, hnil]

omit h [Scalar α] in
theorem skipLights_skipping (ctx : Context) (w : Omission) :
    (ctx.skipping w).options.skipLights = (decide (w = .lights) || ctx.options.skipLights) := by
  cases w <;> simp [Context.skipping, Options.skipping]

theorem lessens_light : Lessens w (light (ctx.skipping w) s source st) (light ctx t source st) := by
  unfold light
  rw [skipLights_skipping]
  refine lessens_text fun kind => lessens_skip (fun _ => comes_of_gives ?_) fun _ _ => Agrees.lessens ?_
  · exact gives_then fun l => gives_then fun _ => gives_pure ⟨fun _ => rfl, Imprint.nothing_within⟩
  · refine agrees_akin (akin_light (State.resembles_of_core h)) fun l l' => ?_
    exact agrees_acceptUsed (fun _ => rfl) (.refl _)

theorem lessens_areaLight : Lessens w (areaLight (ctx.skipping w) s st) (areaLight ctx t st) := by
  unfold areaLight
  rw [skipLights_skipping]
  refine lessens_text fun kind => lessens_skip (fun _ => comes_of_gives ?_) fun _ _ => Agrees.lessens ?_
  · refine gives_then fun radiance => ?_
    cases radiance with
    | error p => exact gives_pure ⟨fun _ => rfl, .refl _⟩
    | ok radiance => exact gives_then fun _ => gives_pure ⟨fun _ => rfl, Imprint.nothing_within⟩
  · refine agrees_attempt (akin_areaLight (State.resembles_of_core h))
      (fun p => agrees_flawed) fun radiance radiance' _ => ?_
    exact agrees_acceptUsed (fun _ => rfl) (.refl _)

/-- Whether the switch leaves out shapes of a kind. -/
def skipsKind (w : Omission) (kind : String) : Bool :=
  match kind with
  | "sphere" => w = .primitives
  | "trianglemesh" | "plymesh" => w = .meshes
  | "curve" => w = .curves
  | _ => false

omit h in
theorem lessens_shape (hlog : ctx.log = none) :
    Lessens w (shape (ctx.skipping w) s source st) (shape ctx t source st) := by
  have hoption (kind : String) : skipsShape (ctx.skipping w).options kind =
      (skipsKind w kind || skipsShape ctx.options kind) := by
    unfold skipsShape skipsKind
    split <;> cases w <;> simp [Context.skipping, Options.skipping]
  unfold shape
  simp only [hoption]
  refine lessens_text fun kind => lessens_skip (fun _ => comes_of_gives ?_) fun _ _ => Agrees.lessens ?_
  · exact gives_then fun plan => gives_then fun _ => gives_pure ⟨fun _ => rfl, plan.nothing_within⟩
  · exact agrees_bind (agrees_shape hlog) fun plan plan' hplan =>
      agrees_acceptUsed (fun _ => rfl) (.inl hplan)

/-- With a switch turned on, no directive has more problems, and what it makes of the core is the same. -/
theorem lessens_ofStatement (hlog : ctx.log = none)
    (hrecorded : ∀ name, t.recorded name = [] → s.recorded name = []) (source : Path) (st : Statement) :
    Lessens w (ofStatement (ctx.skipping w) s source st) (ofStatement ctx t source st) := by
  unfold ofStatement
  cases Action.ofWord st.word
  case translate => exact (agrees_translate h).lessens
  case rotate => exact (agrees_rotate h).lessens
  case scale => exact (agrees_scale h).lessens
  case lookAt => exact (agrees_lookAt h).lessens
  case transform => exact (agrees_same same_matrix fun _ => agrees_accept).lessens
  case concatTransform =>
    dsimp only
    rw [(State.resembles_of_core h).transform]
    exact (agrees_same same_matrix fun _ => agrees_accept).lessens
  case coordinateSystem => exact (agrees_same same_text fun _ => agrees_accept).lessens
  case coordSysTransform => exact (agrees_coordSysTransform h).lessens
  case camera => exact lessens_camera h
  case film => exact (agrees_same same_film fun _ => agrees_accept).lessens
  case sampler => exact (agrees_same same_integer fun _ => agrees_accept).lessens
  case integrator => exact (agrees_same same_integer fun _ => agrees_accept).lessens
  case worldEnd => exact (agrees_endWorld h).lessens
  case attributeEnd => exact (agrees_closeScope h).lessens
  case transformEnd => exact (agrees_closeScope h).lessens
  case objectBegin => exact (agrees_beginObject h).lessens
  case objectEnd => exact (agrees_endObject h).lessens
  case objectInstance => exact lessens_drawObject h hrecorded
  case material => exact lessens_material h
  case makeNamedMaterial => exact lessens_makeNamedMaterial h
  case namedMaterial => exact lessens_namedMaterial h
  case texture => exact lessens_texture h
  case lightSource => exact lessens_light h
  case areaLightSource => exact lessens_areaLight h
  case shape => exact lessens_shape hlog
  case ignored => exact (agrees_same same_remark fun _ => agrees_accept).lessens
  case unsupported => exact (agrees_refuse (R := Like w)).lessens
  case unknown => exact (agrees_refuse (R := Like w)).lessens
  all_goals exact agrees_accept.lessens

end Verdict

end

end SceneConvert
