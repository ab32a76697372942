import SceneConvert.Proofs.Run.Stage

/-!
# SceneConvert.Proofs.Run.Plain

Conversions that write no indented line, and what a directive may leave in the output.

* `State.Plain`: nothing indented was written, and no camera will be.
* `Imprint`, `Change.imprint`: what a change leaves in the output, apart from its contents.
* `plain_commit`, `recorded_commit`: behind a change, only its imprint matters.
* `State.Sparser`, `Sparser.commit`: a state that is plain, and whose objects are empty, where another
  one is.
-/

namespace SceneConvert

/-- What a change leaves in the output. -/
inductive Imprint where
  | nothing
  | settings
  /-- An object without any shapes. -/
  | object (name : String)
  /-- A shape that is drawn or recorded, with its mesh if it has one. -/
  | shape (mesh : Bool)
  /-- Something with a body. The one of a camera comes at the end. -/
  | fragments

/-- The same is left, or nothing in place of a body. -/
def Imprint.Within (m m' : Imprint) : Prop :=
  m = m' ∨ m = nothing ∧ (m' = fragments ∨ ∃ mesh, m' = shape mesh)

theorem Imprint.Within.refl (m : Imprint) : m.Within m := .inl rfl

theorem Imprint.nothing_within : nothing.Within fragments := .inr ⟨rfl, .inl rfl⟩

theorem Imprint.nothing_within_ite {c : Prop} [Decidable c] :
    nothing.Within (if c then nothing else fragments) := by
  split
  · exact .refl _
  · exact nothing_within

theorem Imprint.ite_within {c c' : Prop} [Decidable c] [Decidable c'] (h : c' → c) :
    (if c then nothing else fragments).Within (if c' then nothing else fragments) := by
  by_cases hc : c
  · rw [if_pos hc]
    exact nothing_within_ite
  · rw [if_neg hc, if_neg (mt h hc)]
    exact .refl _

def ShapePlan.imprint : ShapePlan → Imprint
  | sphere _ => .shape false
  | inline _ | separate _ | existing _ => .shape true

theorem ShapePlan.nothing_within (plan : ShapePlan) : Imprint.nothing.Within plan.imprint :=
  .inr ⟨rfl, .inr (by cases plan <;> exact ⟨_, rfl⟩)⟩

def Change.imprint {α : Type} : Change α → Imprint
  | camera (some _) | freshMaterial (some _) | namedMaterial .. | light _ | emission (some _) =>
    .fragments
  | film .. | setting .. => .settings
  | beginObject name => .object name
  | drawObject records => if records.toList = [] then .nothing else .fragments
  | texture _ fragments => if fragments = [] then .nothing else .fragments
  | shape plan => plan.imprint
  | _ => .nothing

namespace State

variable {α : Type}

/-- Nothing indented was written, and no camera will be. -/
structure Plain (s : State α) : Prop where
  flat : ∀ w ∈ s.written, w.isIndented = false
  camera : s.camera = none

def recorded (s : State α) (name : String) : List (Placed α) :=
  ((s.objects.get? name).getD #[]).toList

/-- Whether a change with this imprint leaves a plain state plain. -/
def Allows (options : Options) (s : State α) : Imprint → Prop
  | .nothing | .object _ => True
  | .settings => options.skipWorld = true ∨ s.pageDepth = 0
  | .shape mesh => mesh = false ∧ s.openObject ≠ none
  | .fragments => False

/-- Whether an object is empty behind a change with this imprint. -/
def Leaves (s : State α) (name : String) : Imprint → Prop
  | .object other => name = other ∨ s.recorded name = []
  | .shape _ => s.recorded name = [] ∧ ∀ o, s.openObject = some o → name ≠ o.name
  | .nothing | .settings | .fragments => s.recorded name = []

/-! ## Writing -/

theorem plain_congr {s t : State α} (hwritten : s.written = t.written) (hcamera : s.camera = t.camera) :
    s.Plain ↔ t.Plain := by
  constructor
  · rintro ⟨hflat, hnone⟩
    exact ⟨hwritten ▸ hflat, hcamera ▸ hnone⟩
  · rintro ⟨hflat, hnone⟩
    exact ⟨hwritten ▸ hflat, hcamera ▸ hnone⟩

theorem plain_write {s : State α} {e : Entry α} :
    (s.write e).Plain ↔ s.Plain ∧ s.pageDepth = 0 ∧ e.hasBody = false := by
  constructor
  · rintro ⟨hflat, hcamera⟩
    simp only [write, Array.mem_push] at hflat
    have he := hflat _ (.inr rfl)
    simp only [Writing.isIndented, Bool.or_eq_false_iff, decide_eq_false_iff_not, Nat.not_lt,
      Nat.le_zero] at he
    exact ⟨⟨fun w hw => hflat w (.inl hw), hcamera⟩, he⟩
  · rintro ⟨⟨hflat, hcamera⟩, hdepth, hbody⟩
    refine ⟨fun w hw => ?_, hcamera⟩
    obtain hw | rfl := Array.mem_push.1 hw
    · exact hflat w hw
    · simp [Writing.isIndented, hdepth, hbody]

theorem not_plain_emit {s : State α} {f : Fragment α} : ¬(s.emit f).Plain := by
  intro h
  cases (plain_write.1 h).2.2

theorem not_plain_of_emit {s t : State α} {f : Fragment α} (hwritten : t.written = (s.emit f).written)
    (hcamera : t.camera = s.camera) : ¬t.Plain :=
  fun h => not_plain_emit ((plain_congr hwritten hcamera).1 h)

theorem eq_nil_of_plain_foldl {β : Type} {step : State α → β → State α}
    (h : ∀ s b, ¬(step s b).Plain) {bs : List β} {s : State α} (hplain : (bs.foldl step s).Plain) :
    bs = [] := by
  induction bs generalizing s with
  | nil => rfl
  | cons b bs ih =>
    obtain rfl := ih hplain
    exact absurd hplain (h s b)

theorem plain_emitAll {s : State α} {fs : List (Fragment α)} :
    (s.emitAll fs).Plain ↔ s.Plain ∧ fs = [] := by
  constructor
  · intro h
    obtain rfl : fs = [] := eq_nil_of_plain_foldl (fun s f => not_plain_emit) h
    exact ⟨h, rfl⟩
  · rintro ⟨h, rfl⟩
    exact h

theorem plain_writeSettings {options : Options} {setting : SettingKey × Int}
    {settings : List (SettingKey × Int)} {s : State α} :
    (s.writeSettings options (setting :: settings)).Plain ↔
      s.Plain ∧ (options.skipWorld = true ∨ s.pageDepth = 0) := by
  have writes (settings : List (SettingKey × Int)) (s : State α) :
      (settings.foldl (fun s x => s.write (.setting x.1 x.2)) s).Plain ↔
        s.Plain ∧ (settings = [] ∨ s.pageDepth = 0) := by
    induction settings generalizing s with
    | nil => simp
    | cons setting settings ih =>
      have hdepth : (s.write (.setting setting.1 setting.2)).pageDepth = s.pageDepth := rfl
      rw [List.foldl_cons, ih, plain_write, hdepth]
      simp only [Entry.hasBody, and_true, reduceCtorEq, false_or]
      exact ⟨fun h => h.1, fun h => ⟨h, .inr h.2⟩⟩
  unfold writeSettings
  cases options.skipWorld with
  | true => simp
  | false =>
    rw [if_neg Bool.false_ne_true]
    exact (writes (setting :: settings) s).trans (by simp)

theorem plain_writeCamera {s : State α} : s.writeCamera.Plain ↔ s.Plain := by
  unfold writeCamera
  split
  · rfl
  · rename_i c hcamera
    exact iff_of_false not_plain_emit fun h => by rw [h.camera] at hcamera; cases hcamera

/-- A camera would be written at the end. -/
theorem plain_finish {s : State α} (h : s.halted = false)
    (hflat : ∀ w ∈ s.finish.written, w.isIndented = false) : s.finish.Plain := by
  unfold finish at hflat ⊢
  rw [h] at hflat ⊢
  refine ⟨hflat, ?_⟩
  cases hcamera : s.closeObject.camera with
  | none => simp [writeCamera, hcamera]
  | some c =>
    have hwritten := hflat ⟨.fragment (.camera c (s.closeObject.aspect c)), s.closeObject.pageDepth,
      s.closeObject.journal.size⟩
    simp [writeCamera, hcamera, emit, write, Writing.isIndented, Entry.hasBody] at hwritten

variable [Scalar α]

theorem plain_drawRecords {s : State α} {ps : List (Placed α)} :
    (s.drawRecords ps).Plain ↔ s.Plain ∧ ps = [] := by
  constructor
  · intro h
    obtain rfl : ps = [] := eq_nil_of_plain_foldl (fun s p => not_plain_emit) h
    exact ⟨h, rfl⟩
  · rintro ⟨h, rfl⟩
    exact h

omit [Scalar α] in
theorem not_plain_drawEntity {s : State α} {p : Placed α} : ¬(s.drawEntity p).Plain := not_plain_emit

theorem plain_addShape {s : State α} {shape : Shape} :
    (s.addShape shape).Plain ↔ s.Plain ∧ s.openObject ≠ none := by
  unfold addShape
  cases hopen : s.openObject with
  | none => simp [not_plain_drawEntity]
  | some o =>
    refine iff_of_eq ?_ |>.trans (and_iff_left (by simp)).symm
    exact propext (plain_congr rfl rfl)

theorem plain_addPlan {s : State α} {plan : ShapePlan} {options : Options} :
    (s.addPlan plan).Plain ↔ s.Plain ∧ s.Allows options plan.imprint := by
  have mesh {s : State α} {shape : Shape} (h : ¬s.Plain) : ¬(s.addShape shape).Plain :=
    fun hplain => h (plain_addShape.1 hplain).1
  cases plan with
  | sphere radius => exact plain_addShape.trans (by simp [Allows, ShapePlan.imprint])
  | inline m =>
    refine iff_of_false (mesh not_plain_emit) ?_
    simp [Allows, ShapePlan.imprint]
  | existing file =>
    refine iff_of_false (mesh not_plain_emit) ?_
    simp [Allows, ShapePlan.imprint]
  | separate m =>
    refine iff_of_false (mesh (not_plain_of_emit (s := (s.take .mesh).2) rfl rfl)) ?_
    simp [Allows, ShapePlan.imprint]

/-- A plain state stays plain where the imprint of a change allows it, and a state that is not never
becomes plain. -/
theorem plain_commit (options : Options) (s : State α) (c : Change α) :
    (c.commit options s).Plain ↔ s.Plain ∧ s.Allows options c.imprint := by
  have unchanged {t : State α} (hwritten : t.written = s.written) (hcamera : t.camera = s.camera) :
      t.Plain ↔ s.Plain ∧ True := by rw [and_true, plain_congr hwritten hcamera]
  have writes {t u : State α} {f : Fragment α} (hwritten : t.written = (u.emit f).written)
      (hcamera : t.camera = u.camera) : t.Plain ↔ s.Plain ∧ False :=
    iff_of_false (not_plain_of_emit hwritten hcamera) And.right
  have pop : s.pop.written = s.written ∧ s.pop.camera = s.camera := by
    unfold State.pop
    split <;> exact ⟨rfl, rfl⟩
  cases c with
  | camera c =>
    cases c with
    | none => exact unchanged rfl rfl
    | some c => exact iff_of_false (fun h => by cases h.camera) And.right
  | film width height => exact plain_writeSettings.trans (and_congr_left' (plain_congr rfl rfl))
  | setting key value => exact plain_writeSettings
  | closeScope => exact unchanged pop.1 pop.2
  | endObject => exact unchanged pop.1 pop.2
  | drawObject records =>
    refine plain_drawRecords.trans (and_congr_right fun _ => ?_)
    by_cases h : records.toList = [] <;> simp [Change.imprint, Allows, h]
  | freshMaterial m =>
    cases m with
    | none => exact unchanged rfl rfl
    | some m => exact writes rfl rfl
  | namedMaterial name m => exact writes rfl rfl
  | texture name fragments =>
    have hdeclared : (Change.commit options s (.texture name fragments)).Plain ↔
        (s.emitAll fragments).Plain := plain_congr rfl rfl
    refine hdeclared.trans (plain_emitAll.trans (and_congr_right fun _ => ?_))
    by_cases h : fragments = [] <;> simp [Change.imprint, Allows, h]
  | light source =>
    refine iff_of_false (fun h => ?_) And.right
    have hnil := (plain_emitAll.1 h).2
    simp at hnil
  | emission radiance =>
    cases radiance with
    | none => exact unchanged rfl rfl
    | some radiance => exact writes rfl rfl
  | shape plan => exact plain_addPlan
  | nothing | place t | nameSystem name | beginWorld | endWorld | openScope | beginObject name
  | bindMaterial name | flip => exact unchanged rfl rfl

theorem pageDepth_commit (options : Options) (s : State α) (c : Change α) :
    (c.commit options s).pageDepth = s.pageDepth := by
  obtain ⟨ws, hws⟩ := (writesAt_commit options c s).output
  rw [Output.writeAll_eq] at hws
  exact congrArg Output.pageDepth hws

/-! ## Objects -/

theorem recorded_addShape {s : State α} {shape : Shape} {name : String} :
    (s.addShape shape).recorded name = [] ↔
      s.recorded name = [] ∧ ∀ o, s.openObject = some o → name ≠ o.name := by
  unfold addShape
  cases hopen : s.openObject with
  | none =>
    have hdrawn (p : Placed α) : (s.drawEntity p).recorded name = s.recorded name := rfl
    simp [hdrawn]
  | some o =>
    by_cases hname : name = o.name
    · subst hname
      simp [recorded]
    · simp [recorded, Dictionary.get?_set_of_ne _ _ hname, hname]

theorem recorded_commit (options : Options) (s : State α) (c : Change α) (name : String) :
    (c.commit options s).recorded name = [] ↔ s.Leaves name c.imprint := by
  have unchanged {t : State α} (h : t.objects = s.objects) :
      t.recorded name = [] ↔ s.recorded name = [] := by rw [recorded, recorded, h]
  have emitted (fs : List (Fragment α)) (s : State α) : (s.emitAll fs).objects = s.objects := by
    induction fs generalizing s with
    | nil => rfl
    | cons f fs ih => exact ih (s.emit f)
  have popped : s.pop.objects = s.objects := by
    unfold State.pop
    split <;> rfl
  cases c with
  | camera c => cases c <;> exact unchanged rfl
  | film width height => exact unchanged (congrArg Stage.objects (stage_writeSettings options _ _))
  | setting key value => exact unchanged (congrArg Stage.objects (stage_writeSettings options _ s))
  | closeScope => exact unchanged popped
  | endObject => exact unchanged popped
  | beginObject other =>
    by_cases hname : name = other
    · simp [Change.commit, Change.imprint, Leaves, recorded, hname]
    · simp [Change.commit, Change.imprint, Leaves, recorded, hname, push,
        Dictionary.get?_set_of_ne _ _ hname]
  | drawObject records =>
    have hdrawn : (s.drawRecords records.toList).objects = s.objects :=
      congrArg Stage.objects (stage_drawRecords _ s)
    refine (unchanged hdrawn).trans ?_
    by_cases h : records.toList = [] <;> simp [Change.imprint, Leaves, h]
  | freshMaterial m => cases m <;> exact unchanged rfl
  | texture other fragments =>
    refine (unchanged (emitted fragments s)).trans ?_
    by_cases h : fragments = [] <;> simp [Change.imprint, Leaves, h]
  | light source => exact unchanged (emitted _ _)
  | emission radiance => cases radiance <;> exact unchanged rfl
  | shape plan =>
    cases plan with
    | sphere radius => exact recorded_addShape
    | inline m => exact recorded_addShape
    | existing file => exact recorded_addShape
    | separate m => exact recorded_addShape
  | nothing | place t | nameSystem other | beginWorld | endWorld | openScope | namedMaterial other m
  | bindMaterial other | flip => exact unchanged rfl

/-! ## Directives -/

/-- What is said of `Plain` and `recorded` depends on. -/
def outline (s : State α) : Nat × Array (Writing α) × Option (Camera α) × (String → List (Placed α)) :=
  (s.pageDepth, s.written, s.camera, s.recorded)

omit [Scalar α] in
theorem plain_recordAll (items : List Finding) (s : State α) :
    (items.foldl record s).Plain ↔ s.Plain ∧ items.countP Finding.isSpectrum = 0 := by
  induction items generalizing s with
  | nil => simp
  | cons x items ih =>
    rw [List.foldl_cons, ih]
    cases x with
    | remark r => exact and_congr (plain_congr rfl rfl) (by simp [Finding.isSpectrum])
    | problem p => exact and_congr (plain_congr rfl rfl) (by simp [Finding.isSpectrum])
    | spectrum p =>
      refine iff_of_false (fun h => not_plain_emit h.1) ?_
      simp [Finding.isSpectrum]

omit [Scalar α] in
theorem pageDepth_recordAll (items : List Finding) (s : State α) :
    (items.foldl record s).pageDepth = s.pageDepth := by
  obtain ⟨ws, hws⟩ := (WritesAt.foldl (fun s x => writesAt_record x s) items s).output
  rw [Output.writeAll_eq] at hws
  exact congrArg Output.pageDepth hws

theorem outline_conclude (options : Options) (result : Except Refusal (Verdict α)) (s : State α) :
    (s.conclude options result).outline = ((Survey.change result).commit options s).outline := by
  match result with
  | .error (.problem p) => rfl
  | .error .overflow => rfl
  | .ok v =>
    obtain ⟨j, hj⟩ := conclude_ok options s v
    rw [hj]
    rfl

end State

/-! ## States beside each other -/

/-- Where `t` is plain so is `s`, and objects that are empty in `t` are so in `s`. -/
structure State.Sparser {α : Type} (s t : State α) : Prop where
  depth : t.pageDepth = 0 → s.pageDepth = 0
  recorded : ∀ name, t.recorded name = [] → s.recorded name = []
  plain : t.Plain → s.Plain

namespace State.Sparser

variable {α : Type} {s t : State α} (h : s.Sparser t)

include h

/-- Less is left by a change within the imprint of another one. -/
theorem leaves (hopen : s.openObject = t.openObject) {m m' : Imprint} (hm : m.Within m') {name : String}
    (hname : t.Leaves name m') : s.Leaves name m := by
  obtain rfl | ⟨rfl, rfl | ⟨mesh, rfl⟩⟩ := hm
  · cases m with
    | object other => exact hname.imp id (h.recorded name)
    | shape mesh => exact ⟨h.recorded name hname.1, hopen ▸ hname.2⟩
    | nothing | settings | fragments => exact h.recorded name hname
  · exact h.recorded name hname
  · exact h.recorded name hname.1

theorem allows {options options' : Options}
    (hworld : options'.skipWorld = true → options.skipWorld = true)
    (hopen : s.openObject = t.openObject) {m m' : Imprint} (hm : m.Within m')
    (hallows : t.Allows options' m') : s.Allows options m := by
  obtain rfl | ⟨rfl, -⟩ := hm
  · cases m with
    | settings => exact hallows.imp hworld h.depth
    | shape mesh => exact ⟨hallows.1, hopen ▸ hallows.2⟩
    | fragments => exact hallows
    | nothing | object other => trivial
  · trivial

theorem commit [Scalar α] {options options' : Options}
    (hworld : options'.skipWorld = true → options.skipWorld = true)
    (hopen : s.openObject = t.openObject) {c c' : Change α} (hc : c.imprint.Within c'.imprint) :
    (c.commit options s).Sparser (c'.commit options' t) := by
  refine ⟨fun hdepth => ?_, fun name hname => ?_, fun hplain => ?_⟩
  · rw [pageDepth_commit] at hdepth ⊢
    exact h.depth hdepth
  · rw [recorded_commit] at hname ⊢
    exact h.leaves hopen hc hname
  · rw [plain_commit] at hplain ⊢
    exact ⟨h.plain hplain.1, h.allows hworld hopen hc hplain.2⟩

theorem of_outline {s' t' : State α} (hs : s'.outline = s.outline) (ht : t'.outline = t.outline) :
    s'.Sparser t' := by
  simp only [outline, Prod.mk.injEq] at hs ht
  obtain ⟨hdepth, hwritten, hcamera, hrecorded⟩ := hs
  obtain ⟨hdepth', hwritten', hcamera', hrecorded'⟩ := ht
  refine ⟨fun hzero => ?_, fun name hname => ?_, fun hplain => ?_⟩
  · rw [hdepth]
    exact h.depth (hdepth' ▸ hzero)
  · rw [hrecorded]
    exact h.recorded name (hrecorded' ▸ hname)
  · rw [plain_congr hwritten hcamera]
    exact h.plain ((plain_congr hwritten' hcamera').1 hplain)

theorem onPage {d d' : Nat} (hd : d' = 0 → d = 0) :
    ({ s with pageDepth := d } : State α).Sparser { t with pageDepth := d' } := by
  refine ⟨hd, h.recorded, fun hplain => ?_⟩
  have hs : s.Plain := h.plain ⟨hplain.flat, hplain.camera⟩
  exact ⟨hs.flat, hs.camera⟩

theorem write (e : Entry α) : (s.write e).Sparser (t.write e) := by
  refine ⟨h.depth, h.recorded, fun hplain => ?_⟩
  rw [plain_write] at hplain ⊢
  exact ⟨h.plain hplain.1, h.depth hplain.2.1, hplain.2.2⟩

theorem writeCamera : s.writeCamera.Sparser t.writeCamera := by
  have hbehind (s : State α) : s.writeCamera.pageDepth = s.pageDepth ∧
      s.writeCamera.recorded = s.recorded := by
    unfold State.writeCamera
    split <;> exact ⟨rfl, rfl⟩
  obtain ⟨hdepth, hrecorded⟩ := hbehind s
  obtain ⟨hdepth', hrecorded'⟩ := hbehind t
  refine ⟨fun hzero => ?_, fun name hname => ?_, fun hplain => ?_⟩
  · rw [hdepth]
    exact h.depth (hdepth' ▸ hzero)
  · rw [hrecorded]
    exact h.recorded name (hrecorded' ▸ hname)
  · rw [plain_writeCamera] at hplain ⊢
    exact h.plain hplain

theorem recordAll {items items' : List Finding}
    (hitems : items'.countP Finding.isSpectrum = 0 → items.countP Finding.isSpectrum = 0) :
    (items.foldl record s).Sparser (items'.foldl record t) := by
  have hobjects (items : List Finding) (s : State α) : (items.foldl record s).objects = s.objects :=
    congrArg Stage.objects (stage_recordAll items s)
  refine ⟨fun hzero => ?_, fun name hname => ?_, fun hplain => ?_⟩
  · rw [pageDepth_recordAll] at hzero ⊢
    exact h.depth hzero
  · rw [State.recorded, hobjects] at hname ⊢
    exact h.recorded name hname
  · rw [plain_recordAll] at hplain ⊢
    exact ⟨h.plain hplain.1, hitems hplain.2⟩

/-- A directive leaves less if its survey finds no spectra where there are none, and comes to a change
within the imprint of the other one. -/
theorem apply [Scalar α] {ctx ctx' : Context}
    (hworld : ctx'.options.skipWorld = true → ctx.options.skipWorld = true)
    (hopen : s.openObject = t.openObject) (source : Path) (st : Statement)
    (hsampled : (t.survey ctx' source st).2.sampled = 0 → (s.survey ctx source st).2.sampled = 0)
    (hc : (Survey.change (s.survey ctx source st).1).imprint.Within
      (Survey.change (t.survey ctx' source st).1).imprint) :
    (s.apply ctx source st).Sparser (t.apply ctx' source st) := by
  have hmoved : (s.moveTo source st.line).Sparser (t.moveTo source st.line) := h.of_outline rfl rfl
  have hfound := hmoved.recordAll hsampled
  have hopen' (items items' : List Finding) :
      (items.foldl record (s.moveTo source st.line)).openObject =
        (items'.foldl record (t.moveTo source st.line)).openObject := by
    have hkept (items : List Finding) (s : State α) : (items.foldl record s).openObject = s.openObject :=
      congrArg Stage.openObject (stage_recordAll items s)
    rw [hkept, hkept]
    exact hopen
  rw [apply_eq_conclude, apply_eq_conclude]
  exact (hfound.commit hworld (hopen' _ _) hc).of_outline (outline_conclude ..) (outline_conclude ..)

end State.Sparser

end SceneConvert
