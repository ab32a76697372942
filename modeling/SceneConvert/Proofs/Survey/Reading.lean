import SceneConvert.Proofs.Survey.Verdicts

/-!
# SceneConvert.Proofs.Survey.Reading

What surveys read from parameters, whatever was looked up before.

* `Parameters.value?`: the value of a parameter. To look a parameter up changes no value.
* `Survey.Reads`: the result of a survey where the parameters have certain values, with a rule for each
  way to build a survey. `Verdict.Reads`: the change and the problem that a directive comes to.
* `Camera.described`, `Verdict.reads_camera`: the camera that values describe.
* `resolution`, `Verdict.reads_film`: the size of the film.
* `Material.blended`, `Verdict.reads_blend`: the blend of two materials.
-/

namespace SceneConvert

namespace Parameters

def value? (ps : Parameters) (name : String) : Option Value := (ps.find? name).map Parameter.value

theorem value?_mark (ps : Parameters) (which : Parameter → Bool) :
    (ps.mark which).value? = ps.value? := by
  have go (name : String) (entries : List Parameter) :
      ((mark.go which entries).find? fun p => p.name == name).map Parameter.value =
        (entries.find? fun p => p.name == name).map Parameter.value := by
    induction entries with
    | nil => rfl
    | cons p entries ih =>
      rw [mark.go]
      split
      · rw [List.find?_cons, List.find?_cons]
        cases p.name == name <;> rfl
      · rw [List.find?_cons, List.find?_cons]
        cases p.name == name
        · exact ih
        · rfl
  exact funext fun name => go name ps.entries

end Parameters

namespace Survey

variable {α β γ : Type}

/-- Where the parameters have these values the survey comes to the result, and changes no value. -/
structure Reads (values : String → Option Value) (m : Survey β) (result : Except Problem β) : Prop where
  reads : ∀ f, f.parameters.value? = values →
    ∃ g, m.outcome f = (result.mapError Refusal.problem, g) ∧ g.parameters.value? = values

section

variable {values : String → Option Value} {m : Survey β} {k : β → Survey γ} {result : Except Problem γ}

theorem reads_pure (b : β) : Reads values (pure b) (.ok b) := ⟨fun f hf => ⟨f, rfl, hf⟩⟩

theorem reads_refuse (p : Problem) : Reads values (refuse p : Survey β) (.error p) :=
  ⟨fun f hf => ⟨f, rfl, hf⟩⟩

theorem reads_bind {b : β} (hm : Reads values m (.ok b)) (hk : Reads values (k b) result) :
    Reads values (m >>= k) result := by
  refine ⟨fun f hf => ?_⟩
  obtain ⟨g, hg, hvalues⟩ := hm.reads f hf
  obtain ⟨h, hh, hvalues'⟩ := hk.reads g hvalues
  exact ⟨h, (outcome_bind_ok hg).trans hh, hvalues'⟩

theorem reads_bind_error {p : Problem} (hm : Reads values m (.error p)) :
    Reads values (m >>= k) (.error p) := by
  refine ⟨fun f hf => ?_⟩
  obtain ⟨g, hg, hvalues⟩ := hm.reads f hf
  exact ⟨g, by rw [outcome_bind, hg]; rfl, hvalues⟩

theorem reads_say (x : Finding) : Reads values (say x) (.ok ()) := ⟨fun _ hf => ⟨_, rfl, hf⟩⟩

theorem reads_saying {c : Prop} {_ : Decidable c} {x : Finding} {n : Survey γ}
    (hn : Reads values n result) : Reads values (if c then say x >>= fun _ => n else n) result := by
  split
  · exact reads_bind (reads_say x) hn
  · exact hn

theorem reads_if {c : Prop} {_ : Decidable c} {m n : Survey β} {result result' : Except Problem β}
    (hm : Reads values m result) (hn : Reads values n result') :
    Reads values (if c then m else n) (if c then result else result') := by
  split
  · exact hm
  · exact hn

theorem reads_look (name : String) (read : Value → Option β) :
    Reads values (look name read) (.ok ((values name).bind read)) := by
  refine ⟨fun f hf => ⟨{ f with parameters := (f.parameters.look name read).2 }, ?_,
    (f.parameters.value?_mark _).trans hf⟩⟩
  rw [← hf, Parameters.value?, Option.bind_map]
  rfl

theorem reads_parameter {name : String} {k : Option Parameter → Survey γ}
    {next : Option Value → Except Problem γ}
    (hk : ∀ o, Reads values (k o) (next (o.map Parameter.value))) :
    Reads values (parameter? name >>= k) (next (values name)) := by
  refine ⟨fun f hf => ?_⟩
  obtain ⟨g, hg, hvalues⟩ :=
    (hk (f.parameters.find? name)).reads { f with parameters := (f.parameters.get name).2 }
      ((f.parameters.value?_mark fun p => p.name == name).trans hf)
  refine ⟨g, (outcome_bind_ok rfl).trans (hg.trans ?_), hvalues⟩
  rw [← hf]
  rfl

theorem reads_number (name : String) (default : Float32) :
    Reads values (number name default) (.ok (((values name).bind Value.number?).getD default)) :=
  reads_bind (reads_look name _) (reads_pure _)

theorem reads_integer (name : String) (default : Int) :
    Reads values (integer name default) (.ok (((values name).bind Value.integer?).getD default)) :=
  reads_bind (reads_look name _) (reads_pure _)

theorem reads_word (name default : String) :
    Reads values (word name default) (.ok (((values name).bind Value.word?).getD default)) :=
  reads_bind (reads_look name _) (reads_pure _)

theorem Reads.attempt {result : Except Problem β} (h : Reads values m result) :
    Reads values m.attempt (.ok result) := by
  refine ⟨fun f hf => ?_⟩
  obtain ⟨g, hg, hvalues⟩ := h.reads f hf
  refine ⟨g, ?_, hvalues⟩
  rw [outcome_attempt, hg]
  cases result <;> rfl

theorem reads_text {st : Statement} {name : String} (h : st.text? = some name) :
    Reads values st.text (.ok name) :=
  ⟨fun f hf => ⟨f, (st.outcome_text f).trans (by rw [h]; rfl), hf⟩⟩

theorem reads_text_error {st : Statement} (h : st.text? = none) :
    Reads values st.text (.error (.textExpected st.word)) :=
  ⟨fun f hf => ⟨f, (st.outcome_text f).trans (by rw [h]; rfl), hf⟩⟩

end

end Survey

/-! ## Verdicts -/

namespace Verdict

open Survey

variable {α β : Type} {values : String → Option Value}

/-- Where the parameters have these values the survey comes to this change and this problem. -/
structure Reads (values : String → Option Value) (m : Survey (Verdict α))
    (result : Except Problem (Change α × Option Problem)) : Prop where
  reads : ∀ f, f.parameters.value? = values →
    (m.outcome f).1.map (fun v => (v.change, v.problem)) = result.mapError Refusal.problem

section

variable {m : Survey β} {k : β → Survey (Verdict α)} {result : Except Problem (Change α × Option Problem)}

theorem reads_pure (v : Verdict α) : Reads values (pure v) (.ok (v.change, v.problem)) :=
  ⟨fun _ _ => rfl⟩

theorem reads_acceptUsed (change : Change α) : Reads values (acceptUsed change) (.ok (change, none)) :=
  ⟨fun _ _ => rfl⟩

theorem reads_bind {b : β} (hm : m.Reads values (.ok b)) (hk : Reads values (k b) result) :
    Reads values (m >>= k) result := by
  refine ⟨fun f hf => ?_⟩
  obtain ⟨g, hg, hvalues⟩ := hm.reads f hf
  rw [outcome_bind_ok hg]
  exact hk.reads g hvalues

theorem reads_bind_error {p : Problem} (hm : m.Reads values (.error p)) :
    Reads values (m >>= k) (.error p) := by
  refine ⟨fun f hf => ?_⟩
  obtain ⟨g, hg, -⟩ := hm.reads f hf
  rw [outcome_bind, hg]
  rfl

end

end Verdict

/-! ## Cameras and film -/

/-- The camera with perspective that values describe, seen through a transform. -/
def Camera.described {α : Type} (cameraToWorld : Transform α) (values : String → Option Value) :
    Except Problem (Camera α) :=
  let number (name : String) : Option Float32 := (values name).bind Value.number?
  let fieldOfView := (number "fov").getD (Binary32.ofInt 90)
  if fieldOfView ≤ Binary32.ofInt 0 || Binary32.ofInt 180 ≤ fieldOfView then
    .error (.fieldOfView fieldOfView)
  else .ok {
    cameraToWorld, fieldOfView
    frameAspect := (number "frameaspectratio").filter fun a => Binary32.ofInt 0 < a
    lensRadius := number "lensradius"
    focalDistance := number "focaldistance" }

/-- The camera of a kind. There is one with perspective only. -/
def Camera.ofKind {α : Type} (cameraToWorld : Transform α) (kind : String)
    (values : String → Option Value) : Except Problem (Camera α) :=
  if kind = "perspective" then described cameraToWorld values else .error (.cameraUnknown kind)

def resolution (values : String → Option Value) : Except Problem (Int × Int) :=
  let width := ((values "xresolution").bind Value.integer?).getD 1280
  let height := ((values "yresolution").bind Value.integer?).getD 720
  if width ≤ 0 || height ≤ 0 then .error (.filmResolution width height) else .ok (width, height)

section

variable {α : Type} {values : String → Option Value}

theorem Survey.reads_perspective (t : Transform α) :
    Reads values (perspective t) (Camera.described t values) := by
  unfold perspective Camera.described
  dsimp only
  refine reads_bind (reads_number _ _) (reads_if (reads_refuse _) (reads_bind (reads_look _ _) ?_))
  cases (values "frameaspectratio").bind Value.number? with
  | none => exact reads_bind (reads_look _ _) (reads_bind (reads_look _ _) (reads_pure _))
  | some aspect =>
    exact reads_saying (reads_bind (reads_look _ _) (reads_bind (reads_look _ _) (reads_pure _)))

theorem Survey.reads_camera (t : Transform α) (kind : String) :
    Reads values (Survey.camera kind t) (Camera.ofKind t kind values) := by
  unfold Survey.camera Camera.ofKind
  split
  · exact reads_perspective t
  · rename_i hkind
    rw [if_neg hkind]
    exact reads_refuse _

theorem Survey.reads_film : Reads values film (resolution values) :=
  reads_bind (reads_integer _ _) (reads_bind (reads_integer _ _) (reads_if (reads_refuse _) (reads_pure _)))

theorem Verdict.reads_camera [Scalar α] {ctx : Context} {s : State α} {source : Path} {st : Statement}
    (h : Action.ofWord st.word = .camera) :
    Verdict.Reads values (ofStatement ctx s source st) (match st.text? with
      | none => .error (.textExpected st.word)
      | some kind => .ok (if ctx.options.skipCamera then (.camera none, none) else
        match Camera.ofKind s.graphics.transform.inverse kind values with
        | .error p => (.camera none, some p)
        | .ok c => (.camera (some c), none))) := by
  unfold ofStatement
  rw [h]
  unfold Verdict.camera
  cases hkind : st.text? with
  | none => exact Verdict.reads_bind_error (Survey.reads_text_error hkind)
  | some kind =>
    refine Verdict.reads_bind (Survey.reads_text hkind) ?_
    dsimp only
    split
    · exact Verdict.reads_pure _
    refine Verdict.reads_bind (Survey.reads_camera _ kind).attempt ?_
    cases Camera.ofKind s.graphics.transform.inverse kind values with
    | error p => exact Verdict.reads_pure _
    | ok c => exact ⟨fun _ _ => rfl⟩

theorem Verdict.reads_film [Scalar α] {ctx : Context} {s : State α} {source : Path} {st : Statement}
    (h : Action.ofWord st.word = .film) :
    Verdict.Reads values (ofStatement ctx s source st)
      ((resolution values).map fun size => (.film size.1 size.2, none)) := by
  unfold ofStatement
  rw [h]
  unfold Verdict.film
  have hfilm : Survey.Reads values Survey.film _ := Survey.reads_film
  cases hsize : resolution values with
  | error p => exact Verdict.reads_bind_error (hsize ▸ hfilm)
  | ok size => exact Verdict.reads_bind (hsize ▸ hfilm) (Verdict.reads_pure _)

end

/-! ## Blends -/

/-- The number that a value gives, or the texture in its place. -/
def Amount.described (default : Float32) : Option Value → Amount
  | none => .number default
  | some value =>
    match value.word?, value.floats? with
    | some name, _ => .texture name
    | none, some [v] => .number v
    | none, some (v :: values) => .number (Survey.average (v :: values))
    | none, _ => .number default

def blendedNames (values : String → Option Value) : List String :=
  ((values "materials").bind Value.texts?).getD
    [((values "namedmaterial1").bind Value.word?).getD "",
      ((values "namedmaterial2").bind Value.word?).getD ""]

/-- The blend of materials under a name. It takes two materials that are declared. -/
def Material.blending (declared : String → Bool) (name : String) (amount : Amount) :
    List String → Except Problem Material
  | [first, second] =>
    if first.isEmpty || second.isEmpty then .error (.mixIncomplete name)
    else if !declared first then .error (.mixUndeclared first name)
    else if !declared second then .error (.mixUndeclared second name)
    else .ok (.blend first second amount)
  | _ => .error (.mixIncomplete name)

/-- The blend that values describe. -/
def Material.blended (declared : String → Bool) (name : String) (values : String → Option Value) :
    Except Problem Material :=
  blending declared name (Amount.described (Binary32.constant 5 1) (values "amount")) (blendedNames values)

/-- Two materials are blended if they are the ones to blend, have names and are declared. -/
theorem Material.blended_eq_blend_iff {declared : String → Bool} (name : String)
    {first second : String} {values : String → Option Value} :
    (∃ amount, Material.blended declared name values = .ok (.blend first second amount)) ↔
      blendedNames values = [first, second] ∧ (first ≠ "" ∧ declared first = true) ∧
        second ≠ "" ∧ declared second = true := by
  unfold blended
  generalize blendedNames values = names, Amount.described _ (values "amount") = amount
  constructor
  · rintro ⟨amount', h⟩
    unfold blending at h
    split at h
    · split at h
      · cases h
      split at h
      · cases h
      split at h
      · cases h
      rename_i hempty hfirst hsecond
      simp only [Bool.or_eq_true, String.isEmpty_iff, not_or] at hempty
      cases h
      exact ⟨rfl, ⟨hempty.1, by simpa using hfirst⟩, hempty.2, by simpa using hsecond⟩
    · cases h
  · rintro ⟨rfl, hfirst, hsecond⟩
    exact ⟨amount, by simp [blending, hfirst.1, hfirst.2, hsecond.1, hsecond.2]⟩

section

variable {α : Type} {values : String → Option Value}

namespace Survey

theorem reads_amount (s : State α) (name : String) (default : Float32) :
    Reads values (amount s name default) (.ok (Amount.described default (values name))) := by
  have checked (texture : String) : Reads values (checkTexture s texture) (.ok ()) := by
    unfold checkTexture
    split
    · exact reads_pure ()
    · exact reads_say _
  refine @reads_parameter _ _ _ _ (fun o => .ok (Amount.described default o)) fun o => ?_
  cases o with
  | none => exact reads_pure _
  | some p =>
    rw [Option.map_some, Amount.described]
    dsimp only
    cases p.value.word? with
    | some texture => exact reads_bind (checked texture) (reads_pure _)
    | none =>
      rcases p.value.floats? with - | - | ⟨v, - | ⟨w, vs⟩⟩
      · exact reads_bind (reads_say _) (reads_pure _)
      · exact reads_bind (reads_say _) (reads_pure _)
      · exact reads_pure _
      · exact reads_bind (reads_say _) (reads_pure _)

theorem reads_blended : Reads values blended (.ok (blendedNames values)) := by
  refine reads_bind (reads_look _ _) ?_
  unfold blendedNames
  cases (values "materials").bind Value.texts? with
  | some names => exact reads_pure names
  | none => exact reads_bind (reads_word _ _) (reads_bind (reads_word _ _) (reads_pure _))

theorem reads_blend (s : State α) (name : String) :
    Reads values (blend s name) (Material.blended s.hasMaterial name values) := by
  have checked (part : String) {n : Survey Material} {result : Except Problem Material}
      (hn : Reads values n result) : Reads values (checkMaterial s part name >>= fun _ => n)
        (if !s.hasMaterial part then .error (.mixUndeclared part name) else result) := by
    unfold checkMaterial
    cases s.hasMaterial part
    · exact reads_bind_error (reads_refuse _)
    · exact hn
  refine reads_bind reads_blended ?_
  unfold Material.blended
  rcases blendedNames values with - | ⟨first, - | ⟨second, - | ⟨third, names⟩⟩⟩
  · exact reads_refuse _
  · exact reads_refuse _
  · refine reads_if (reads_refuse _) (checked first (checked second ?_))
    exact reads_bind (reads_amount s _ _) (reads_pure _)
  · exact reads_refuse _

end Survey

/-- A blend that is refused still takes a fresh name. -/
theorem Verdict.reads_blend [Scalar α] {ctx : Context} {s : State α} {source : Path} {st : Statement}
    (h : Action.ofWord st.word = .material) (hkind : st.text? = some "mix")
    (hmaterials : ctx.options.skipMaterials = false) :
    Verdict.Reads values (ofStatement ctx s source st)
      (.ok (match Material.blended s.hasMaterial (s.counters.next .material) values with
        | .error p => (.freshMaterial none, some p)
        | .ok m => (.freshMaterial (some m), none))) := by
  unfold ofStatement
  rw [h]
  unfold material
  rw [hmaterials]
  refine Verdict.reads_bind (Survey.reads_text hkind)
    (Verdict.reads_bind (Survey.reads_blend s (s.counters.next .material)).attempt ?_)
  cases Material.blended s.hasMaterial (s.counters.next .material) values with
  | error p => exact Verdict.reads_pure _
  | ok m => exact Verdict.reads_acceptUsed _

theorem Verdict.reads_namedBlend [Scalar α] {ctx : Context} {s : State α} {source : Path} {st : Statement}
    {name : String} (h : Action.ofWord st.word = .makeNamedMaterial)
    (hname : st.text? = some name) (hkind : (values "type").bind Value.word? = some "mix")
    (hmaterials : ctx.options.skipMaterials = false) :
    Verdict.Reads values (ofStatement ctx s source st)
      ((Material.blended s.hasMaterial name values).map fun m => (.namedMaterial name m, none)) := by
  have hword : Survey.Reads values (Survey.word "type" "") _ := Survey.reads_word _ _
  rw [hkind, Option.getD_some] at hword
  have made : Verdict.Reads (α := α) values (do
      let m ← Survey.material s name "mix"
      acceptUsed (.namedMaterial name m))
      ((Material.blended s.hasMaterial name values).map fun m => (.namedMaterial name m, none)) := by
    have hblend : Survey.Reads values (Survey.blend s name) _ := Survey.reads_blend s name
    cases hm : Material.blended s.hasMaterial name values with
    | error p => exact Verdict.reads_bind_error (hm ▸ hblend)
    | ok m => exact Verdict.reads_bind (hm ▸ hblend) (Verdict.reads_acceptUsed _)
  unfold ofStatement
  rw [h]
  unfold makeNamedMaterial
  rw [hmaterials]
  refine Verdict.reads_bind (Survey.reads_text hname) (Verdict.reads_bind hword ?_)
  change Verdict.Reads values (if s.hasMaterial name then _ else _) _
  split
  · exact Verdict.reads_bind (Survey.reads_say _) made
  · exact made

end

end SceneConvert
