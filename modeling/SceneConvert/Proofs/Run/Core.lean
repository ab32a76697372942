import SceneConvert.Proofs.Run.Rejection

/-!
# SceneConvert.Proofs.Run.Core

What a state knows that matters for problems with later directives.

* `Omission`, `Context.skipping`: the switches that leave out a class of directives.
* `Omission.brings`: what may be reported because of them.
* `Core`, `State.core`: the part of a state that decides what is wrong with a directive, without what a
  switch has to do with.
* `Core.behind`, `core_commit`, `core_apply`: what a directive makes of it.
-/

namespace SceneConvert

/-- A class of directives that an option leaves out of a scene. -/
inductive Omission where
  | meshes
  | curves
  | primitives
  | instances
  | lights
  | materials
  | textures
  | camera
  | world
  deriving Repr, DecidableEq

def Options.skipping (o : Options) : Omission → Options
  | .meshes => { o with skipMeshes := true }
  | .curves => { o with skipCurves := true }
  | .primitives => { o with skipPrimitives := true }
  | .instances => { o with skipInstances := true }
  | .lights => { o with skipLights := true }
  | .materials => { o with skipMaterials := true }
  | .textures => { o with skipTextures := true }
  | .camera => { o with skipCamera := true }
  | .world => { o with skipWorld := true }

def Context.skipping (ctx : Context) (w : Omission) : Context :=
  { ctx with options := ctx.options.skipping w }

section

variable (o : Options) (w : Omission)

@[simp]
theorem Options.collapseLists_skipping : (o.skipping w).collapseLists = o.collapseLists := by
  cases w <;> rfl

@[simp]
theorem Options.singleFile_skipping : (o.skipping w).singleFile = o.singleFile := by cases w <;> rfl

@[simp]
theorem Options.skipRepeatedIncludes_skipping :
    (o.skipping w).skipRepeatedIncludes = o.skipRepeatedIncludes := by cases w <;> rfl

@[simp]
theorem Options.meshThreshold_skipping : (o.skipping w).meshThreshold = o.meshThreshold := by
  cases w <;> rfl

@[simp]
theorem Options.indent_skipping : (o.skipping w).indent = o.indent := by cases w <;> rfl

theorem Options.skipWorld_skipping {o : Options} (h : o.skipWorld = true) :
    (o.skipping w).skipWorld = true := by
  cases w <;> first | exact h | rfl

theorem Context.skipping_options (ctx : Context) :
    (ctx.skipping w).options = ctx.options.skipping w := rfl

theorem Context.of_skipping (files : FileTree) (input : Path) :
    Context.of (o.skipping w) files input = (Context.of o files input).skipping w := by
  cases w <;> simp only [Context.of, Context.skipping, Options.skipping]

end

/-- Whether a diagnostic is about a texture that was not declared. -/
def Diagnostic.missesTexture (d : Diagnostic) : Bool :=
  "Texture ".toList.isPrefixOf d.message.toList && " is not declared".toList.isSuffixOf d.message.toList

theorem Diagnostic.missesTexture_textureUndeclared (name : String) (file : Path) (line : Nat) :
    ((Problem.textureUndeclared name).diagnostic file line).missesTexture = true := by
  have hmessage : ((Problem.textureUndeclared name).diagnostic file line).message =
      "Texture " ++ (Problem.quoted name ++ " is not declared") := String.append_assoc
  rw [missesTexture, hmessage, String.toList_append, String.toList_append, Bool.and_eq_true,
    List.isPrefixOf_iff_prefix, List.isSuffixOf_iff_suffix]
  exact ⟨List.prefix_append .., (List.suffix_append ..).trans (List.suffix_append ..)⟩

/-- Whether turning on the switch may be why something is reported. Textures that are left out are
missed by the directives that refer to them. -/
def Omission.brings (w : Omission) (d : Diagnostic) : Bool := w = .textures && d.missesTexture

/-- The problems that the switch has nothing to do with. -/
def Omission.keeps (w : Omission) (p : Problem) : Bool := !w.brings (p.diagnostic ⟨""⟩ 0)

/-- What matters for problems with later directives. -/
structure Core (α : Type) where
  transform : Transform α
  saved : List (Transform α)
  coordinateSystems : Dictionary String (Transform α)
  /-- Which names are those of objects. -/
  objects : String → Bool
  openObject : Option (OpenObject α)
  /-- The materials, and how many of their names were made by counting. -/
  materials : Option (List String × Nat)
  textures : Option (List String)
  outputNames : Dictionary Path Nat
  included : Dictionary Path (Option Path)
  location : Path × Nat

/-- The core of a state. Materials or textures are not part of it when the switch is about them. -/
def State.core {α : Type} (w : Omission) (s : State α) : Core α where
  transform := s.graphics.transform
  saved := s.saved.map Graphics.transform
  coordinateSystems := s.coordinateSystems
  objects := s.objects.contains
  openObject := s.openObject
  materials := if w = .materials then none else some (s.materials, s.counters.material)
  textures := if w = .textures then none else some s.textures
  outputNames := s.outputNames
  included := s.included
  location := s.location

def declared (name : String) (names : List String) : List String :=
  if names.contains name then names else name :: names

namespace Core

variable {α : Type}

def pop (c : Core α) : Core α :=
  match c.saved with
  | [] => c
  | t :: rest => { c with transform := t, saved := rest }

variable [Scalar α]

def after (c : Core α) : Change α → Core α
  | .place t => { c with transform := t }
  | .nameSystem name => { c with coordinateSystems := c.coordinateSystems.set name c.transform }
  | .camera _ => { c with coordinateSystems := c.coordinateSystems.set "camera" c.transform.inverse }
  | .beginWorld =>
    { c with
      transform := Transform.identity
      coordinateSystems := c.coordinateSystems.set "world" Transform.identity }
  | .endWorld =>
    { c with transform := c.saved.getLast?.getD c.transform, saved := [], openObject := none }
  | .openScope => { c with saved := c.transform :: c.saved }
  | .closeScope => c.pop
  | .beginObject name =>
    { c with
      saved := c.transform :: c.saved
      objects := fun n => n == name || c.objects n
      openObject := some ⟨name, c.transform⟩ }
  | .endObject => { c.pop with openObject := none }
  | .freshMaterial m =>
    { c with
      materials := c.materials.map fun (names, n) =>
        (if m.isSome then declared (Counter.material.name n) names else names, n + 1) }
  | .namedMaterial name _ =>
    { c with materials := c.materials.map fun (names, n) => (declared name names, n) }
  | .texture name _ => { c with textures := c.textures.map (declared name) }
  | .nothing | .film .. | .setting .. | .drawObject _ | .bindMaterial _ | .light _ | .emission _
  | .shape _ | .flip => c

def behind (c : Core α) : Except Refusal (Verdict α) → Core α
  | .ok v => c.after v.change
  | .error _ => c

end Core

theorem Dictionary.contains_set {κ β : Type} [BEq κ] [LawfulBEq κ] (d : Dictionary κ β) (name : κ)
    (value : β) (other : κ) :
    (d.set name value).contains other = (other == name || d.contains other) := by
  by_cases h : other = name
  · simp [contains, h]
  · simp [contains, get?_set_of_ne d value h, h]

/-- The object that is being defined is one of the objects. -/
def Core.Declares {α : Type} (c : Core α) : Prop := ∀ o, c.openObject = some o → c.objects o.name = true

theorem Core.Declares.after {α : Type} [Scalar α] {c : Core α} (h : c.Declares) (change : Change α) :
    (c.after change).Declares := by
  have pop : c.pop.Declares := by
    unfold Core.pop
    split <;> exact h
  cases change with
  | endWorld | endObject => nofun
  | closeScope => exact pop
  | beginObject name =>
    rintro o ⟨⟩
    simp [Core.after]
  | _ => exact h

namespace State

variable {α : Type} {w : Omission}

theorem core_emitAll (fs : List (Fragment α)) (s : State α) : (s.emitAll fs).core w = s.core w := by
  induction fs generalizing s with
  | nil => rfl
  | cons f fs ih => exact ih (s.emit f)

theorem core_writeSettings (options : Options) (settings : List (SettingKey × Int)) (s : State α) :
    (s.writeSettings options settings).core w = s.core w := by
  unfold writeSettings
  split
  · rfl
  · induction settings generalizing s with
    | nil => rfl
    | cons setting settings ih => exact ih (s.write _)

theorem core_pop (s : State α) : s.pop.core w = (s.core w).pop := by
  unfold pop Core.pop
  cases h : s.saved with
  | nil => simp [core, h]
  | cons g rest => simp [core, h]

theorem core_recordAll (items : List Finding) (s : State α) :
    (items.foldl record s).core w = s.core w := by
  induction items generalizing s with
  | nil => rfl
  | cons x items ih =>
    rw [List.foldl_cons, ih]
    cases x <;> rfl

variable [Scalar α]

theorem core_drawRecords (records : List (Placed α)) (s : State α) :
    (s.drawRecords records).core w = s.core w := by
  have draw (t : Transform α) (s : State α) :
      (records.foldl (fun s p => s.drawEntity (p.at_ (t * p.binding.transform))) s).core w =
        s.core w := by
    induction records generalizing s with
    | nil => rfl
    | cons p records ih => exact ih (s.drawEntity _)
  exact draw _ s

theorem core_addShape (shape : Shape) {s : State α} (h : (s.core w).Declares) :
    (s.addShape shape).core w = s.core w := by
  unfold addShape
  dsimp only
  split
  · rfl
  · rename_i o ho
    have hname : s.objects.contains o.name = true := h o ho
    simp only [core, Core.mk.injEq, true_and, and_true]
    funext n
    rw [Dictionary.contains_set]
    by_cases hn : n = o.name <;> simp [hn, hname]

theorem core_addPlan (plan : ShapePlan) {s : State α} (h : (s.core w).Declares) :
    (s.addPlan plan).core w = s.core w := by
  cases plan with
  | sphere radius => exact core_addShape _ h
  | inline m => exact core_addShape _ (s := (s.addMesh fun _ => .inline m).2) h
  | existing file => exact core_addShape _ (s := (s.addMesh fun _ => .existing file).2) h
  | separate m =>
    let behind := (s.addMesh fun name => .separate (meshFile name)).2
    exact core_addShape _
      (s := { behind with meshes := s.meshes.push ⟨meshFile (s.counters.next .mesh), m⟩ }) h

theorem core_commit (options : Options) {s : State α} (h : (s.core w).Declares) (c : Change α) :
    (c.commit options s).core w = (s.core w).after c := by
  cases c with
  | film width height => exact core_writeSettings options _ _
  | setting key value => exact core_writeSettings options _ s
  | endWorld =>
    simp only [Change.commit, popAll, core, Core.after, List.getLast?_map, List.map_nil]
    cases s.saved.getLast? <;> rfl
  | closeScope => exact core_pop s
  | beginObject name =>
    simp only [Change.commit, push, core, Core.after, List.map_cons, Core.mk.injEq, true_and, and_true]
    funext n
    exact Dictionary.contains_set _ _ _ _
  | endObject => exact congrArg (fun c : Core α => { c with openObject := none }) (core_pop s)
  | drawObject records => exact core_drawRecords _ s
  | freshMaterial m => cases m <;> cases w <;> rfl
  | namedMaterial name m => cases w <;> rfl
  | texture name fragments =>
    have hdeclare (s : State α) : (s.declareTexture name).core w =
        { s.core w with textures := (s.core w).textures.map (declared name) } := by cases w <;> rfl
    refine (hdeclare _).trans ?_
    rw [core_emitAll]
    rfl
  | light l => exact core_emitAll _ _
  | emission c => cases c <;> rfl
  | shape plan => exact core_addPlan plan h
  | nothing | place t | nameSystem name | camera c | beginWorld | openScope | bindMaterial name | flip =>
    rfl

theorem core_conclude (options : Options) {s : State α} (h : (s.core w).Declares)
    (result : Except Refusal (Verdict α)) :
    (s.conclude options result).core w = (s.core w).behind result := by
  match result with
  | .error (.problem p) => rfl
  | .error .overflow => rfl
  | .ok v =>
    obtain ⟨j, hj⟩ := conclude_ok options s v
    rw [hj]
    exact core_commit options h v.change

/-- What a directive makes of the core is what its survey comes to. -/
theorem core_apply (ctx : Context) (source : Path) {s : State α} (h : (s.core w).Declares)
    (st : Statement) :
    (s.apply ctx source st).core w =
      ((s.moveTo source st.line).core w).behind (s.survey ctx source st).1 := by
  have hrecord := core_recordAll (w := w) (s.survey ctx source st).2.items.toList (s.moveTo source st.line)
  rw [apply_eq_conclude, core_conclude ctx.options (by rw [hrecord]; exact h), hrecord]

end State

theorem Core.Declares.behind {α : Type} [Scalar α] {c : Core α} (h : c.Declares)
    (result : Except Refusal (Verdict α)) : (c.behind result).Declares := by
  cases result with
  | error r => exact h
  | ok v => exact h.after v.change

end SceneConvert
