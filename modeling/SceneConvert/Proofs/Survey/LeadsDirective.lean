import SceneConvert.Proofs.Survey.Leads

/-!
# SceneConvert.Proofs.Survey.LeadsDirective

How the survey of each directive is put together: one lemma for each kind of texture, material, light,
camera and shape, and for each directive. No other module goes through them all.

* `Site.rests`: a change takes its references, words and files from what the survey found.
* `Site.sound`: so does that of a verdict, and one that binds a name without defining it is a flaw.
* `leads_ofStatement`: the verdict on a directive is sound.
-/

namespace SceneConvert

open Survey

namespace Verdict

variable {α : Type}

/-- A verdict with a problem comes before any spectrum. -/
def phase (verdict : Verdict α) : Phase := if verdict.problem.isSome then .plain else .colored

/-- If a name is bound without being defined there is a problem, and no problem is about spelling. -/
structure IsProper (verdict : Verdict α) : Prop where
  dangles : verdict.change.dangles = true → verdict.problem.isSome = true
  kind : ∀ p, verdict.problem = some p → p.kind ≠ .lexical

theorem isProper_of_defined {change : Change α} (h : change.dangles = false) {afterwards : List Remark} :
    IsProper ⟨change, none, afterwards⟩ where
  dangles hdangles := absurd (h.symm.trans hdangles) Bool.false_ne_true
  kind := nofun

end Verdict

namespace Site

section

variable {α : Type} (v : Site α)

/-- The change rests on what the survey found. -/
def rests (change : Change α) : Fact :=
  ⟨fun f => change.Rests (v.ground f) v.state, fun hgrows h => h.mono (v.ground_within hgrows)⟩

def sound (verdict : Verdict α) : Fact := (v.rests verdict.change).and (.of verdict.IsProper)

/-- Fragments that make up a texture. -/
def textures (name : String) (fs : List (Fragment α)) : Fact :=
  ⟨fun f => Fragment.Textures (v.ground f) name fs, fun hgrows h => h.mono (v.ground_within hgrows)⟩

/-- A light under the next name of a light. -/
def lit (l : LightSource α) : Fact :=
  ⟨fun f => l.Rests (v.ground f) (v.state.counters.next .light),
    fun hgrows h => h.mono (v.ground_within hgrows)⟩

/-- What the inputs of a node refer to. -/
def nodeFact (spec : Node.Spec) : Fact := v.knows (spec.inputs.flatMap NodeInput.references)

end

section

variable {α : Type} {v : Site α} {i : Phase} {a : Fact}

/-! ## Textures -/

theorem leads_textureClass {name : String} :
    v.Leads .plain a (textureClass name) (fun _ => .plain) fun _ => .nothing := by
  refine .find ⟨fun ps => ps.words_mark _, Parameters.untagged_spread⟩ ?_ (fun p => by cases p <;> rfl)
    fun p _ => ?_
  · exact fun ps p hp => List.mem_of_find?_eq_some hp
  cases p with
  | none => exact .refuse nofun
  | some p =>
    refine .next (.given nofun) fun kind => ?_
    exact .next (.given nofun) fun class_ => .done

theorem leads_input {class_ : TextureClass} {name : String} {default : Int} :
    v.Leads i a (input v.state class_ name default) (fun _ => .colored)
      fun x => v.knows x.references := by
  cases class_ with
  | number => exact .bind leads_amount fun _ => .pure nofun fun _ hf => hf.2
  | color => exact .bind leads_reflectance fun _ => .pure id fun _ hf => hf.2

theorem leads_constantNode {class_ : TextureClass} :
    v.Leads i a (constantNode v.state class_) (fun _ => .colored) v.nodeFact := by
  refine .bind leads_input fun x => .pure id fun f hf => ?_
  simpa [nodeFact] using hf.2

theorem leads_productNode {class_ : TextureClass} :
    v.Leads i a (productNode v.state class_) (fun _ => .colored) v.nodeFact := by
  refine .next leads_has fun tex => .next leads_has fun scale => ?_
  refine .bind leads_input fun x => .bind leads_input fun y => ?_
  refine .pure id fun f hf => ?_
  obtain ⟨⟨-, hx⟩, hy⟩ := hf
  simpa [nodeFact] using ⟨hx, hy⟩

theorem leads_blendNode {class_ : TextureClass} :
    v.Leads i a (blendNode v.state class_) (fun _ => .colored) v.nodeFact := by
  refine .bind leads_input fun x => .bind leads_input fun y => ?_
  refine .bind leads_amount fun factor => .pure id fun f hf => ?_
  obtain ⟨⟨⟨-, hx⟩, hy⟩, hfactor⟩ := hf
  simpa [nodeFact] using ⟨hfactor, hx, hy⟩

theorem leads_checkerboardNode {class_ : TextureClass} :
    v.Leads .plain a (checkerboardNode v.state class_) (fun _ => .colored) v.nodeFact := by
  refine .next leads_integer fun dimension => .ite (fun _ => .refuse nofun) fun _ => ?_
  refine .bind leads_input fun x => .bind leads_input fun y => ?_
  refine .next leads_has fun hasU => .next leads_has fun hasV => ?_
  refine .ite (fun _ => ?_) fun _ => .pure id fun f hf => ?_
  · refine .bind leads_amount fun u => .bind leads_amount fun w => ?_
    refine .pure id fun f hf => ?_
    obtain ⟨⟨⟨⟨-, hx⟩, hy⟩, hu⟩, hw⟩ := hf
    simpa [nodeFact] using ⟨hx, hy, hu, hw⟩
  · obtain ⟨⟨-, hx⟩, hy⟩ := hf
    simpa [nodeFact] using ⟨hx, hy⟩

theorem leads_wrap : v.Leads i a wrap (fun _ => i) fun _ => .nothing := by
  refine .next (.next (leads_look fun _ => rfl) fun _ => .done) fun word => ?_
  split
  · exact .done
  · exact .next .remark fun _ => .done

theorem leads_image {class_ : TextureClass} {name : String} (hempty : "" ∈ v.words) :
    v.Leads .plain a (image v.ctx v.source class_ name) (fun _ => .plain) fun x => v.finds x.1.file := by
  refine .bind (leads_word hempty) fun filename => .knowing fun hword => ?_
  refine .ite (fun _ => .refuse nofun) fun _ => .when .remark fun _ => ?_
  refine .next leads_wrap fun wrap => .next leads_number fun factor => ?_
  exact .next leads_truth fun gamma => .pure id fun _ _ => ⟨filename, hword, rfl⟩

theorem textures_node {f : Findings} {name : String} {spec : Node.Spec}
    (h : (v.nodeFact spec).holds f) :
    Fragment.Textures (v.ground f) name [(.node name spec : Fragment α)] where
  backed := ⟨h, trivial⟩
  defined := ⟨_, List.mem_singleton_self _, rfl⟩
  family x hx := by rw [List.mem_singleton.1 hx]; rfl
  names x hx := .inl (by rw [List.mem_singleton.1 hx]; rfl)
  files x hx p hp := by rw [List.mem_singleton.1 hx] at hp; cases hp

theorem textures_imageFragments {f : Findings} {class_ : TextureClass} {name : String}
    {image : ImageTexture} {factor : Option Float32} (h : (v.finds image.file).holds f) :
    Fragment.Textures (v.ground f) name (imageFragments class_ name image factor : List (Fragment α)) := by
  cases factor with
  | none =>
    refine ⟨⟨nofun, trivial⟩, ⟨_, List.mem_singleton_self _, rfl⟩, ?_, ?_, ?_⟩
    all_goals
      intro x hx
      rw [imageFragments, List.mem_singleton] at hx
      subst hx
    · rfl
    · exact .inl rfl
    · intro p hp
      cases hp
      exact h
  | some factor =>
    refine ⟨⟨nofun, ?_, trivial⟩, ⟨_, List.mem_cons_of_mem _ (List.mem_singleton_self _), rfl⟩,
      ?_, ?_, ?_⟩
    · intro r hr
      simp only [Fragment.references, List.flatMap_cons, List.flatMap_nil, NodeInput.references,
        Amount.references, List.nil_append, List.append_nil, List.mem_singleton] at hr
      exact .inr hr
    all_goals
      intro x hx
      simp only [imageFragments, List.mem_cons, List.not_mem_nil, or_false] at hx
      rcases hx with rfl | rfl
    · rfl
    · rfl
    · exact .inr rfl
    · exact .inl rfl
    · intro p hp
      cases hp
      exact h
    · intro p hp
      cases hp

theorem leads_texture {name : String} (hempty : "" ∈ v.words) :
    v.Leads .plain a (Survey.texture v.ctx v.state v.source name) (fun _ => .colored)
      (v.textures name) := by
  have node {a : Fact} {spec : Survey Node.Spec}
      (h : v.Leads .plain a spec (fun _ => .colored) v.nodeFact) :
      v.Leads .plain a (do return [.node name (← spec)]) (fun _ => .colored) (v.textures name) :=
    .bind h fun _ => .pure id fun _ hf => textures_node hf.2
  refine .next leads_textureClass fun (class_, kind) => ?_
  dsimp only
  split
  · exact node leads_constantNode
  · exact node leads_productNode
  · exact node leads_blendNode
  · exact .bind (leads_image hempty) fun _ =>
      .pure nofun fun _ hf => textures_imageFragments hf.2
  · exact node leads_checkerboardNode
  · exact .refuse nofun

/-! ## Materials -/

theorem leads_diffuse :
    v.Leads i a (diffuse v.state) (fun _ => .colored) fun m => v.knows m.references :=
  .next leads_has fun _ => .bind leads_reflectance fun _ => .pure id fun _ hf => hf.2

theorem leads_glass : v.Leads i a (glass v.state) (fun _ => .colored) fun m => v.knows m.references := by
  refine .bind leads_reflectance fun specular => .next leads_has fun named => ?_
  refine .bind leads_amount fun index => .next leads_has fun transmits => ?_
  refine .ite (fun _ => .bind leads_reflectance fun transmission => ?_) fun _ => ?_
  · refine .pure id fun f hf => ?_
    obtain ⟨⟨⟨-, hspecular⟩, hindex⟩, htransmission⟩ := hf
    simpa [Material.references] using ⟨hspecular, hindex, htransmission⟩
  · refine .pure id fun f hf => ?_
    obtain ⟨⟨-, hspecular⟩, hindex⟩ := hf
    simpa [Material.references] using ⟨hspecular, hindex⟩

theorem leads_conductor :
    v.Leads i a (conductor v.state) (fun _ => .colored) fun m => v.knows m.references := by
  refine .bind leads_reflectance fun eta => .bind leads_reflectance fun k => ?_
  refine .next leads_has fun hasU => .next leads_has fun hasV => ?_
  refine .ite (fun _ => ?_) fun _ => ?_
  · refine .bind leads_amount fun x => .bind leads_amount fun y => ?_
    refine .pure id fun f hf => ?_
    obtain ⟨⟨⟨⟨-, heta⟩, hk⟩, hx⟩, hy⟩ := hf
    simpa [Material.references] using ⟨heta, hk, hx, hy⟩
  · refine .bind leads_amount fun x => .pure id fun f hf => ?_
    obtain ⟨⟨⟨-, heta⟩, hk⟩, hx⟩ := hf
    simpa [Material.references] using ⟨heta, hk, hx⟩

theorem leads_mirror :
    v.Leads i a (mirror v.state) (fun _ => .colored) fun m => v.knows m.references :=
  .bind leads_reflectance fun _ => .pure id fun _ hf => hf.2

theorem leads_principled {name : String} :
    v.Leads i a (principled v.state name) (fun _ => .colored) fun m => v.knows m.references := by
  refine .bind leads_reflectance fun base => .next leads_texture? fun eta => ?_
  refine .when (.report nofun) fun _ => .next leads_number fun eta => ?_
  refine .bind leads_amount fun roughness => .bind leads_amount fun specularTint => ?_
  refine .bind leads_amount fun metallic => .bind leads_amount fun clearcoat => ?_
  refine .bind leads_amount fun clearcoatGloss => ?_
  refine .bind leads_amount fun anisotropic => .bind leads_amount fun sheen => ?_
  refine .bind leads_amount fun sheenTint => .pure id fun f hf => ?_
  obtain ⟨⟨⟨⟨⟨⟨⟨⟨⟨-, hbase⟩, h1⟩, h2⟩, h3⟩, h4⟩, h5⟩, h6⟩, h7⟩, h8⟩ := hf
  simpa [Material.references] using ⟨hbase, h1, h2, h3, h4, h5, h6, h7, h8⟩

theorem leads_blended (hempty : "" ∈ v.words) :
    v.Leads i a blended (fun _ => i) fun parts => .of (parts ⊆ v.words) := by
  refine .bind leads_words? fun names => .knowing fun hnames => ?_
  cases names with
  | some names => exact .pure id fun _ _ => hnames names rfl
  | none =>
    refine .bind (leads_word hempty) fun first => .knowing fun hfirst => ?_
    refine .bind (leads_word hempty) fun second => .knowing fun hsecond => ?_
    refine .pure id fun _ _ => ?_
    simpa using ⟨hfirst, hsecond⟩

theorem leads_checkMaterial {part name : String} :
    v.Leads .plain a (checkMaterial v.state part name) (fun _ => .plain)
      fun _ => .of (v.state.hasMaterial part = true) :=
  .ite (fun h => .pure id fun _ _ => h) fun _ => .refuse nofun

theorem leads_blend {name : String} (hempty : "" ∈ v.words) :
    v.Leads .plain a (blend v.state name) (fun _ => .plain) fun m => v.knows m.references := by
  refine .bind (leads_blended hempty) fun parts => .knowing fun hparts => ?_
  split
  · rename_i first second
    refine .ite (fun _ => .refuse nofun) fun _ => ?_
    refine .bind leads_checkMaterial fun _ => .knowing fun hfirst => ?_
    refine .bind leads_checkMaterial fun _ => .knowing fun hsecond => ?_
    refine .bind leads_amount fun factor => .pure id fun f hf r hr => ?_
    simp only [Material.references, List.mem_cons] at hr
    rcases hr with rfl | rfl | hr
    · exact ⟨hparts (by simp), hfirst⟩
    · exact ⟨hparts (by simp), hsecond⟩
    · exact hf.2 r hr
  · exact .refuse nofun

theorem leads_material {name kind : String} (hempty : "" ∈ v.words) :
    v.Leads .plain a (Survey.material v.state name kind) (fun _ => .colored)
      fun m => v.knows m.references := by
  unfold Survey.material
  split
  · exact leads_diffuse
  · exact leads_diffuse
  · exact leads_glass
  · exact leads_glass
  · exact leads_conductor
  · exact leads_conductor
  · exact leads_mirror
  · exact leads_principled
  · exact .plainly (leads_blend hempty)
  · exact .refuse nofun

/-! ## Lights, cameras and shapes -/

theorem leads_point {δ : Type} [Scalar δ] {name : String} {bad : Problem} {default : Vec3 δ}
    (hbad : bad.kind ≠ .lexical) :
    v.Leads .plain a (point name bad default) (fun _ => .plain) fun _ => .nothing := by
  refine .next leads_numbers? fun values => ?_
  split
  · exact .done
  · exact .refuse hbad
  · exact .done

theorem leads_areaLight {kind : String} :
    v.Leads .plain a (Survey.areaLight v.state kind) (fun _ => .colored)
      fun c => v.knows c.references := by
  unfold Survey.areaLight
  split
  · exact leads_illuminant
  · exact leads_illuminant
  · exact .refuse nofun

theorem leads_perspective {δ : Type} {cameraToWorld : Transform δ} :
    v.Leads .plain a (perspective cameraToWorld) (fun _ => .plain) fun _ => .nothing := by
  refine .next leads_number fun fieldOfView => .ite (fun _ => .refuse nofun) fun _ => ?_
  refine .next leads_number? fun aspect => ?_
  have rest : v.Leads .plain a (do
      let lensRadius ← number? "lensradius"
      let focalDistance ← number? "focaldistance"
      return ({ cameraToWorld, fieldOfView, frameAspect := aspect.filter fun a => Binary32.ofInt 0 < a,
                lensRadius, focalDistance } : Camera δ)) (fun _ => .plain) fun _ => .nothing :=
    .next leads_number? fun lensRadius => .next leads_number? fun focalDistance => .done
  cases aspect with
  | none => exact rest
  | some aspect => exact .when .remark fun _ => rest

theorem leads_camera {δ : Type} {kind : String} {cameraToWorld : Transform δ} :
    v.Leads .plain a (Survey.camera kind cameraToWorld) (fun _ => .plain) fun _ => .nothing := by
  unfold Survey.camera
  split
  · exact leads_perspective
  · exact .refuse nofun

theorem leads_film : v.Leads .plain a Survey.film (fun _ => .plain) fun _ => .nothing := by
  refine .next leads_integer fun width => .next leads_integer fun height => ?_
  exact .ite (fun _ => .refuse nofun) fun _ => .done

theorem leads_sphere : v.Leads .plain a sphere (fun _ => .plain) fun plan => v.rests (.shape plan) := by
  refine .next leads_number fun radius => .next leads_number fun zMin => ?_
  refine .next leads_number fun zMax => .next leads_number fun angle => ?_
  refine .ite (fun _ => .refuse nofun) fun _ => .when (.report nofun) fun _ => ?_
  exact .pure id fun _ _ => trivial

theorem leads_vertexAttribute {name : String} {count : Nat} {dropped : Remark} :
    v.Leads i a (vertexAttribute name count dropped) (fun _ => i) fun _ => .nothing := by
  refine .next leads_numbers? fun values => ?_
  cases values with
  | none => exact .done
  | some values =>
    refine .ite (fun _ => .done) fun _ => ?_
    exact .next .remark fun _ => .done

theorem leads_meshIndices {positions : List Float32} :
    v.Leads .plain a (meshIndices positions) (fun _ => .plain) fun _ => .nothing := by
  refine .next (leads_look fun _ => rfl) fun indices => ?_
  cases indices with
  | none => exact .ite (fun _ => .done) fun _ => .refuse nofun
  | some indices =>
    refine .ite (fun _ => .refuse nofun) fun _ => ?_
    split
    · exact .refuse nofun
    · exact .done

theorem leads_triangleMesh : v.Leads .plain a triangleMesh (fun _ => .plain) fun _ => .nothing := by
  refine .next leads_numbers? fun p => .next (.given nofun) fun _ => ?_
  refine .ite (fun _ => .refuse nofun) fun _ => .next leads_meshIndices fun indices => ?_
  refine .next leads_vertexAttribute fun normals => .next leads_has fun uv => ?_
  exact .next leads_vertexAttribute fun uvs => .done

theorem leads_trianglePlan :
    v.Leads .plain a (trianglePlan v.ctx v.state) (fun _ => .plain)
      fun plan => v.rests (.shape plan) := by
  refine .next leads_triangleMesh fun mesh => .ite (fun _ => ?_) fun _ => ?_
  · exact .pure id fun _ _ => trivial
  · exact .next .remark fun _ => .pure id fun _ _ => trivial

theorem leads_plyPlan (hempty : "" ∈ v.words) (hhears : v.hears = true) :
    v.Leads .plain a (plyPlan v.ctx v.state v.source) (fun _ => .plain)
      fun plan => v.rests (.shape plan) := by
  refine .bind (leads_word hempty) fun filename => .knowing fun hword => ?_
  refine .ite (fun _ => .refuse nofun) fun _ => .when .remark fun _ => ?_
  refine .next (.journal hhears) fun journal => ?_
  split
  · exact .next .remark fun _ => .pure id fun _ _ => ⟨filename, hword, rfl⟩
  · exact .refuse nofun
  · rename_i hoverflow
    exact .throw ⟨filename, hword, journal, hoverflow⟩

theorem leads_shape {kind : String} (hempty : "" ∈ v.words) (hhears : v.hears = true) :
    v.Leads .plain a (Survey.shape v.ctx v.state v.source kind) (fun _ => .plain)
      fun plan => v.rests (.shape plan) := by
  unfold Survey.shape
  split
  · exact leads_sphere
  · exact leads_trianglePlan
  · exact leads_plyPlan hempty hhears
  · exact .refuse nofun

/-! ## Verdicts -/

variable {st : Statement}

theorem leads_accept {change : Change α} {o : Verdict α → Phase}
    (h : ∀ f, a.holds f → (v.rests change).holds f) (hdangles : change.dangles = false) :
    v.Leads .plain a (Verdict.accept change) o v.sound :=
  .pure (fun _ => rfl) fun f hf => ⟨h f hf, Verdict.isProper_of_defined hdangles⟩

theorem leads_flawed {change : Change α} {p : Problem} {o : Verdict α → Phase}
    (hkind : p.kind ≠ .lexical) (h : ∀ f, a.holds f → (v.rests change).holds f) :
    v.Leads .plain a (Verdict.flawed change p) o v.sound :=
  .pure (fun _ => rfl) fun f hf => ⟨h f hf, fun _ => rfl, fun _ hq => Option.some.inj hq ▸ hkind⟩

theorem leads_acceptUsed {change : Change α} (h : ∀ f, a.holds f → (v.rests change).holds f)
    (hdangles : change.dangles = false) :
    v.Leads i a (Verdict.acceptUsed change) Verdict.phase v.sound :=
  .next .unused fun _ =>
    .pure nofun fun f hf => ⟨h f hf, Verdict.isProper_of_defined hdangles⟩

theorem leads_plain {β : Type} {m : Survey β} {change : β → Change α} {o : Verdict α → Phase}
    (hm : v.Leads .plain a m (fun _ => .plain) fun _ => .nothing)
    (h : ∀ b f, (v.rests (change b)).holds f) (hdangles : ∀ b, (change b).dangles = false) :
    v.Leads .plain a (do Verdict.accept (change (← m))) o v.sound :=
  .next hm fun b => leads_accept (fun f _ => h b f) (hdangles b)

theorem leads_text : v.Leads .plain a st.text (fun _ => .plain) fun w => .of (st.text? = some w) :=
  .require nofun fun _ hw _ _ => hw

/-- An operand whose words do not matter. -/
theorem leads_kind : v.Leads .plain a st.text (fun _ => .plain) fun _ => .nothing :=
  .given nofun

theorem leads_numbers {count : Nat} :
    v.Leads .plain a (st.numbers count) (fun _ => .plain) fun _ => .nothing := by
  refine .next (.given nofun) fun values => ?_
  exact .ite (fun _ => .done) fun _ => .refuse nofun

theorem leads_closeScope : v.Leads .plain a (Verdict.closeScope v.state st) Verdict.phase v.sound :=
  .ite (fun _ => .refuse nofun) fun _ => leads_accept (fun _ _ => trivial) rfl

theorem leads_endObject : v.Leads .plain a (Verdict.endObject v.state) Verdict.phase v.sound := by
  unfold Verdict.endObject
  refine .when (.report nofun) fun _ => ?_
  exact .ite (fun _ => leads_flawed nofun fun _ _ => trivial) fun _ =>
    leads_accept (fun _ _ => trivial) rfl

theorem leads_endWorld : v.Leads .plain a (Verdict.endWorld v.state) Verdict.phase v.sound := by
  have remarks (gs : List (Graphics α)) :
      v.Leads .plain a (gs.forM fun _ => remark .scopeUnclosed) (fun _ => .plain) fun _ => .nothing := by
    induction gs with
    | nil => exact .done
    | cons g gs ih => exact .next .remark fun _ => ih
  refine .next (remarks v.state.saved) fun _ => ?_
  split
  · exact leads_flawed nofun fun _ _ => trivial
  · exact leads_accept (fun _ _ => trivial) rfl

theorem leads_drawObject :
    v.Leads .plain a (Verdict.drawObject v.ctx v.state st) Verdict.phase v.sound := by
  refine .next leads_kind fun name => ?_
  refine .ite (fun _ => leads_accept (fun _ _ => trivial) rfl) fun _ => ?_
  refine .ite (fun _ => .refuse nofun) fun _ => ?_
  refine .bind (b := fun records => .of (v.state.objects.get? name = some records))
    (.require nofun fun _ h _ _ => h) fun records => .knowing fun hrecords => ?_
  exact leads_accept (fun _ _ => ⟨name, hrecords⟩) rfl

theorem leads_beginObject : v.Leads .plain a (Verdict.beginObject v.state st) Verdict.phase v.sound := by
  refine .next leads_kind fun name => .when .remark fun _ => ?_
  exact .ite (fun _ => leads_flawed nofun fun _ _ => trivial) fun _ =>
    leads_accept (fun _ _ => trivial) rfl

theorem leads_cameraVerdict {o : Verdict α → Phase} :
    v.Leads .plain a (Verdict.camera v.ctx v.state st) o v.sound := by
  refine .next leads_kind fun kind => ?_
  refine .ite (fun _ => leads_accept (fun _ _ => trivial) rfl) fun _ => ?_
  refine .bind (.attempt leads_camera) fun c => ?_
  cases c with
  | error p => exact .knowing fun hkind => leads_flawed hkind fun _ _ => trivial
  | ok c =>
    exact .next .unused fun unused =>
      .pure (fun _ => rfl) fun _ _ => ⟨trivial, Verdict.isProper_of_defined rfl⟩

theorem leads_areaLightVerdict :
    v.Leads .plain a (Verdict.areaLight v.ctx v.state st) Verdict.phase v.sound := by
  refine .next leads_kind fun kind => ?_
  refine .ite (fun _ => leads_accept (fun _ _ => trivial) rfl) fun _ => ?_
  refine .bind (.attempt leads_areaLight) fun c => ?_
  cases c with
  | error p => exact .knowing fun hkind => leads_flawed hkind fun _ _ => trivial
  | ok c => exact leads_acceptUsed (fun _ hf => hf.2) rfl

section

variable (hst : st.words ⊆ v.words)

include hst

theorem hasEmpty : "" ∈ v.words := hst List.mem_cons_self

theorem hasText {w : String} (h : st.text? = some w) : w ∈ v.words := hst (st.mem_words_of_text? h)

theorem leads_namedMaterial :
    v.Leads .plain a (Verdict.namedMaterial v.ctx v.state st) Verdict.phase v.sound := by
  refine .bind leads_text fun name => .knowing fun hname => ?_
  refine .ite (fun _ => leads_accept (fun _ _ => trivial) rfl) fun _ => ?_
  refine .ite (fun h => leads_accept (fun _ _ => ⟨hasText hst hname, h⟩) rfl) fun _ => ?_
  exact .refuse nofun

theorem leads_makeNamedMaterial :
    v.Leads .plain a (Verdict.makeNamedMaterial v.ctx v.state st) Verdict.phase v.sound := by
  refine .bind leads_text fun name => .knowing fun hname => ?_
  refine .ite (fun _ => leads_accept (fun _ _ => trivial) rfl) fun _ => ?_
  refine .bind (leads_word (hasEmpty hst)) fun kind => .ite (fun _ => .refuse nofun) fun _ => ?_
  refine .when .remark fun _ => .bind (leads_material (hasEmpty hst)) fun m => ?_
  exact leads_acceptUsed (fun _ hf => ⟨hasText hst hname, hf.2⟩) rfl

theorem leads_materialVerdict :
    v.Leads .plain a (Verdict.material v.ctx v.state st) Verdict.phase v.sound := by
  refine .next leads_kind fun kind => ?_
  refine .ite (fun _ => leads_accept (fun _ _ => trivial) rfl) fun _ => ?_
  refine .ite (fun _ => leads_accept (fun _ _ => trivial) rfl) fun _ => ?_
  refine .bind (.attempt (leads_material (hasEmpty hst))) fun m => ?_
  cases m with
  | error p => exact .knowing fun hkind => leads_flawed hkind fun _ _ => trivial
  | ok m => exact leads_acceptUsed (fun _ hf => hf.2) rfl

theorem leads_textureVerdict :
    v.Leads .plain a (Verdict.texture v.ctx v.state v.source st) Verdict.phase v.sound := by
  refine .ite (fun _ => leads_accept (fun _ _ => trivial) rfl) fun _ => ?_
  refine .bind leads_text fun name => .knowing fun hname => ?_
  refine .bind (leads_texture (hasEmpty hst)) fun fragments => ?_
  exact .next .unused fun unused =>
    .pure nofun fun _ hf => ⟨⟨hasText hst hname, hf.2⟩, Verdict.isProper_of_defined rfl⟩

theorem leads_shapeVerdict (hhears : v.hears = true) :
    v.Leads .plain a (Verdict.shape v.ctx v.state v.source st) Verdict.phase v.sound := by
  refine .next leads_kind fun kind => ?_
  refine .ite (fun _ => leads_accept (fun _ _ => trivial) rfl) fun _ => ?_
  exact .bind (leads_shape (hasEmpty hst) hhears) fun plan => leads_acceptUsed (fun _ hf => hf.2) rfl

end

end

section

variable {α : Type} [Scalar α] {v : Site α} {i : Phase} {a : Fact} {st : Statement}

theorem leads_pointLight : v.Leads .plain a (pointLight v.state) (fun _ => .colored) v.lit :=
  .next (leads_point nofun) fun _ => .bind leads_illuminant fun _ => .pure id fun _ hf => hf.2

theorem leads_distantLight : v.Leads .plain a (distantLight v.state) (fun _ => .colored) v.lit := by
  refine .next (leads_point nofun) fun source => .next (leads_point nofun) fun target => ?_
  refine .ite (fun _ => .refuse nofun) fun _ => ?_
  exact .bind leads_illuminant fun _ => .pure id fun _ hf => hf.2

theorem leads_environmentLight (hempty : "" ∈ v.words) :
    v.Leads i a (environmentLight v.ctx v.state v.source) (fun _ => .colored) v.lit := by
  refine .next leads_scale fun factor => ?_
  refine .bind (leads_word hempty) fun filename => .knowing fun hword => ?_
  refine .ite (fun _ => ?_) fun _ => ?_
  · exact .bind leads_color fun _ => .pure id fun _ hf => hf.2
  · refine .next leads_has fun colored => .when .remark fun _ => ?_
    exact .pure nofun fun _ _ => ⟨⟨filename, hword, rfl⟩, rfl⟩

theorem leads_light {kind : String} (hempty : "" ∈ v.words) :
    v.Leads .plain a (Survey.light v.ctx v.state v.source kind) (fun _ => .colored) v.lit := by
  unfold Survey.light
  split
  · exact leads_pointLight
  · exact leads_distantLight
  · exact leads_environmentLight hempty
  · exact .refuse nofun

theorem leads_lightVerdict (hst : st.words ⊆ v.words) :
    v.Leads .plain a (Verdict.light v.ctx v.state v.source st) Verdict.phase v.sound := by
  refine .next leads_kind fun kind => ?_
  refine .ite (fun _ => leads_accept (fun _ _ => trivial) rfl) fun _ => ?_
  exact .bind (leads_light (hasEmpty hst)) fun l => leads_acceptUsed (fun _ hf => hf.2) rfl

/-- The verdict on a statement rests on what its survey finds. -/
theorem leads_ofStatement (hst : st.words ⊆ v.words) (hhears : v.hears = true) :
    v.Leads .plain a (Verdict.ofStatement v.ctx v.state v.source st) Verdict.phase v.sound := by
  have matrix {singular : Problem} (hkind : singular.kind ≠ .lexical) :
      v.Leads .plain a (Verdict.matrix st singular : Survey (Transform α)) (fun _ => .plain)
        fun _ => .nothing :=
    .next leads_numbers fun _ => .given hkind
  have placed {β : Type} {count : Nat} {p : Problem} {t : List Float32 → Option β}
      {change : β → Change α} (hkind : p.kind ≠ .lexical) (h : ∀ b f, (v.rests (change b)).holds f)
      (hdangles : ∀ b, (change b).dangles = false) :
      v.Leads .plain a (do
        let values ← st.numbers count
        Verdict.accept (change (← require p (t values)))) Verdict.phase v.sound :=
    .next leads_numbers fun _ => leads_plain (.given hkind) h hdangles
  unfold Verdict.ofStatement
  cases Action.ofWord st.word
  case translate => exact leads_plain leads_numbers (fun _ _ => trivial) fun _ => rfl
  case rotate => exact placed nofun (fun _ _ => trivial) fun _ => rfl
  case scale => exact placed nofun (fun _ _ => trivial) fun _ => rfl
  case lookAt => exact placed nofun (fun _ _ => trivial) fun _ => rfl
  case transform => exact leads_plain (matrix nofun) (fun _ _ => trivial) fun _ => rfl
  case concatTransform => exact leads_plain (matrix nofun) (fun _ _ => trivial) fun _ => rfl
  case coordinateSystem => exact leads_plain leads_kind (fun _ _ => trivial) fun _ => rfl
  case coordSysTransform =>
    exact .next leads_kind fun _ =>
      leads_plain (.given nofun) (fun _ _ => trivial) fun _ => rfl
  case camera => exact leads_cameraVerdict
  case film => exact leads_plain leads_film (fun _ _ => trivial) fun _ => rfl
  case sampler => exact leads_plain leads_integer (fun _ _ => trivial) fun _ => rfl
  case integrator => exact leads_plain leads_integer (fun _ _ => trivial) fun _ => rfl
  case worldEnd => exact leads_endWorld
  case attributeEnd => exact leads_closeScope
  case transformEnd => exact leads_closeScope
  case objectBegin => exact leads_beginObject
  case objectEnd => exact leads_endObject
  case objectInstance => exact leads_drawObject
  case material => exact leads_materialVerdict hst
  case makeNamedMaterial => exact leads_makeNamedMaterial hst
  case namedMaterial => exact leads_namedMaterial hst
  case texture => exact leads_textureVerdict hst
  case lightSource => exact leads_lightVerdict hst
  case areaLightSource => exact leads_areaLightVerdict
  case shape => exact leads_shapeVerdict hst hhears
  case ignored => exact .next .remark fun _ => leads_accept (fun _ _ => trivial) rfl
  case unsupported => exact .refuse nofun
  case unknown => exact .refuse nofun
  all_goals exact leads_accept (fun _ _ => trivial) rfl

end

end Site

end SceneConvert
