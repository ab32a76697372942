import SceneConvert.Proofs.Run.Policy

/-!
# SceneConvert.Proofs.Run.Obeys

Every operation on a state keeps to a policy.

* `Obeys.emitAll`, `Obeys.drawEntity`, `Obeys.addShape`, `Obeys.addPlan`: growing the output.
* `Obeys.commit`: a change that rests on the policy.
* `Obeys.apply`: a directive whose words and files are allowed.
-/

namespace SceneConvert

variable {α : Type} {P : Policy α} {s : State α}

namespace State.Obeys

/-! ## Growing the output -/

theorem holds_write {r : Reference} (h : P.holds s.entries r) (e : Entry α) :
    P.holds (s.write e).entries r := by
  rw [entries_write]
  exact P.grows e h

theorem emitAll {fs : List (Fragment α)} (hs : s.Obeys P)
    (hbacked : Fragment.Backed (P.holds s.entries) fs) (hnames : ∀ x ∈ fs, P.word x.name)
    (hfiles : ∀ x ∈ fs, ∀ p, x.file? = some p → P.file p) (hfamily : ∀ x ∈ fs, x.family ≠ .mesh) :
    (s.emitAll fs).Obeys P ∧ (∀ x ∈ fs, P.holds (s.emitAll fs).entries x.reference) ∧
      ∀ r, P.holds s.entries r → P.holds (s.emitAll fs).entries r := by
  induction fs generalizing s with
  | nil => exact ⟨hs, by simp, fun _ h => h⟩
  | cons f fs ih =>
    have hname := hnames f List.mem_cons_self
    have hemit := hs.emit hbacked.1 hname (hfiles f List.mem_cons_self) (hfamily f List.mem_cons_self)
    have hgrows : ∀ r, P.holds s.entries r ∨ r = f.reference → P.holds (s.emit f).entries r := by
      rintro r (hr | rfl)
      · exact holds_write hr _
      · rw [entries_emit]
        exact P.defines hname
    obtain ⟨hobeys, hdefined, hkept⟩ := ih hemit (hbacked.2.mono hgrows)
      (fun x hx => hnames x (List.mem_cons_of_mem f hx))
      (fun x hx => hfiles x (List.mem_cons_of_mem f hx))
      (fun x hx => hfamily x (List.mem_cons_of_mem f hx))
    refine ⟨hobeys, fun x hx => ?_, fun r hr => hkept r (hgrows r (.inl hr))⟩
    rcases List.mem_cons.1 hx with rfl | hx
    · exact hkept _ (hgrows _ (.inr rfl))
    · exact hdefined x hx

theorem drawEntity (hs : s.Obeys P) {p : Placed α} (hp : ∀ r ∈ p.references, P.holds s.entries r) :
    (s.drawEntity p).Obeys P :=
  (hs.take .shape).emit hp (P.counted .shape s.counters.shape) nofun nofun

theorem drawRecords [Scalar α] {records : List (Placed α)} (hs : s.Obeys P)
    (h : ∀ p ∈ records, ∀ r ∈ p.references, P.holds s.entries r) : (s.drawRecords records).Obeys P := by
  have draw (t : Transform α) (ps : List (Placed α)) (s : State α) (hs : s.Obeys P)
      (h : ∀ p ∈ ps, ∀ r ∈ p.references, P.holds s.entries r) :
      (ps.foldl (fun s p => s.drawEntity (p.at_ (t * p.binding.transform))) s).Obeys P := by
    induction ps generalizing s with
    | nil => exact hs
    | cons p ps ih =>
      refine ih _ (hs.drawEntity (h p List.mem_cons_self)) ?_
      intro q hq r hr
      exact holds_write (h q (List.mem_cons_of_mem p hq) r hr) _
  exact draw _ records s hs h

theorem writeSettings (hs : s.Obeys P) (options : Options) (settings : List (SettingKey × Int)) :
    (s.writeSettings options settings).Obeys P := by
  unfold State.writeSettings
  split
  · exact hs
  · induction settings generalizing s with
    | nil => exact hs
    | cons setting settings ih => exact ih (hs.write ⟨nofun, nofun, nofun, nofun⟩ rfl)

theorem addMaterial (hs : s.Obeys P) {name : String} {m : Material} (hname : P.word name)
    (hm : ∀ r ∈ m.references, P.holds s.entries r) : (s.addMaterial name m).Obeys P := by
  have hemit := hs.emit (f := .material name m) hm hname nofun nofun
  refine hemit.rebind { hemit.bound with materials := fun n hn => ?_ } rfl rfl rfl rfl
  have hnames : n = name ∨ n ∈ s.materials := by
    simp only [State.addMaterial, declareMaterial] at hn
    split at hn
    · exact .inr hn
    · exact List.mem_cons.1 hn
  rcases hnames with rfl | hn
  · rw [entries_emit]
    exact P.defines hname
  · exact hemit.bound.materials n hn

theorem addLight (hs : s.Obeys P) {l : LightSource α}
    (hl : l.Rests (P.ground s.entries) (s.counters.next .light)) : (s.addLight l).Obeys P := by
  have hname : P.word (s.counters.next .light) := P.counted .light s.counters.light
  have htake := hs.take .light
  unfold LightSource.Rests at hl
  unfold State.addLight
  cases hmap : l.map with
  | none =>
    rw [hmap] at hl
    have hlight : (Fragment.light (s.counters.next .light) l.light).references =
        l.light.color.references := Fragment.references_light _ _
    exact htake.emit (hlight ▸ hl) hname nofun nofun
  | some p =>
    rw [hmap] at hl
    have himage := htake.emit (f := .map (mapName (s.counters.next .light)) p) nofun
      (P.mapped hname) (fun q hq => by cases hq; exact hl.1) nofun
    refine himage.emit (f := .light (s.counters.next .light) l.light) (fun r hr => ?_) hname nofun nofun
    rw [Fragment.references_light, hl.2] at hr
    obtain rfl := List.mem_singleton.1 hr
    rw [entries_emit]
    exact P.defines (P.mapped hname)

theorem addShape [Scalar α] (hs : s.Obeys P) {shape : Shape}
    (hshape : ∀ name, shape = .mesh name → P.holds s.entries (.mesh, name)) :
    (s.addShape shape).Obeys P := by
  have hp : ∀ r ∈ (⟨shape, s.graphics.binding⟩ : Placed α).references, P.holds s.entries r := by
    intro r hr
    simp only [Placed.references, Fragment.references, List.append_assoc, List.mem_append] at hr
    rcases hr with hr | hr
    · cases shape with
      | sphere radius => cases hr
      | mesh name =>
        obtain rfl := List.mem_singleton.1 hr
        exact hshape name rfl
    · exact hs.bound.graphics r (List.mem_append.2 hr)
  unfold State.addShape
  dsimp only
  split
  · exact hs.drawEntity hp
  · rename_i o _
    refine hs.rebind { hs.bound with objects := fun name records hrecords p hmem => ?_ } rfl rfl rfl rfl
    by_cases hname : name = o.name
    · subst hname
      simp only [Dictionary.get?_set_self, Option.some.injEq] at hrecords
      subst hrecords
      rcases Array.mem_push.1 hmem with hmem | rfl
      · cases hold : s.objects.get? o.name with
        | none => simp [hold] at hmem
        | some old =>
          rw [hold] at hmem
          exact hs.bound.objects _ _ hold p hmem
      · exact hp
    · simp only [Dictionary.get?_set_of_ne _ _ hname] at hrecords
      exact hs.bound.objects name records hrecords p hmem

theorem addMesh (hs : s.Obeys P) (source : String → MeshSource)
    (hfile : ∀ name p, (Fragment.mesh name (source name) : Fragment α).file? = some p → P.file p)
    (hmesh : ∀ name, (Entry.fragment (.mesh name (source name)) : Entry α).separateMesh? = none) :
    (s.addMesh source).2.Obeys P ∧
      P.holds (s.addMesh source).2.entries (.mesh, s.counters.next .mesh) := by
  have hword : P.word (s.counters.next .mesh) := P.counted .mesh s.counters.mesh
  refine ⟨(hs.take .mesh).write (P.admits_fragment nofun hword (hfile _)) (hmesh _), ?_⟩
  change P.holds (State.emit _ (.mesh _ _)).entries _
  rw [entries_emit]
  exact P.defines hword

theorem addSeparateMesh (hs : s.Obeys P) (m : TriangleMesh) :
    let name := s.counters.next .mesh
    let t := (s.addMesh fun name => .separate (meshFile name)).2
    let t : State α := { t with meshes := t.meshes.push ⟨meshFile name, m⟩ }
    t.Obeys P ∧ P.holds t.entries (.mesh, name) := by
  intro name t₀ t
  have hword : P.word name := P.counted .mesh s.counters.mesh
  have hentries : t.entries = s.entries ++ [.fragment (.mesh name (.separate (meshFile name)))] :=
    entries_emit _ _
  have hadmits : P.Admits s.entries (.fragment (.mesh name (.separate (meshFile name)))) := by
    refine P.admits_fragment nofun hword fun q hq => ?_
    cases hq
    exact P.separate hword
  obtain ⟨ns, hns⟩ := hs.meshes
  refine ⟨⟨?_, ?_, hs.included, ns ++ [s.counters.mesh], ?_, fun n hn => ?_, ?_, ?_⟩, ?_⟩
  · rw [hentries]
    exact .snoc hs.entries hadmits
  · rw [hentries]
    exact { hs.bound.grows _ with }
  · rw [List.pairwise_append]
    refine ⟨hns.increasing, List.pairwise_singleton _ _, fun n hn k hk => ?_⟩
    obtain rfl := List.mem_singleton.1 hk
    exact hns.counted n hn
  · change n < s.counters.mesh + 1
    rcases List.mem_append.1 hn with hn | hn
    · exact Nat.lt_succ_of_lt (hns.counted n hn)
    · rw [List.mem_singleton.1 hn]
      exact Nat.lt_succ_self _
  · change (s.meshes.push ⟨meshFile name, m⟩).toList.map SeparateMesh.file = _
    rw [Array.toList_push, List.map_append, hns.meshes, List.map_append]
    rfl
  · rw [hentries, List.filterMap_append, hns.entries, List.map_append]
    rfl
  · rw [hentries]
    exact P.defines hword

theorem addPlan [Scalar α] (hs : s.Obeys P) {plan : ShapePlan}
    (hplan : ∀ p, plan = .existing p → P.file p) : (s.addPlan plan).Obeys P := by
  have shape {t : State α} {name : String} (ht : t.Obeys P ∧ P.holds t.entries (.mesh, name)) :
      (t.addShape (.mesh name)).Obeys P :=
    ht.1.addShape fun n hn => by cases hn; exact ht.2
  cases plan with
  | sphere radius => exact hs.addShape nofun
  | inline m =>
    exact shape (hs.addMesh (fun _ => .inline m) (fun name p hp => by cases hp) fun _ => rfl)
  | existing file =>
    refine shape (hs.addMesh (fun _ => .existing file) (fun name p hp => ?_) fun _ => rfl)
    cases hp
    exact hplan file rfl
  | separate m => exact shape (hs.addSeparateMesh m)

/-! ## Changes -/

theorem pop (hs : s.Obeys P) : s.pop.Obeys P := by
  unfold State.pop
  split
  · exact hs
  · rename_i g rest hsaved
    refine hs.rebind { hs.bound with graphics := ?_, saved := fun g' hg' => ?_ } rfl rfl rfl rfl
    · exact hs.bound.saved g (hsaved ▸ List.mem_cons_self)
    · exact hs.bound.saved g' (hsaved ▸ List.mem_cons_of_mem g hg')

theorem popAll (hs : s.Obeys P) : s.popAll.Obeys P := by
  refine hs.rebind { hs.bound with graphics := ?_, saved := nofun } rfl rfl rfl rfl
  unfold State.popAll
  dsimp only
  cases hlast : s.saved.getLast? with
  | none => exact hs.bound.graphics
  | some g => exact hs.bound.saved g (List.mem_of_getLast? hlast)

theorem push (hs : s.Obeys P) : s.push.Obeys P := by
  refine hs.rebind { hs.bound with saved := fun g hg => ?_ } rfl rfl rfl rfl
  rcases List.mem_cons.1 hg with rfl | hg
  · exact hs.bound.graphics
  · exact hs.bound.saved g hg

theorem bindMaterial (hs : s.Obeys P) {name : Option String}
    (hname : ∀ n, name = some n → P.holds s.entries (.material, n)) :
    (s.bindMaterial name).Obeys P := by
  refine hs.rebind { hs.bound with graphics := fun r hr => ?_ } rfl rfl rfl rfl
  rcases List.mem_append.1 hr with hr | hr
  · obtain ⟨n, hn, rfl⟩ := List.mem_map.1 hr
    exact hname n (Option.mem_toList.1 hn)
  · exact hs.bound.graphics r (List.mem_append_right _ hr)

theorem bindEmission (hs : s.Obeys P) {name : Option String}
    (hname : ∀ n, name = some n → P.holds s.entries (.emission, n)) :
    (s.bindEmission name).Obeys P := by
  refine hs.rebind { hs.bound with graphics := fun r hr => ?_ } rfl rfl rfl rfl
  rcases List.mem_append.1 hr with hr | hr
  · exact hs.bound.graphics r (List.mem_append_left _ hr)
  · obtain ⟨n, hn, rfl⟩ := List.mem_map.1 hr
    exact hname n (Option.mem_toList.1 hn)

/-- A change that rests on what the policy allows. One that binds a name without defining it needs a
policy that is lenient. -/
theorem commit [Scalar α] (hs : s.Obeys P) (options : Options) {c : Change α}
    (hc : c.Rests (P.ground s.entries) s) (hdangles : c.dangles = true → P.IsLenient) :
    (c.commit options s).Obeys P := by
  have hmaterial : P.word (s.counters.next .material) := P.counted .material s.counters.material
  have hemission : P.word (s.counters.next .emission) := P.counted .emission s.counters.emission
  cases c with
  | nothing => exact hs
  | place t => exact hs.rebind { hs.bound with } rfl rfl rfl rfl
  | nameSystem name => exact hs.rebind { hs.bound with } rfl rfl rfl rfl
  | camera c => exact hs.rebind { hs.bound with } rfl rfl rfl rfl
  | film width height =>
    let t : State α := { s with filmAspect := some (Binary32.ofInt width / Binary32.ofInt height) }
    have ht : t.Obeys P := hs.rebind { hs.bound with } rfl rfl rfl rfl
    exact ht.writeSettings options _
  | setting key value => exact hs.writeSettings options _
  | beginWorld => exact hs.rebind { hs.bound with } rfl rfl rfl rfl
  | endWorld => exact hs.popAll.rebind { hs.popAll.bound with } rfl rfl rfl rfl
  | openScope => exact hs.push
  | closeScope => exact hs.pop
  | beginObject name =>
    refine hs.push.rebind { hs.push.bound with objects := fun n records hrecords p hp => ?_ } rfl rfl
      rfl rfl
    by_cases hn : n = name
    · subst hn
      simp only [Change.commit, Dictionary.get?_set_self, Option.some.injEq] at hrecords
      subst hrecords
      simp at hp
    · simp only [Change.commit, Dictionary.get?_set_of_ne _ _ hn] at hrecords
      exact hs.bound.objects n records hrecords p hp
  | endObject => exact hs.pop.rebind { hs.pop.bound with } rfl rfl rfl rfl
  | drawObject records =>
    obtain ⟨name, hrecords⟩ := hc
    exact hs.drawRecords fun p hp => hs.bound.objects name records hrecords p (Array.mem_toList_iff.1 hp)
  | bindMaterial name =>
    refine hs.bindMaterial ?_
    intro n hn
    subst hn
    exact hc
  | freshMaterial m =>
    have htake := hs.take .material
    cases m with
    | none => exact htake.bindMaterial fun n hn => by cases hn; exact hdangles rfl _ _ hmaterial
    | some m =>
      -- the name is bound before it is defined, which comes to the same as binding it afterwards
      have hadd := htake.addMaterial hmaterial hc
      refine hadd.bindMaterial ?_
      intro n hn
      cases hn
      change P.holds (State.emit _ (.material _ m)).entries _
      rw [entries_emit]
      exact P.defines hmaterial
  | namedMaterial name m => exact hs.addMaterial hc.1 hc.2
  | texture name fs =>
    obtain ⟨hname, hfs⟩ := hc
    have hwords : ∀ x ∈ fs, P.word x.name := fun x hx => by
      rcases hfs.names x hx with h | h <;> rw [h]
      · exact hname
      · exact P.unscaled hname
    obtain ⟨hemit, hdefined, -⟩ := hs.emitAll hfs.backed hwords hfs.files
      fun x hx => by rw [hfs.family x hx]; decide
    obtain ⟨x, hx, hreference⟩ := hfs.defined
    refine hemit.rebind { hemit.bound with textures := fun n hn => ?_ } rfl rfl rfl rfl
    have hnames : n = name ∨ n ∈ (s.emitAll fs).textures := by
      simp only [Change.commit, declareTexture] at hn
      split at hn
      · exact .inr hn
      · exact List.mem_cons.1 hn
    rcases hnames with rfl | hn
    · exact hreference ▸ hdefined x hx
    · exact hemit.bound.textures n hn
  | light l => exact hs.addLight hc
  | emission c =>
    have htake := hs.take .emission
    cases c with
    | none => exact htake.bindEmission fun n hn => by cases hn; exact hdangles rfl _ _ hemission
    | some c =>
      have hemit := htake.emit (f := .emission (s.counters.next .emission) c) hc hemission nofun nofun
      refine hemit.bindEmission ?_
      intro n hn
      cases hn
      rw [entries_emit]
      exact P.defines hemission
  | shape plan =>
    refine hs.addPlan ?_
    intro p hp
    subst hp
    exact hc
  | flip => exact hs.rebind { hs.bound with } rfl rfl rfl rfl

end State.Obeys

end SceneConvert
