import SceneConvert.Proofs.Run.History
import SceneConvert.Proofs.Run.Policy
import SceneConvert.Proofs.Survey.Learns
import SceneConvert.Proofs.Survey.Verdicts

/-!
# SceneConvert.Proofs.Run.Origins

Where the names of fragments come from.

* `Origin`: how a fragment comes by its name. Some names are declared by the scene, the others are made.
* `Origin.Between`, `Origin.Leads`: made names use up numbers, each of them once.
* `Naming.Declares`: what leads from one state to another, and the declared names in it.
* `Change.declares_commit`, `State.declares_apply`, `Moment.declares_behind`: a change declares what its
  directive does, if it is a declaration, and so does a moment of a run.
* `Follows.declares`: a run declares what its moments do, one after the other.
-/

namespace SceneConvert

variable {α : Type}

/-! ## Origins -/

def Counter.family : Counter → Family
  | material => .material
  | texture => .texture
  | spectrum => .spectrum
  | shape => .entity
  | light => .light
  | emission => .emission
  | mesh => .mesh

theorem Counter.family_inj {c d : Counter} (h : c.family = d.family) : c = d := by
  cases c <;> cases d <;> first | rfl | cases h

/-- How a fragment comes by its name. -/
inductive Origin where
  /-- A directive declares it. -/
  | declared (r : Reference)
  /-- The image that a declared texture is a multiple of. -/
  | unscaled (texture : String)
  | counted (c : Counter) (n : Nat)
  /-- The image behind the light with this number. -/
  | map (light : Nat)
  | camera
  deriving DecidableEq

namespace Origin

/-- What a fragment of this origin defines. -/
def reference : Origin → Reference
  | declared r => r
  | unscaled texture => (.texture, texture ++ "-tex")
  | counted c n => (c.family, c.name n)
  | map light => (.texture, mapName (Counter.light.name light))
  | camera => (.camera, "Camera")

def declared? : Origin → Option Reference
  | declared r => some r
  | unscaled _ | counted .. | map _ | camera => none

/-- Whether nothing in the scene has to do with the name. -/
def isMade : Origin → Bool
  | declared _ | unscaled _ => false
  | counted .. | map _ | camera => true

/-- The origin of a fragment that is written while the counters go from `lo` to `hi`. -/
def Between (lo hi : Counters) : Origin → Prop
  | declared r => r.1 = .material ∨ r.1 = .texture
  | unscaled _ => True
  | counted c n => c ≠ .texture ∧ lo.get c ≤ n ∧ n < hi.get c
  | map light => lo.get .light ≤ light ∧ light < hi.get .light
  | camera => False

theorem Between.mono {lo lo' hi hi' : Counters} {o : Origin} (h : o.Between lo hi)
    (hlo : ∀ c, lo'.get c ≤ lo.get c) (hhi : ∀ c, hi.get c ≤ hi'.get c) : o.Between lo' hi' := by
  cases o with
  | counted c n => exact ⟨h.1, Nat.le_trans (hlo c) h.2.1, Nat.lt_of_lt_of_le h.2.2 (hhi c)⟩
  | map light => exact ⟨Nat.le_trans (hlo .light) h.1, Nat.lt_of_lt_of_le h.2 (hhi .light)⟩
  | _ => exact h

theorem Between.not_again {lo mid hi : Counters} {o : Origin} (hmade : o.isMade = true)
    (h : o.Between lo mid) : ¬ o.Between mid hi := by
  intro h'
  cases o with
  | counted c n => exact absurd h.2.2 (Nat.not_lt.2 h'.2.1)
  | map light => exact absurd h.2 (Nat.not_lt.2 h'.1)
  | camera => exact h
  | declared | unscaled => cases hmade

end Origin

/-- What a state tells about names: what the fragments so far define, and the counters. -/
structure Naming where
  references : List Reference
  counters : Counters

/-- Fragments of these origins lead from one naming to another. -/
structure Origin.Leads (os : List Origin) (x y : Naming) : Prop where
  references : y.references = x.references ++ os.map reference
  counters : ∀ c, x.counters.get c ≤ y.counters.get c
  between : ∀ o ∈ os, o.Between x.counters y.counters
  once : (os.filter isMade).Nodup
  /-- The image that a texture is a multiple of comes with the texture. -/
  paired : ∀ name, os.count (.unscaled name) ≤ os.count (.declared (.texture, name))

namespace Origin.Leads

theorem of_nothing {x y : Naming} (hreferences : y.references = x.references)
    (hcounters : ∀ c, x.counters.get c ≤ y.counters.get c) : Leads [] x y where
  references := by rw [hreferences, List.map_nil, List.append_nil]
  counters := hcounters
  between _ ho := absurd ho List.not_mem_nil
  once := List.nodup_nil
  paired _ := Nat.le_refl _

theorem trans {os os' : List Origin} {x y z : Naming} (h : Leads os x y) (h' : Leads os' y z) :
    Leads (os ++ os') x z where
  references := by rw [h'.references, h.references, List.map_append, List.append_assoc]
  counters c := Nat.le_trans (h.counters c) (h'.counters c)
  between o ho := by
    rcases List.mem_append.1 ho with ho | ho
    · exact (h.between o ho).mono (fun _ => Nat.le_refl _) h'.counters
    · exact (h'.between o ho).mono h.counters fun _ => Nat.le_refl _
  once := by
    rw [List.filter_append, List.nodup_append]
    refine ⟨h.once, h'.once, ?_⟩
    rintro o ho _ ho' rfl
    obtain ⟨ho, hmade⟩ := List.mem_filter.1 ho
    exact (h.between o ho).not_again hmade (h'.between o (List.mem_filter.1 ho').1)
  paired name := by
    rw [List.count_append, List.count_append]
    exact Nat.add_le_add (h.paired name) (h'.paired name)

end Origin.Leads

/-- Fragments lead from one naming to another, and these are the declared ones among them. -/
def Naming.Declares (ds : List Reference) (x y : Naming) : Prop :=
  ∃ os, Origin.Leads os x y ∧ os.filterMap Origin.declared? = ds

theorem Naming.Declares.trans {ds ds' : List Reference} {x y z : Naming} (h : Declares ds x y)
    (h' : Declares ds' y z) : Declares (ds ++ ds') x z := by
  obtain ⟨os, hos, rfl⟩ := h
  obtain ⟨os', hos', rfl⟩ := h'
  exact ⟨os ++ os', hos.trans hos', List.filterMap_append⟩

theorem Naming.declares_nothing {x y : Naming} (hreferences : y.references = x.references)
    (hcounters : ∀ c, x.counters.get c ≤ y.counters.get c) : Declares [] x y :=
  ⟨[], .of_nothing hreferences hcounters, rfl⟩

theorem Naming.declares_refl (x : Naming) : Declares [] x x :=
  declares_nothing rfl fun _ => Nat.le_refl _

/-- The number `n` of the counter `c` is used up. -/
def Origin.Uses (c : Counter) (n : Nat) : Origin → Prop
  | counted d k => d = c ∧ k = n ∧ c ≠ .texture
  | map k => k = n ∧ c = .light
  | declared _ | unscaled _ | camera => False

theorem Naming.declares_counted {x y : Naming} {c : Counter} (os : List Origin)
    (hreferences : y.references = x.references ++ os.map Origin.reference)
    (hcounters : y.counters = x.counters.add 1 c) (huses : ∀ o ∈ os, o.Uses c (x.counters.get c))
    (honce : os.Nodup) : Declares [] x y := by
  have hget (d : Counter) :
      y.counters.get d = if c = d then x.counters.get d + 1 else x.counters.get d := by
    rw [hcounters, Counters.get_add]
  refine ⟨os, ⟨hreferences, fun d => ?_, fun o ho => ?_, honce.filter _, fun name => ?_⟩, ?_⟩
  · rw [hget]
    split <;> omega
  · have hself : y.counters.get c = x.counters.get c + 1 := (hget c).trans (if_pos rfl)
    cases o with
    | counted d n =>
      obtain ⟨rfl, rfl, hc⟩ := huses _ ho
      exact ⟨hc, Nat.le_refl _, by omega⟩
    | map n =>
      obtain ⟨rfl, rfl⟩ := huses _ ho
      exact ⟨Nat.le_refl _, by omega⟩
    | _ => exact (huses _ ho).elim
  · rw [List.count_eq_zero.2 fun ho => absurd (huses (.unscaled name) ho) id]
    exact Nat.zero_le _
  · rw [List.filterMap_eq_nil_iff]
    intro o ho
    cases o with
    | declared => exact (huses _ ho).elim
    | _ => rfl

/-! ## What operations declare -/

namespace State

def naming (s : State α) : Naming := ⟨s.entries.filterMap Entry.reference?, s.counters⟩

theorem naming_write (s : State α) (e : Entry α) :
    (s.write e).naming = ⟨s.naming.references ++ e.reference?.toList, s.counters⟩ := by
  unfold naming
  rw [entries_write, List.filterMap_append]
  cases h : e.reference? <;> simp [h] <;> rfl

theorem naming_emitAll (fs : List (Fragment α)) (s : State α) :
    (s.emitAll fs).naming = ⟨s.naming.references ++ fs.map Fragment.reference, s.counters⟩ := by
  induction fs generalizing s with
  | nil => simp [emitAll, naming]
  | cons f fs ih =>
    rw [emitAll, List.foldl_cons, ← emitAll, ih, emit, naming_write]
    simp only [Entry.reference?, Option.toList_some, List.append_assoc, List.map_cons]
    rfl

theorem declares_foldl {β : Type} {step : State α → β → State α}
    (h : ∀ s b, Naming.Declares [] s.naming (step s b).naming) (bs : List β) (s : State α) :
    Naming.Declares [] s.naming (bs.foldl step s).naming := by
  induction bs generalizing s with
  | nil => exact Naming.declares_refl _
  | cons b bs ih => exact (h s b).trans (ih (step s b))

theorem declares_write {e : Entry α} (he : e.reference? = none) (s : State α) :
    Naming.Declares [] s.naming (s.write e).naming := by
  rw [naming_write, he]
  exact Naming.declares_nothing (List.append_nil _) fun _ => Nat.le_refl _

theorem declares_writeSettings (options : Options) (settings : List (SettingKey × Int)) (s : State α) :
    Naming.Declares [] s.naming (s.writeSettings options settings).naming := by
  unfold writeSettings
  split
  · exact Naming.declares_refl _
  · exact declares_foldl (fun s _ => declares_write rfl s) settings s

theorem declares_take (c : Counter) (s : State α) :
    Naming.Declares [] s.naming (s.take c).2.naming := by
  refine Naming.declares_nothing rfl fun d => ?_
  change _ ≤ (s.counters.add 1 c).get d
  rw [Counters.get_add]
  split
  · exact Nat.le_succ _
  · exact Nat.le_refl _

theorem declares_takeEmit {c : Counter} (f : Fragment α) (s : State α) (hc : c ≠ .texture)
    (hf : f.reference = (c.family, s.counters.next c)) :
    Naming.Declares [] s.naming ((s.take c).2.emit f).naming := by
  refine Naming.declares_counted [.counted c (s.counters.get c)] ?_ rfl ?_ (by simp)
  · rw [emit, naming_write]
    simp only [Entry.reference?, hf, Option.toList_some]
    rfl
  · intro o ho
    obtain rfl := List.mem_singleton.1 ho
    exact ⟨rfl, rfl, hc⟩

theorem declares_drawEntity (p : Placed α) (s : State α) :
    Naming.Declares [] s.naming (s.drawEntity p).naming :=
  declares_takeEmit (c := .shape) (.entity _ p) s nofun rfl

theorem declares_drawRecords [Scalar α] (records : List (Placed α)) (s : State α) :
    Naming.Declares [] s.naming (s.drawRecords records).naming :=
  declares_foldl (fun s _ => declares_drawEntity _ s) records s

theorem declares_addMesh (source : String → MeshSource) (s : State α) :
    Naming.Declares [] s.naming (s.addMesh source).2.naming :=
  declares_takeEmit (c := .mesh) (.mesh _ _) s nofun rfl

theorem declares_addLight (l : LightSource α) (s : State α) :
    Naming.Declares [] s.naming (s.addLight l).naming := by
  have lit (os : List Origin) (huses : ∀ o ∈ os, o.Uses .light s.counters.light) (honce : os.Nodup)
      (hos : (l.map.toList.map fun file => (Fragment.map (mapName (s.counters.next .light)) file :
        Fragment α)).map Fragment.reference ++ [(.light, s.counters.next .light)] =
          os.map Origin.reference) :
      Naming.Declares [] s.naming (s.addLight l).naming := by
    refine Naming.declares_counted (c := .light) os ?_ ?_ huses honce
    · unfold addLight
      dsimp only
      rw [naming_emitAll, ← hos, List.map_append]
      rfl
    · unfold addLight
      dsimp only
      rw [naming_emitAll]
      rfl
  cases hmap : l.map with
  | none =>
    refine lit [.counted .light s.counters.light] ?_ (by simp) (by rw [hmap]; rfl)
    intro o ho
    obtain rfl := List.mem_singleton.1 ho
    exact ⟨rfl, rfl, nofun⟩
  | some file =>
    refine lit [.map s.counters.light, .counted .light s.counters.light] ?_ (by simp) (by rw [hmap]; rfl)
    intro o ho
    rcases List.mem_cons.1 ho with rfl | ho
    · exact ⟨rfl, rfl⟩
    · obtain rfl := List.mem_singleton.1 ho
      exact ⟨rfl, rfl, nofun⟩

theorem declares_addMaterial (name : String) (m : Material) (s : State α) :
    Naming.Declares [(.material, name)] s.naming (s.addMaterial name m).naming := by
  have hnaming : (s.addMaterial name m).naming =
      ⟨s.naming.references ++ [(.material, name)], s.counters⟩ :=
    naming_write s (.fragment (.material name m))
  refine ⟨[.declared (.material, name)],
    ⟨?_, fun c => ?_, fun o ho => ?_, by simp [Origin.isMade], ?_⟩, rfl⟩
  · rw [hnaming]
    rfl
  · rw [hnaming]
    exact Nat.le_refl _
  · obtain rfl := List.mem_singleton.1 ho
    exact .inl rfl
  · intro name
    simp

theorem declares_textureOf {name : String} {fs : List (Fragment α)} (hfs : Fragment.TextureOf name fs)
    (s : State α) : Naming.Declares [(.texture, name)] s.naming (s.emitAll fs).naming := by
  have emitted (os : List Origin) (hos : fs.map Fragment.reference = os.map Origin.reference)
      (hdeclared : os.filterMap Origin.declared? = [(.texture, name)])
      (hplain : ∀ o ∈ os, o = .declared (.texture, name) ∨ o = .unscaled name)
      (hpaired : os.count (.unscaled name) ≤ os.count (.declared (.texture, name))) :
      Naming.Declares [(.texture, name)] s.naming (s.emitAll fs).naming := by
    rw [naming_emitAll]
    refine ⟨os, ⟨by rw [hos], fun c => Nat.le_refl _, fun o ho => ?_, ?_, fun other => ?_⟩, hdeclared⟩
    · rcases hplain o ho with rfl | rfl
      · exact .inr rfl
      · trivial
    · rw [List.filter_eq_nil_iff.2 fun o ho => ?_]
      · exact List.nodup_nil
      · rcases hplain o ho with rfl | rfl <;> simp [Origin.isMade]
    · by_cases hother : other = name
      · rwa [hother]
      · rw [List.count_eq_zero.2 fun ho => ?_]
        · exact Nat.zero_le _
        · rcases hplain _ ho with h | h
          · cases h
          · exact hother (by cases h; rfl)
  rcases hfs with hfs | hfs
  · exact emitted [.declared (.texture, name)] hfs rfl (by simp) (by simp)
  · exact emitted [.unscaled name, .declared (.texture, name)] hfs rfl (by simp) (by simp)

theorem declares_addShape [Scalar α] (shape : Shape) (s : State α) :
    Naming.Declares [] s.naming (s.addShape shape).naming := by
  unfold addShape
  dsimp only
  split
  · exact declares_drawEntity _ s
  · exact Naming.declares_refl _

theorem declares_addPlan [Scalar α] (plan : ShapePlan) (s : State α) :
    Naming.Declares [] s.naming (s.addPlan plan).naming := by
  cases plan with
  | sphere radius => exact declares_addShape _ s
  | inline m => exact (declares_addMesh (fun _ => .inline m) s).trans (declares_addShape _ _)
  | existing file => exact (declares_addMesh (fun _ => .existing file) s).trans (declares_addShape _ _)
  | separate m =>
    let mesh := (s.addMesh fun name => .separate (meshFile name)).2
    let kept := { mesh with meshes := mesh.meshes.push ⟨meshFile (s.counters.next .mesh), m⟩ }
    have hmesh : Naming.Declares [] s.naming kept.naming :=
      declares_addMesh (fun name => .separate (meshFile name)) s
    exact hmesh.trans (declares_addShape _ kept)

end State

/-- What a directive is to declare: the operand is a name of the scene. -/
def Action.declaration? (a : Action) (operand : Option String) : Option Reference :=
  match a with
  | makeNamedMaterial => operand.map (Family.material, ·)
  | texture => operand.map (Family.texture, ·)
  | _ => none

/-- Whether the change declares something. -/
def Change.isDeclaration : Change α → Bool
  | namedMaterial .. | texture .. => true
  | _ => false

/-- What a directive declares by its change. -/
def Change.declares? (c : Change α) (a : Action) (operand : Option String) : Option Reference :=
  if c.isDeclaration then a.declaration? operand else none

variable [Scalar α]

theorem Change.declares_commit (options : Options) (s : State α) {c : Change α} {a : Action}
    {operand : Option String} (h : c.DeclaredBy a operand) :
    Naming.Declares (c.declares? a operand).toList s.naming (c.commit options s).naming := by
  have same {t : State α} (ht : t.naming = s.naming) : Naming.Declares [] s.naming t.naming := by
    rw [ht]
    exact Naming.declares_refl _
  cases c with
  | film width height =>
    have settings := State.declares_writeSettings options [(.filmWidth, width), (.filmHeight, height)]
      { s with filmAspect := some (Binary32.ofInt width / Binary32.ofInt height) }
    exact settings
  | setting key value => exact State.declares_writeSettings options [(key, value)] s
  | closeScope | endObject =>
    refine same ?_
    unfold commit State.pop
    cases s.saved <;> rfl
  | drawObject records => exact State.declares_drawRecords records.toList s
  | freshMaterial m =>
    cases m with
    | none => exact State.declares_take .material s
    | some m => exact State.declares_takeEmit (c := .material) (.material _ m) s nofun rfl
  | namedMaterial name m =>
    obtain ⟨rfl, rfl⟩ := h
    exact State.declares_addMaterial name m s
  | texture name fragments =>
    obtain ⟨rfl, rfl, hfragments⟩ := h
    exact State.declares_textureOf hfragments s
  | light l => exact State.declares_addLight l s
  | emission radiance =>
    cases radiance with
    | none => exact State.declares_take .emission s
    | some radiance => exact State.declares_takeEmit (c := .emission) (.emission _ radiance) s nofun rfl
  | shape plan => exact State.declares_addPlan plan s
  | _ => exact same rfl

namespace State

omit [Scalar α] in
theorem declares_recordAll {items : List Finding} {s : State α} {k : Nat}
    (h : items.filterMap Finding.spectrum? =
      (List.range' s.counters.spectrum k).map Counter.spectrum.name) :
    Naming.Declares [] s.naming (items.foldl record s).naming := by
  induction items generalizing s k with
  | nil => exact Naming.declares_refl _
  | cons x items ih =>
    cases x with
    | remark r => exact ih (s := s.remark r) h
    | problem p => exact ih (s := s.reportProblem p) h
    | spectrum p =>
      have h : p.name :: items.filterMap Finding.spectrum? = _ := h
      cases k with
      | zero => cases h
      | succ k =>
        rw [List.range'_succ, List.map_cons] at h
        obtain ⟨hname, hrest⟩ := List.cons.inj h
        have hfirst : Naming.Declares [] s.naming (s.record (.spectrum p)).naming :=
          declares_takeEmit (c := .spectrum) (.spectrum p.name _ _) s nofun
            (congrArg (Prod.mk Family.spectrum) hname)
        exact hfirst.trans (ih (s := s.record (.spectrum p)) hrest)

theorem naming_conclude (options : Options) (s : State α) (v : Verdict α) :
    (s.conclude options (.ok v)).naming = (v.change.commit options s).naming := by
  have remarks (rs : List Remark) (t : State α) : (rs.foldl remark t).naming = t.naming := by
    induction rs generalizing t with
    | nil => rfl
    | cons r rs ih => exact ih (t.remark r)
  unfold conclude
  dsimp only
  split <;> exact remarks _ _

/-- What a statement declares, unless it is refused. -/
def declares? (ctx : Context) (source : Path) (s : State α) (st : Statement) : Option Reference :=
  match (s.survey ctx source st).1 with
  | .ok v => v.change.declares? (Action.ofWord st.word) st.text?
  | .error _ => none

theorem declares_apply (ctx : Context) (source : Path) (s : State α) (st : Statement) :
    Naming.Declares (s.declares? ctx source st).toList s.naming (s.apply ctx source st).naming := by
  obtain ⟨k, -, hspectra⟩ := (grows_survey ctx source s st).numbered
  have hrecorded : Naming.Declares [] s.naming
      ((s.survey ctx source st).2.items.toList.foldl record (s.moveTo source st.line)).naming :=
    declares_recordAll (s := s.moveTo source st.line) (k := k) hspectra
  rw [apply_eq_conclude]
  refine hrecorded.trans ?_
  unfold declares?
  cases hv : (s.survey ctx source st).1 with
  | ok v =>
    rw [naming_conclude]
    exact v.change.declares_commit ctx.options _ (declaredBy_of_survey hv)
  | error r => cases r <;> exact Naming.declares_refl _

end State

/-! ## Runs -/

namespace Moment

/-- What the statement of a moment declares. -/
def declares? (ctx : Context) (m : Moment α) : Option Reference :=
  match m.event with
  | .fault _ => none
  | .statement st => m.state.declares? ctx m.source st

theorem declares_behind (ctx : Context) (m : Moment α) :
    Naming.Declares (m.declares? ctx).toList m.state.naming (m.behind ctx).naming := by
  unfold declares? behind
  cases m.event with
  | fault f => exact Naming.declares_refl _
  | statement st =>
    dsimp only
    split
    · rename_i hst
      have hnone : m.state.declares? ctx m.source st = none := by
        unfold State.declares? Change.declares?
        rw [hst]
        split
        · exact ite_self _
        · rfl
      rw [hnone]
      split
      · exact Naming.declares_refl _
      · rename_i path output _
        cases output with
        | none => exact Naming.declares_refl _
        | some output =>
          have hwrite := State.declares_write (e := .include_ output) rfl
            ((m.state.moveTo m.source st.line).remark (.includeRepeated path))
          exact hwrite
      · rename_i file _
        unfold State.enterFile
        dsimp only
        split <;> exact Naming.declares_refl _
    · exact State.declares_apply ctx m.source m.state st

end Moment

omit [Scalar α] in
theorem State.naming_leaveFile (inner before : State α) (file : IncludedFile) (output : Option Path) :
    (inner.leaveFile before file output).naming = inner.naming := by
  cases output with
  | none => rfl
  | some output =>
    refine (State.naming_write _ _).trans ?_
    exact congrArg (Naming.mk · _) (List.append_nil _)

/-- What moments declare, one after the other. -/
theorem Follows.declares {ctx : Context} {ms : List (Moment α)} {x z : Naming}
    (h : Follows ctx State.naming ms x z) :
    Naming.Declares (ms.filterMap (Moment.declares? ctx)) x z := by
  induction h with
  | nil x => exact Naming.declares_refl x
  | @cons m ms z _ ih =>
    have hboth := (m.declares_behind ctx).trans ih
    cases hm : m.declares? ctx with
    | none =>
      rw [hm] at hboth
      rwa [List.filterMap_cons_none hm]
    | some r =>
      rw [hm] at hboth
      rwa [List.filterMap_cons_some hm]

end SceneConvert
