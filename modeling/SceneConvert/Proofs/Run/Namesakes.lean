import Mathlib
import SceneConvert.Proofs.Path.OutputName
import SceneConvert.Proofs.Run.Origins
import SceneConvert.Proofs.Run.Pages

/-!
# SceneConvert.Proofs.Run.Namesakes

When two fragments have the same name.

* `Namesakes`: the ways to that.
* `Origin.Orderly`: what holds of the origins of all fragments of a conversion.
* `Origin.eq_of_undeclared`: names that are not declared are different from each other.
* `State.namesakes_ofScene`: there are no other ways.
-/

namespace SceneConvert

variable {α : Type}

/-- The ways for two fragments to have one name, behind these declarations. -/
inductive Namesakes (ds : List Reference) : Reference → Prop
  /-- Two directives declare the name. -/
  | declared {r : Reference} : 2 ≤ ds.count r → Namesakes ds r
  /-- The declared name is one that materials get by counting. -/
  | material {n : Nat} : (.material, Counter.material.name n) ∈ ds →
    Namesakes ds (.material, Counter.material.name n)
  /-- The declared name is one that images behind lights get by counting. -/
  | map {n : Nat} : (.texture, mapName (Counter.light.name n)) ∈ ds →
    Namesakes ds (.texture, mapName (Counter.light.name n))
  /-- The declared name is that of the image of another declared texture. -/
  | unscaled {name : String} : (.texture, name ++ "-tex") ∈ ds → (.texture, name) ∈ ds →
    Namesakes ds (.texture, name ++ "-tex")
  /-- The name is that of the images of a texture that two directives declare. -/
  | redeclared {name : String} : 2 ≤ ds.count (.texture, name) →
    Namesakes ds (.texture, name ++ "-tex")

namespace Origin

theorem mapName_ne_unscaled (light name : String) : mapName light ≠ name ++ "-tex" := by
  intro h
  have hlast := congrArg (fun s : String => s.toList.getLast?) h
  simp [mapName] at hlast

/-- What holds of the origins of a whole conversion. -/
structure Orderly (os : List Origin) : Prop where
  family : ∀ r, .declared r ∈ os → r.1 = .material ∨ r.1 = .texture
  counter : ∀ n, .counted .texture n ∉ os
  once : (os.filter isMade).Nodup
  paired : ∀ name, os.count (.unscaled name) ≤ os.count (.declared (.texture, name))

theorem Leads.orderly {os : List Origin} {x y : Naming} (h : Leads os x y) : Orderly os where
  family r hr := h.between (.declared r) hr
  counter n hn := (h.between (.counted .texture n) hn).1 rfl
  once := h.once
  paired := h.paired

theorem Leads.orderly_camera {os : List Origin} {x y : Naming} (h : Leads os x y) :
    Orderly (os ++ [.camera]) where
  family r hr := h.orderly.family r (by simpa using hr)
  counter n hn := h.orderly.counter n (by simpa using hn)
  once := by
    have hnone : .camera ∉ os := fun hmem => h.between .camera hmem
    rw [List.filter_append, List.nodup_append]
    refine ⟨h.once, by decide, ?_⟩
    rintro o ho _ ho' rfl
    obtain rfl := List.mem_singleton.1 (List.mem_filter.1 ho').1
    exact hnone (List.mem_filter.1 ho).1
  paired name := by
    have hpaired := h.paired name
    simpa [List.count_append, List.count_singleton] using hpaired

theorem eq_of_isMade {o o' : Origin} (ho : o.isMade = true) (ho' : o'.isMade = true)
    (hc : ∀ n, o ≠ .counted .texture n) (hc' : ∀ n, o' ≠ .counted .texture n)
    (h : o.reference = o'.reference) : o = o' := by
  obtain ⟨hfamily, hname⟩ := Prod.mk.inj h
  cases o with
  | declared | unscaled => cases ho
  | counted c n =>
    cases o' with
    | declared | unscaled => cases ho'
    | counted d m =>
      obtain rfl := Counter.family_inj hfamily
      rw [Counter.name_inj hname]
    | map light =>
      obtain rfl : c = .texture := Counter.family_inj hfamily
      exact absurd rfl (hc n)
    | camera => cases c <;> cases hfamily
  | map light =>
    cases o' with
    | declared | unscaled => cases ho'
    | counted d m =>
      obtain rfl : .texture = d := Counter.family_inj hfamily
      exact absurd rfl (hc' m)
    | map light' => rw [Counter.name_inj ((String.append_left_inj _).1 hname)]
    | camera => cases hfamily
  | camera =>
    cases o' with
    | declared | unscaled => cases ho'
    | counted d m => cases d <;> cases hfamily
    | map light => cases hfamily
    | camera => rfl

theorem ne_unscaled_of_isMade {o : Origin} (ho : o.isMade = true) (hc : ∀ n, o ≠ .counted .texture n)
    (name : String) : o.reference ≠ (Origin.unscaled name).reference := by
  intro h
  obtain ⟨hfamily, hname⟩ := Prod.mk.inj h
  cases o with
  | declared | unscaled => cases ho
  | counted c n =>
    obtain rfl : c = .texture := Counter.family_inj hfamily
    exact hc n rfl
  | map light => exact mapName_ne_unscaled _ _ hname
  | camera => cases hfamily

theorem eq_of_undeclared {o o' : Origin} (ho : o.declared? = none) (ho' : o'.declared? = none)
    (hc : ∀ n, o ≠ .counted .texture n) (hc' : ∀ n, o' ≠ .counted .texture n)
    (h : o.reference = o'.reference) : o = o' := by
  by_cases hmade : o.isMade = true
  · by_cases hmade' : o'.isMade = true
    · exact eq_of_isMade hmade hmade' hc hc' h
    · cases o' with
      | unscaled name => exact absurd h (ne_unscaled_of_isMade hmade hc name)
      | declared => cases ho'
      | counted | map | camera => exact absurd rfl hmade'
  · cases o with
    | unscaled name =>
      by_cases hmade' : o'.isMade = true
      · exact absurd h.symm (ne_unscaled_of_isMade hmade' hc' name)
      · cases o' with
        | unscaled name' => rw [(String.append_left_inj _).1 (congrArg Prod.snd h)]
        | declared => cases ho'
        | counted | map | camera => exact absurd rfl hmade'
    | declared => cases ho
    | counted | map | camera => exact absurd rfl hmade

theorem eq_of_declared? {o : Origin} {r : Reference} (h : o.declared? = some r) : o = .declared r := by
  cases o <;> cases h
  rfl

theorem count_declared (os : List Origin) (r : Reference) :
    (os.filterMap declared?).count r = os.count (.declared r) := by
  rw [List.count_filterMap, List.count_eq_countP]
  refine List.countP_congr ?_
  intro o _
  cases o <;> simp [declared?]

namespace Orderly

variable {os : List Origin} (h : Orderly os)
include h

theorem mem_declared {name : String} (hmem : .unscaled name ∈ os) :
    (.texture, name) ∈ os.filterMap declared? := by
  have hcount := List.count_pos_iff.2 hmem
  rw [← List.count_pos_iff, count_declared]
  exact Nat.lt_of_lt_of_le hcount (h.paired name)

theorem namesakes_declared {r : Reference} {o : Origin} (hr : .declared r ∈ os) (ho : o ∈ os)
    (hdeclared : o.declared? = none) (heq : o.reference = r) :
    Namesakes (os.filterMap declared?) r := by
  have hmem : r ∈ os.filterMap declared? := List.mem_filterMap.2 ⟨_, hr, rfl⟩
  have hfamily := h.family r hr
  subst heq
  cases o with
  | declared => cases hdeclared
  | unscaled name => exact .unscaled hmem (h.mem_declared ho)
  | map light => exact .map hmem
  | counted c n =>
    cases c with
    | material => exact .material hmem
    | texture => exact absurd ho (h.counter n)
    | _ => rcases hfamily with hfamily | hfamily <;> cases hfamily
  | camera => rcases hfamily with hfamily | hfamily <;> cases hfamily

theorem namesakes {r : Reference} (hr : 2 ≤ (os.map reference).count r) :
    Namesakes (os.filterMap declared?) r := by
  obtain ⟨pair, hpair, hmap⟩ := List.sublist_map_iff.1 (List.replicate_sublist_iff.2 hr)
  obtain ⟨o, rest, rfl, heq, hrest⟩ := List.map_eq_cons_iff.1 hmap.symm
  obtain ⟨o', rest', rfl, heq', hnil⟩ := List.map_eq_cons_iff.1 hrest
  obtain rfl := List.map_eq_nil_iff.1 hnil
  have ho : o ∈ os := hpair.subset List.mem_cons_self
  have ho' : o' ∈ os := hpair.subset (List.mem_cons_of_mem _ List.mem_cons_self)
  have hc (n : Nat) : o ≠ .counted .texture n := fun e => h.counter n (e ▸ ho)
  have hc' (n : Nat) : o' ≠ .counted .texture n := fun e => h.counter n (e ▸ ho')
  by_cases hsame : o = o'
  · subst hsame
    have htwice : 2 ≤ os.count o := List.replicate_sublist_iff.1 hpair
    subst heq
    cases o with
    | declared r => exact .declared (by rwa [count_declared])
    | unscaled name =>
      exact .redeclared (by rw [count_declared]; exact Nat.le_trans htwice (h.paired name))
    | counted | map | camera =>
      exact absurd ((hpair.filter isMade).nodup h.once) (by simp [List.filter_cons, isMade])
  · cases hd : o.declared? with
    | some r' =>
      obtain rfl : o = .declared r' := eq_of_declared? hd
      cases hd' : o'.declared? with
      | some r'' =>
        obtain rfl : o' = .declared r'' := eq_of_declared? hd'
        exact absurd (congrArg declared (heq.trans heq'.symm)) hsame
      | none =>
        subst heq
        exact h.namesakes_declared ho ho' hd' heq'
    | none =>
      cases hd' : o'.declared? with
      | some r'' =>
        obtain rfl : o' = .declared r'' := eq_of_declared? hd'
        subst heq'
        exact h.namesakes_declared ho' ho hd heq
      | none => exact absurd (eq_of_undeclared hd hd' hc hc' (heq.trans heq'.symm)) hsame

end Orderly

end Origin

def Page.references (p : Page α) : List Reference := p.entries.filterMap Entry.reference?

namespace State

theorem references_finish (s : State α) : s.finish.naming.references = s.naming.references ∨
    s.finish.naming.references = s.naming.references ++ [(.camera, "Camera")] := by
  have closed (t : State α) : t.closeObject.naming = t.naming := by
    unfold closeObject
    split <;> rfl
  unfold finish
  split
  · exact .inl rfl
  · unfold writeCamera
    split
    · exact .inl (congrArg Naming.references (closed s))
    · rename_i c _
      right
      rw [emit, naming_write, naming_write, closed]
      simp [Entry.reference?]
      rfl

theorem references_pages {ctx : Context} {s : State α}
    (h : Interleaves s.entries ((s.pages ctx).map Page.entries)) :
    ((s.pages ctx).flatMap Page.references).Perm s.naming.references := by
  have hperm := h.perm.filterMap Entry.reference?
  rwa [List.filterMap_flatten, List.map_map, ← List.flatMap_def] at hperm

variable [Scalar α]

/-- In all files of a conversion together, a name of a family is that of two fragments only if two
directives declare it, or if one declares a name that is also made, or by the image of another texture. -/
theorem namesakes_ofScene {ctx : Context} {scene : Scene} {s : State α}
    (h : ofScene ctx scene = .ok s) :
    ∃ text ms t, scene.content ctx = .ok text ∧
      Runs ctx ctx.input [ctx.files.absolute ctx.input] (Event.ofText ctx.options.collapseLists text)
        (scene.opening ctx) ms t ∧
      s = t.finish ∧
      ∀ r, 2 ≤ ((s.pages ctx).flatMap Page.references).count r →
        Namesakes (ms.filterMap (Moment.declares? ctx)) r := by
  obtain ⟨text, htext, rfl⟩ := exists_read_of_ofScene h
  obtain ⟨ms, hruns⟩ := exists_runs ctx ctx.input [ctx.files.absolute ctx.input]
    (Event.ofText ctx.options.collapseLists text) (scene.opening ctx : State α)
  refine ⟨text, ms, _, htext, hruns, rfl, fun r hr => ?_⟩
  obtain ⟨os, hleads, hdeclared⟩ := (hruns.follows naming_leaveFile).declares
  rw [(references_pages (interleaves_ofScene h)).count_eq] at hr
  have hopening : (scene.opening ctx : State α).naming.references = [] := by
    cases scene <;> rfl
  have hreferences := hleads.references
  rw [hopening, List.nil_append] at hreferences
  rw [← hdeclared]
  rcases references_finish ((scene.opening ctx : State α).read ctx ctx.input text) with hfinish | hfinish
  · rw [hfinish] at hr
    exact hleads.orderly.namesakes (by rwa [← hreferences])
  · rw [hfinish] at hr
    have hall := hleads.orderly_camera.namesakes (r := r) (by rw [List.map_append, ← hreferences]; exact hr)
    rwa [List.filterMap_append, show [Origin.camera].filterMap Origin.declared? = [] from rfl,
      List.append_nil] at hall

/-- A scene that declares the name that its other material gets. -/
def captured : String :=
  "MakeNamedMaterial \"material_0\" \"string type\" \"matte\" Material \"matte\""

def capturedNamed : Statement :=
  ⟨1, "MakeNamedMaterial", some (.text "material_0"),
    ⟨[⟨"type", some "string", .text "matte", false⟩]⟩⟩

def capturedFresh : Statement := ⟨1, "Material", some (.text "matte"), ⟨[]⟩⟩

theorem events_captured : Event.ofText true captured =
    [.statement capturedNamed, .statement capturedFresh] := by
  cbv

/-- The state behind some statements of a scene text without any files around it. -/
def ofStatements (sts : List Statement) : State Float32 :=
  sts.foldl (fun s st => s.apply Conversion.solitary Conversion.solitary.input st)
    (opening Conversion.solitary)

theorem ofScene_captured :
    ofScene Conversion.solitary (.text captured) =
      .ok (ofStatements [capturedNamed, capturedFresh]).finish := by
  rw [ofScene, ofText, read, show Conversion.solitary.options.collapseLists = true from rfl,
    events_captured, run_apply rfl (by decide), run_apply (by decide +kernel) (by decide), run_nil]
  rfl

/-- Both materials have the declared name. -/
theorem namesakes_ofScene_captured :
    ∃ s : State Float32, ofScene Conversion.solitary (.text captured) = .ok s ∧
      ((s.pages Conversion.solitary).flatMap Page.references).count (.material, "material_0") = 2 ∧
      ∃ ms : List (Moment Float32),
        Namesakes (ms.filterMap (Moment.declares? Conversion.solitary)) (.material, "material_0") := by
  obtain ⟨-, ms, -, -, -, -, hnamesakes⟩ := namesakes_ofScene ofScene_captured
  have hcount : (((ofStatements [capturedNamed, capturedFresh]).finish.pages Conversion.solitary).flatMap
      Page.references).count (.material, "material_0") = 2 := by decide +kernel
  exact ⟨_, ofScene_captured, hcount, ms, hnamesakes _ (Nat.le_of_eq hcount.symm)⟩

/-- But only one directive declares it: the counter of materials gives a name of the scene once more. -/
theorem captured_by_counter :
    ∃ (s t : State Float32) (ms : List (Moment Float32)),
      ofScene Conversion.solitary (.text captured) = .ok s ∧
      Runs Conversion.solitary Conversion.solitary.input
        [Conversion.solitary.files.absolute Conversion.solitary.input] (Event.ofText true captured)
        (Scene.opening Conversion.solitary (.text captured)) ms t ∧
      s = t.finish ∧
      ((s.pages Conversion.solitary).flatMap Page.references).count (.material, "material_0") = 2 ∧
      ms.filterMap (Moment.declares? Conversion.solitary) = [(.material, "material_0")] := by
  have hopen : (ofStatements [capturedNamed]).halted = false := by decide +kernel
  have hruns : Runs Conversion.solitary Conversion.solitary.input
      [Conversion.solitary.files.absolute Conversion.solitary.input]
      [.statement capturedNamed, .statement capturedFresh] (opening Conversion.solitary) _
      (ofStatements [capturedNamed, capturedFresh]) :=
    .tick rfl (.directive (by decide))
      (.tick (s := ofStatements [capturedNamed]) hopen (.directive (by decide)) .nil)
  rw [events_captured]
  refine ⟨_, _, _, ofScene_captured, hruns, rfl, by decide +kernel, by decide +kernel⟩

end State

end SceneConvert
