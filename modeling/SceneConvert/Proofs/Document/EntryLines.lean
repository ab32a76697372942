import SceneConvert.Document.Render
import SceneConvert.Proofs.Scene.Ground
import SceneConvert.Proofs.Text.Lines

/-!
# SceneConvert.Proofs.Document.EntryLines

The lines of entries, and what the names in them make of them.

* `Fragment.Spelled`, `Entry.Spelled`: the names and the files in an entry are texts of some kind.
* `Entry.isSetting`: the entries that are render settings.
* `LineLaw`: how a property of names carries over to the values in lines, and from there to the lines.
* `LineLaw.body`, `LineLaw.block`, `LineLaw.setting`, `LineLaw.activeCamera`: under a law, the lines of
  fragments and other entries.
-/

namespace SceneConvert

/-- The name, the references and the file of a fragment are texts of a kind. -/
structure Fragment.Spelled {α : Type} (kind : String → Prop) (f : Fragment α) : Prop where
  name : kind f.name
  references : ∀ r ∈ f.references, kind r.2
  file : ∀ p, f.file? = some p → kind p.text

def Entry.Spelled {α : Type} (kind : String → Prop) : Entry α → Prop
  | fragment f => f.Spelled kind
  | include_ p => kind p.text
  | setting .. | activeCamera => True

def Entry.isSetting {α : Type} : Entry α → Bool
  | setting .. => true
  | include_ _ | activeCamera | fragment _ => false

/-- An entry for the camera of the scene: the camera itself, or the line that makes it the active one. -/
def Entry.isCamera {α : Type} : Entry α → Bool
  | activeCamera | fragment (.camera ..) => true
  | setting .. | include_ _ | fragment _ => false

/-- A character of the words that lines are made from: no bracket, no quote and no line break. -/
def isPlain (c : Char) : Bool := isHomely c || c ∈ [' ', ':', ',']

theorem isPlain_of_isDigit {c : Char} (h : c.isDigit = true) : isPlain c = true := by
  simp [isPlain, isHomely, Char.isAlphanum, h]

theorem isPlain_of_isNumeric {c : Char} (h : IsNumeric c) : isPlain c = true := by
  have hplain : ['.', '-', 'i', 'n', 'f', 'N', 'a'].all isPlain = true := by decide
  exact h.elim isPlain_of_isDigit (List.all_eq_true.1 hplain c)

/-- What forms that are lines of a fragment start with. -/
def formWords : List String := ["attribute ", "faces ", "texture ", "blackbody ", "refl", "illum"]

/-- How a property of names carries over to the values in lines, and from there to the lines. -/
structure LineLaw (name value line : String → Prop) : Prop where
  plainName : ∀ {s}, s.toList.all isPlain = true → name s
  plain : ∀ {s}, s.toList.all isPlain = true → value s
  append : ∀ {s t}, value s → value t → value (s ++ t)
  quoted : ∀ {s}, name s → value (singleQuoted s)
  enclosed : ∀ {s}, value s → value ("(" ++ s ++ ")")
  listed : ∀ {s}, value s → value ("[" ++ s ++ "]")
  property : ∀ {s}, value s → line (":" ++ s)
  form : ∀ word, word ∈ formWords → ∀ {s}, value s → line ("(" ++ word ++ s ++ ")")
  number : ∀ v, line (Binary32.literal v)
  word : ∀ {s}, name s → line (singleQuoted s)

/-- A block that is one line, with a property. -/
def Block.IsLine (line : String → Prop) (b : Block) : Prop := ∃ text, b = .line text ∧ line text

namespace LineLaw

variable {name value line : String → Prop} (law : LineLaw name value line)

include law

/-! ## Values -/

theorem intercalate {sep : String} (hsep : value sep) {ts : List String} (h : ∀ t ∈ ts, value t) :
    value (sep.intercalate ts) := by
  induction ts with
  | nil => exact law.plain rfl
  | cons t ts ih =>
    have htail := ih fun t ht => h t (List.mem_cons_of_mem _ ht)
    cases ts with
    | nil => simpa using h t List.mem_cons_self
    | cons u us =>
      rw [String.intercalate_cons_cons]
      exact law.append (law.append (h t List.mem_cons_self) hsep) htail

theorem literal (v : Float32) : value (Binary32.literal v) :=
  law.plain (List.all_eq_true.2 fun _ hc => isPlain_of_isNumeric (Binary32.isNumeric_literal hc))

theorem literalList (values : List Float32) : value (Binary32.literalList values) :=
  law.listed (law.intercalate (law.plain (by decide)) (by simpa using fun v _ => law.literal v))

theorem natural (n : Nat) : value (toString n) := by
  refine law.plain (List.all_eq_true.2 fun c hc => ?_)
  rw [Nat.toString_eq_repr, Nat.toList_repr] at hc
  exact isPlain_of_isDigit (Nat.isDigit_of_mem_toDigits (by decide) (by decide) hc)

theorem integer (i : Int) : value (toString i) := by
  cases i with
  | ofNat n => exact law.natural n
  | negSucc n =>
    rw [show toString (Int.negSucc n) = "-" ++ toString (n + 1) from rfl]
    exact law.append (law.plain (by decide)) (law.natural _)

theorem integerList (values : List Int) : value (integerList values) :=
  law.listed (law.intercalate (law.plain (by decide)) (by simpa using fun i _ => law.integer i))

theorem groups {β : Type} {text : List β → String} (h : ∀ g, value (text g)) (groups : List (List β)) :
    value (MeshSource.groupsText text groups) :=
  law.intercalate (law.plain (by decide)) (by simpa using fun g _ => h g)

theorem texture {n : String} (h : name n) : value (textureText n) := by
  have htexture : value ("texture " ++ singleQuoted n) :=
    law.append (law.plain (by decide)) (law.quoted h)
  have hform := law.enclosed htexture
  rw [← String.append_assoc] at hform
  exact hform

theorem blackbody (kelvin : Float32) : value (Color.blackbody kelvin).text := by
  have hkelvin : value ("blackbody " ++ Binary32.literal kelvin) :=
    law.append (law.plain (by decide)) (law.literal kelvin)
  have hform := law.enclosed hkelvin
  rw [← String.append_assoc] at hform
  exact hform

theorem channels (kind : ColorKind) (c : Channels) : value (c.text kind) := by
  refine law.enclosed (law.intercalate (law.plain (by decide)) fun t ht => ?_)
  rcases List.mem_cons.1 ht with rfl | ht
  · cases kind <;> exact law.plain (by decide)
  · obtain ⟨v, -, rfl⟩ := List.mem_map.1 ht
    exact law.literal v

theorem color {c : Color} (h : ∀ r ∈ c.references, name r.2) : value c.text := by
  cases c with
  | channels kind c => exact law.channels kind c
  | texture n => exact law.texture (h _ (List.mem_singleton_self _))
  | blackbody kelvin => exact law.blackbody kelvin
  | spectrum n => exact law.quoted (h _ (List.mem_singleton_self _))

theorem amount {a : Amount} (h : ∀ r ∈ a.references, name r.2) : value a.text := by
  cases a with
  | number v => exact law.literal v
  | texture n => exact law.texture (h _ (List.mem_singleton_self _))

theorem properties {m : Material} (h : ∀ r ∈ m.references, name r.2) :
    ∀ p ∈ m.properties, p.1.toList.all isPlain = true ∧ value p.2 := by
  have color {c : Color} (hc : ∀ r ∈ c.references, r ∈ m.references) : value c.text :=
    law.color fun r hr => h r (hc r hr)
  have amount {a : Amount} (ha : ∀ r ∈ a.references, r ∈ m.references) : value a.text :=
    law.amount fun r hr => h r (ha r hr)
  cases m with
  | diffuse albedo =>
    simp only [Material.properties, List.forall_mem_cons, List.not_mem_nil, false_implies, implies_true,
      and_true]
    exact ⟨by decide, color fun r hr => hr⟩
  | glass specular index transmission =>
    have hspecular : value specular.text := color fun r hr => by simp [Material.references, hr]
    have hindex : value index.text := amount fun r hr => by simp [Material.references, hr]
    simp only [Material.properties, List.forall_mem_append, List.forall_mem_cons, List.forall_mem_map,
      List.not_mem_nil, false_implies, implies_true, and_true]
    refine ⟨⟨⟨by decide, hspecular⟩, by decide, hindex⟩, fun c hc => ⟨by decide, ?_⟩⟩
    exact color fun r hr => by simp [Material.references, Option.mem_toList.1 hc, hr]
  | conductor eta absorption roughness =>
    have heta : value eta.text :=
      color fun r hr => by cases roughness <;> simp [Material.references, hr]
    have habsorption : value absorption.text :=
      color fun r hr => by cases roughness <;> simp [Material.references, hr]
    cases roughness with
    | uniform a =>
      have ha : value a.text := amount fun r hr => by simp [Material.references, hr]
      simp only [Material.properties, List.cons_append, List.nil_append, List.forall_mem_cons,
        List.not_mem_nil, false_implies, implies_true, and_true]
      exact ⟨⟨by decide, heta⟩, ⟨by decide, habsorption⟩, by decide, ha⟩
    | axes u v =>
      have hu : value u.text := amount fun r hr => by simp [Material.references, hr]
      have hv : value v.text := amount fun r hr => by simp [Material.references, hr]
      simp only [Material.properties, List.cons_append, List.nil_append, List.forall_mem_cons,
        List.not_mem_nil, false_implies, implies_true, and_true]
      exact ⟨⟨by decide, heta⟩, ⟨by decide, habsorption⟩, ⟨by decide, hu⟩,
        by decide, hv⟩
  | mirror specular =>
    simp only [Material.properties, List.forall_mem_cons, List.not_mem_nil, false_implies, implies_true,
      and_true]
    exact ⟨by decide, color fun r hr => hr⟩
  | principled inputs =>
    have hbase : value inputs.base.text := color fun r hr => by simp [Material.references, hr]
    have hamount {a : Amount} (ha : a ∈ [inputs.roughness, inputs.specularTint, inputs.metallic,
        inputs.clearcoat, inputs.clearcoatGloss, inputs.anisotropic, inputs.sheen, inputs.sheenTint]) :
        value a.text :=
      amount fun r hr => List.mem_append_right _ (List.mem_flatMap.2 ⟨a, ha, hr⟩)
    simp only [Material.properties, List.forall_mem_cons, List.not_mem_nil, false_implies, implies_true,
      and_true]
    exact ⟨⟨by decide, hbase⟩, ⟨by decide, hamount (by simp)⟩,
      ⟨by decide, law.literal _⟩, ⟨by decide, hamount (by simp)⟩,
      ⟨by decide, hamount (by simp)⟩, ⟨by decide, hamount (by simp)⟩,
      ⟨by decide, hamount (by simp)⟩, ⟨by decide, hamount (by simp)⟩,
      ⟨by decide, hamount (by simp)⟩, by decide, hamount (by simp)⟩
  | blend first second factor =>
    have hfirst : name first := h (.material, first) (by simp [Material.references])
    have hsecond : name second := h (.material, second) (by simp [Material.references])
    have hfactor : value factor.text := amount fun r hr => by simp [Material.references, hr]
    simp only [Material.properties, List.forall_mem_cons, List.not_mem_nil, false_implies, implies_true,
      and_true]
    exact ⟨⟨by decide, law.quoted hfirst⟩, ⟨by decide, law.quoted hsecond⟩,
      by decide, hfactor⟩

/-! ## Lines -/

theorem propertyLine {key v : String} (hkey : key.toList.all isPlain = true) (hv : value v) :
    (propertyLine key v).IsLine line := by
  have hline := law.property (law.append (law.append (law.plain hkey) (law.plain (s := " ") rfl)) hv)
  rw [← String.append_assoc, ← String.append_assoc] at hline
  exact ⟨_, rfl, hline⟩

theorem wordLine {key v : String} (hkey : key.toList.all isPlain = true) (hv : name v) :
    (wordLine key v).IsLine line := law.propertyLine hkey (law.quoted hv)

theorem plainLine {key v : String} (hkey : key.toList.all isPlain = true)
    (hv : v.toList.all isPlain = true) : (SceneConvert.wordLine key v).IsLine line :=
  law.wordLine hkey (law.plainName hv)

theorem transformLine (t : Transform Float32) : (transformLine t).IsLine line :=
  law.propertyLine (by decide) (law.literalList _)

theorem attributeLine {key : String} (hkey : key.toList.all isPlain = true)
    (groups : List (List Float32)) : (MeshSource.attributeLine key groups).IsLine line := by
  have hvalue := law.append (law.append (law.quoted (law.plainName hkey)) (law.plain (s := " ") rfl))
    (law.groups law.literalList groups)
  have hline := law.form "attribute " (by decide) hvalue
  rw [← String.append_assoc, ← String.append_assoc] at hline
  exact ⟨_, rfl, hline⟩

theorem facesLine (groups : List (List Int)) :
    (Block.line ("(faces " ++ MeshSource.groupsText SceneConvert.integerList groups ++ ")")).IsLine
      line :=
  ⟨_, rfl, law.form "faces " (by decide) (law.groups law.integerList groups)⟩

theorem setting (hform : ∀ {s}, value s → line ("(registry " ++ s ++ ")")) (key : SettingKey) (v : Int) :
    (Entry.setting key v).block.IsLine line := by
  have hkey : key.word.toList.all isPlain = true := by cases key <;> decide
  have hvalue := law.append (law.append (law.quoted (law.plainName hkey)) (law.plain (s := " ") rfl))
    (law.integer v)
  have hline := hform hvalue
  rw [← String.append_assoc, ← String.append_assoc] at hline
  exact ⟨_, rfl, hline⟩

theorem activeCamera : (Entry.activeCamera : Entry Float32).block.IsLine line :=
  law.plainLine (by decide) (by decide)

theorem textureWord {n : String} (h : name n) : line (textureText n) :=
  law.form "texture " (by decide) (law.quoted h)

/-! ## Fragments -/

theorem colorInput {c : Color} (h : ∀ r ∈ c.references, name r.2) : line c.text := by
  have channels {word : String} (hword : word ∈ formWords) (vs : List Float32) (hvs : vs ≠ []) :
      line ("(" ++ String.intercalate " " (word :: vs.map Binary32.literal) ++ ")") := by
    obtain ⟨v, vs, rfl⟩ := List.exists_cons_of_ne_nil hvs
    have hvalues : value (" " ++ String.intercalate " " ((v :: vs).map Binary32.literal)) :=
      law.append (law.plain (by decide)) (law.intercalate (law.plain (by decide))
        (by simpa using ⟨law.literal v, fun v _ => law.literal v⟩))
    have hline := law.form _ hword hvalues
    rw [← String.append_assoc] at hline
    rwa [List.map_cons, String.intercalate_cons_cons, ← String.append_assoc, ← String.append_assoc]
  cases c with
  | channels kind c =>
    cases kind with
    | reflectance => exact channels (by decide) c.toList (by simp [Channels.toList])
    | illuminant => exact channels (by decide) c.toList (by simp [Channels.toList])
  | texture n => exact law.textureWord (h _ (List.mem_singleton_self _))
  | blackbody kelvin => exact law.form "blackbody " (by decide) (law.literal kelvin)
  | spectrum n => exact law.word (h _ (List.mem_singleton_self _))

theorem nodeInput {i : NodeInput} (h : ∀ r ∈ i.references, name r.2) : line i.text := by
  cases i with
  | color c => exact law.colorInput h
  | amount a =>
    cases a with
    | number v => exact law.number v
    | texture n => exact law.textureWord (h _ (List.mem_singleton_self _))
  | texture n => exact law.word (h _ (List.mem_singleton_self _))

theorem light {l : Light Float32} (h : ∀ r ∈ l.color.references, name r.2) :
    ∀ b ∈ l.lines, b.IsLine line := by
  have vector (v : Vec3 Float32) : value (vectorText v) := law.literalList _
  cases l with
  | point position intensity =>
    simp only [Light.lines, List.forall_mem_cons, List.not_mem_nil, false_implies, implies_true,
      and_true]
    exact ⟨law.propertyLine (by decide) (vector position), law.propertyLine (by decide) (law.color h)⟩
  | distant direction irradiance =>
    simp only [Light.lines, List.forall_mem_cons, List.not_mem_nil, false_implies, implies_true,
      and_true]
    exact ⟨law.propertyLine (by decide) (vector direction), law.propertyLine (by decide) (law.color h)⟩
  | environment radiance placement =>
    simp only [Light.lines, List.forall_mem_cons, List.forall_mem_map]
    exact ⟨law.propertyLine (by decide) (law.color h), fun t _ => law.transformLine t⟩

theorem meshSource {m : MeshSource}
    (h : ∀ p, (Fragment.mesh "" m : Fragment Float32).file? = some p → name p.text) :
    ∀ b ∈ m.lines, b.IsLine line := by
  have inFile {file : Path} (hfile : name file.text) :
      ∀ b ∈ [SceneConvert.wordLine "type" "ply", SceneConvert.wordLine "file" file.text],
        b.IsLine line := by
    simp only [List.forall_mem_cons, List.not_mem_nil, false_implies, implies_true, and_true]
    exact ⟨law.plainLine (by decide) (by decide), law.wordLine (by decide) hfile⟩
  cases m with
  | inline m =>
    simp only [MeshSource.lines, List.forall_mem_append, List.forall_mem_cons, List.forall_mem_map,
      List.not_mem_nil, false_implies, implies_true, and_true]
    exact ⟨⟨⟨law.attributeLine (by decide) _, fun n _ => law.attributeLine (by decide) _⟩,
      fun uv _ => law.attributeLine (by decide) _⟩, law.facesLine _⟩
  | separate file => exact inFile (h file rfl)
  | existing file => exact inFile (h file rfl)

theorem placed {p : Placed Float32} (h : ∀ r ∈ p.references, name r.2) :
    ∀ b ∈ p.lines, b.IsLine line := by
  simp only [Placed.lines, List.forall_mem_append, List.forall_mem_map, List.forall_mem_cons,
    List.not_mem_nil, false_implies, implies_true, and_true]
  refine ⟨⟨⟨⟨?_, fun n hn => ?_⟩, fun n hn => ?_⟩, fun b hb => ?_⟩, law.transformLine _⟩
  · cases hp : p.shape with
    | sphere radius =>
      simp only [List.forall_mem_cons, List.not_mem_nil, false_implies, implies_true, and_true]
      exact ⟨law.plainLine (by decide) (by decide), law.propertyLine (by decide) (law.literal radius)⟩
    | mesh n =>
      have hname : name n := h (.mesh, n) (by simp [Placed.references, Fragment.references, hp])
      simp only [List.forall_mem_cons, List.not_mem_nil, false_implies, implies_true, and_true]
      exact ⟨law.plainLine (by decide) (by decide), law.wordLine (by decide) hname⟩
  · exact law.wordLine (by decide) (h (.material, n) (by
      simp [Placed.references, Fragment.references, Option.mem_toList.1 hn]))
  · exact law.wordLine (by decide) (h (.emission, n) (by
      simp [Placed.references, Fragment.references, Option.mem_toList.1 hn]))
  · split at hb
    · rw [List.mem_singleton.1 hb]
      exact law.propertyLine (by decide) (law.plain (by decide))
    · cases hb

theorem camera (c : Camera Float32) (aspect : Float32) : ∀ b ∈ c.lines aspect, b.IsLine line := by
  have number {key : String} (hkey : key.toList.all isPlain = true) (v : Float32) :
      (SceneConvert.propertyLine key (Binary32.literal v)).IsLine line :=
    law.propertyLine hkey (law.literal v)
  simp only [Camera.lines, List.forall_mem_append, List.forall_mem_map, List.forall_mem_cons,
    List.not_mem_nil, false_implies, implies_true, and_true]
  exact ⟨⟨⟨⟨law.plainLine (by decide) (by decide), number (by decide) _, number (by decide) _⟩,
    fun r _ => number (by decide) r⟩, fun d _ => number (by decide) d⟩, law.transformLine _⟩

theorem fragment {f : Fragment Float32} (h : f.Spelled name) : ∀ b ∈ f.lines, b.IsLine line := by
  cases f with
  | spectrum n wavelengths values =>
    have hvalues : value ("field :wavelengths " ++ Binary32.literalList wavelengths ++
        " :values " ++ Binary32.literalList values) :=
      law.append (law.append (law.append (law.plain (by decide)) (law.literalList _))
        (law.plain (by decide))) (law.literalList _)
    have hdata := law.enclosed hvalues
    rw [← String.append_assoc, ← String.append_assoc, ← String.append_assoc] at hdata
    simp only [Fragment.lines, List.forall_mem_cons, List.not_mem_nil, false_implies, implies_true,
      and_true]
    exact law.propertyLine (by decide) hdata
  | image n t =>
    have hclass : t.class_.word.toList.all isPlain = true := by cases t.class_ <;> decide
    have hwrap : t.wrap.word.toList.all isPlain = true := by cases t.wrap <;> decide
    simp only [Fragment.lines, List.forall_mem_append, List.forall_mem_cons, List.not_mem_nil,
      false_implies, implies_true, and_true]
    refine ⟨⟨law.plainLine (by decide) hclass, law.wordLine (by decide) (h.file _ rfl),
      law.plainLine (by decide) hwrap⟩, fun b hb => ?_⟩
    split at hb
    · rw [List.mem_singleton.1 hb]
      exact law.plainLine (by decide) (by decide)
    · cases hb
  | map n file =>
    simp only [Fragment.lines, List.forall_mem_cons, List.not_mem_nil, false_implies, implies_true,
      and_true]
    exact ⟨law.plainLine (by decide) (by decide), law.wordLine (by decide) (h.file _ rfl),
      law.plainLine (by decide) (by decide)⟩
  | node n spec =>
    have hkind : spec.kind.word.toList.all isPlain = true := by cases spec.kind <;> decide
    simp only [Fragment.lines, List.forall_mem_cons, List.forall_mem_map]
    exact ⟨law.plainLine (by decide) hkind, fun i hi =>
      ⟨_, rfl, law.nodeInput fun r hr => h.references r (List.mem_flatMap.2 ⟨i, hi, hr⟩)⟩⟩
  | material n m =>
    have hword : m.word.toList.all isPlain = true := by
      cases m <;> (simp only [Material.word]; decide)
    have hproperties := law.properties h.references
    simp only [Fragment.lines, List.forall_mem_cons, List.forall_mem_map]
    exact ⟨law.plainLine (by decide) hword, fun p hp =>
      law.propertyLine (hproperties p hp).1 (hproperties p hp).2⟩
  | emission n radiance =>
    simp only [Fragment.lines, List.forall_mem_cons, List.not_mem_nil, false_implies, implies_true,
      and_true]
    exact ⟨law.plainLine (by decide) (by decide), law.propertyLine (by decide) (law.color h.references)⟩
  | light n l =>
    have hword : l.word.toList.all isPlain = true := by cases l <;> (simp only [Light.word]; decide)
    simp only [Fragment.lines, List.forall_mem_cons]
    exact ⟨law.plainLine (by decide) hword, law.light fun r hr =>
      h.references r (Fragment.references_light n l ▸ hr)⟩
  | mesh n source =>
    exact law.meshSource fun p hp => h.file p (by cases source <;> exact hp)
  | entity n p => exact law.placed h.references
  | camera c aspect => exact law.camera c aspect

theorem body {f : Fragment Float32} (h : f.Spelled name) :
    ∀ b ∈ SceneConvert.wordLine "name" f.name :: f.lines, b.IsLine line :=
  List.forall_mem_cons.2 ⟨law.wordLine (by decide) h.name, law.fragment h⟩

theorem block {f : Fragment Float32} (h : f.Spelled name) (hopening : line ("(" ++ f.word))
    (hclosing : line ")") (d : Nat) : ∀ l ∈ f.block.lines d, line l.text := by
  have hbody {bs : List Block} (hbs : ∀ b ∈ bs, b.IsLine line) (k : Nat) :
      ∀ l ∈ Block.lines.linesOf k bs, line l.text := by
    induction bs with
    | nil => simp [Block.lines.linesOf]
    | cons b bs ih =>
      obtain ⟨text, rfl, htext⟩ := hbs b List.mem_cons_self
      intro l hl
      rcases List.mem_cons.1 hl with rfl | hl
      · exact htext
      · exact ih (fun b hb => hbs b (List.mem_cons_of_mem _ hb)) l hl
  intro l hl
  rcases List.mem_append.1 hl with hl | hl
  · rcases List.mem_cons.1 hl with rfl | hl
    · exact hopening
    · exact hbody (law.body h) (d + 1) l hl
  · exact List.mem_singleton.1 hl ▸ hclosing

end LineLaw

theorem Block.IsLine.lines {line : String → Prop} {b : Block} (h : b.IsLine line) (d : Nat) :
    ∀ l ∈ b.lines d, line l.text := by
  obtain ⟨text, rfl, htext⟩ := h
  exact fun l hl => List.mem_singleton.1 hl ▸ htext

end SceneConvert
