import SceneConvert.Proofs.Survey.Reading

/-!
# SceneConvert.Proofs.Survey.MeshInputs

What a mesh keeps of the parameters that describe it. A look-up answers the same for a parameter that
is not there and for one whose elements are of another kind, so a mesh keeps what its parameters list
just where every element is a number, and for indices an integer.

* `Survey.Yields`: what holds of every result of a survey and of what is said on the way, with a rule
  for each way to build a survey.
* `TriangleMesh.Lists`, `TriangleMesh.Carries`: the indices, and the numbers for each vertex, are those
  that are given.
* `Survey.triangleMesh_unaltered_iff`: when they are.
-/

namespace SceneConvert

theorem Parameters.contains_eq_isSome_value? (ps : Parameters) (name : String) :
    ps.contains name = (ps.value? name).isSome := by
  rw [contains, value?, find?, Option.isSome_map, Bool.eq_iff_iff, List.any_eq_true, List.find?_isSome]

namespace Survey

variable {β γ : Type} {values : String → Option Value} {P : β → List Finding → Prop}
  {Q : γ → List Finding → Prop}

/-- Where the parameters have these values, every result of the survey satisfies `P` together with
what is said on the way, and no value changes. -/
structure Yields (values : String → Option Value) (m : Survey β) (P : β → List Finding → Prop) :
    Prop where
  yields : ∀ f b g, f.parameters.value? = values → m.outcome f = (.ok b, g) →
    g.parameters.value? = values ∧ ∃ said, g.items.toList = f.items.toList ++ said ∧ P b said

theorem yields_pure {b : β} (h : P b []) : Yields values (pure b) P := by
  refine ⟨fun f b' g hf hb => ?_⟩
  cases hb
  exact ⟨hf, [], (List.append_nil _).symm, h⟩

theorem yields_refuse (p : Problem) : Yields values (refuse p) P :=
  ⟨fun _ _ _ _ h => by cases h⟩

theorem Yields.mono {m : Survey β} {P' : β → List Finding → Prop} (h : Yields values m P)
    (hP : ∀ b said, P b said → P' b said) : Yields values m P' := by
  refine ⟨fun f b g hf hb => ?_⟩
  obtain ⟨hg, said, hsaid, hb⟩ := h.yields f b g hf hb
  exact ⟨hg, said, hsaid, hP b said hb⟩

theorem yields_bind {m : Survey β} {k : β → Survey γ} (hm : Yields values m P)
    (hk : ∀ b said, P b said → Yields values (k b) fun c more => Q c (said ++ more)) :
    Yields values (m >>= k) Q := by
  refine ⟨fun f c h hf hc => ?_⟩
  rw [outcome_bind] at hc
  rcases hb : m.outcome f with ⟨r | b, g⟩ <;> rw [hb] at hc
  · cases hc
  · obtain ⟨hg, said, hsaid, hP⟩ := hm.yields f b g hf hb
    obtain ⟨hh, more, hmore, hQ⟩ := (hk b said hP).yields g c h hg hc
    exact ⟨hh, said ++ more, by rw [hmore, hsaid, List.append_assoc], hQ⟩

/-! The steps of the surveys below, each with what comes after it. -/

theorem yields_require {p : Problem} {o : Option β} {k : β → Survey γ}
    (hk : ∀ b, o = some b → Yields values (k b) Q) : Yields values (require p o >>= k) Q := by
  cases o with
  | none => exact yields_bind (P := fun _ _ => False) (yields_refuse p) fun _ _ h => h.elim
  | some b => exact hk b rfl

theorem yields_say {x : Finding} {k : Unit → Survey γ}
    (hk : Yields values (k ()) fun c more => Q c (x :: more)) : Yields values (say x >>= k) Q := by
  have said : Yields values (say x) fun _ said => said = [x] := by
    refine ⟨fun f b g hf hb => ?_⟩
    cases hb
    exact ⟨hf, [x], Array.toList_push, rfl⟩
  exact yields_bind said fun _ _ h => h ▸ hk

theorem yields_parameter? {name : String} {k : Option Parameter → Survey γ}
    (hk : ∀ o, Yields values (k o) Q) : Yields values (parameter? name >>= k) Q := by
  have found : Yields values (parameter? name) fun _ said => said = [] := by
    refine ⟨fun f b g hf hb => ?_⟩
    cases hb
    exact ⟨(f.parameters.value?_mark _).trans hf, [], (List.append_nil _).symm, rfl⟩
  exact yields_bind found fun o _ h => h ▸ hk o

theorem yields_look {name : String} {read : Value → Option β} {k : Option β → Survey γ}
    (hk : Yields values (k ((values name).bind read)) Q) : Yields values (look name read >>= k) Q := by
  have found : Yields values (look name read) fun o said =>
      o = (values name).bind read ∧ said = [] := by
    refine ⟨fun f b g hf hb => ?_⟩
    cases hb
    refine ⟨(f.parameters.value?_mark _).trans hf, [], (List.append_nil _).symm, ?_, rfl⟩
    rw [← hf, Parameters.value?, Option.bind_map]
    rfl
  exact yields_bind found fun _ _ h => h.1 ▸ h.2 ▸ hk

theorem yields_has {name : String} {k : Bool → Survey γ} (hk : Yields values (k (values name).isSome) Q) :
    Yields values (has name >>= k) Q := by
  have found : Yields values (has name) fun b said => b = (values name).isSome ∧ said = [] := by
    refine ⟨fun f b g hf hb => ?_⟩
    cases hb
    exact ⟨hf, [], (List.append_nil _).symm, hf ▸ f.parameters.contains_eq_isSome_value? name, rfl⟩
  exact yields_bind found fun _ _ h => h.1 ▸ h.2 ▸ hk

/-! ## The parts of a mesh -/

/-- The numbers for each vertex that a mesh takes over. -/
def fitting (count : Nat) (numbers : Option (List Float32)) : Option (List Float32) :=
  numbers.filter fun ns => ns.length = count

/-- What is said about numbers that do not fit. -/
def objection (count : Nat) (dropped : Remark) : Option (List Float32) → List Finding
  | some ns => if ns.length = count then [] else [.remark dropped]
  | none => []

theorem yields_vertexAttribute (name : String) (count : Nat) (dropped : Remark) :
    Yields values (vertexAttribute name count dropped) fun taken said =>
      taken = fitting count ((values name).bind Value.floats?) ∧
        said = objection count dropped ((values name).bind Value.floats?) := by
  refine yields_look ?_
  cases (values name).bind Value.floats? with
  | none => exact yields_pure ⟨rfl, rfl⟩
  | some ns =>
    unfold fitting objection
    dsimp only [Option.filter_some]
    split
    · rename_i h
      exact yields_pure ⟨by rw [if_pos (decide_eq_true h)], rfl⟩
    · rename_i h
      exact yields_say (yields_pure ⟨by rw [if_neg (by simpa using h)], rfl⟩)

theorem yields_meshIndices (positions : List Float32) :
    Yields values (meshIndices positions) fun indices said => said = [] ∧
      match (values "indices").bind Value.integers? with
      | none => positions.length / 3 = 3 ∧ indices = [0, 1, 2]
      | some listed => indices = listed := by
  refine yields_look ?_
  cases (values "indices").bind Value.integers? with
  | none =>
    dsimp only
    split
    · rename_i h
      exact yields_pure ⟨rfl, h, rfl⟩
    · exact yields_refuse _
  | some indices =>
    dsimp only
    split
    · exact yields_refuse _
    split
    · exact yields_refuse _
    · exact yields_pure ⟨rfl, rfl⟩

end Survey

/-! ## Meshes -/

/-- The name of the texture coordinates. -/
def uvParameter (values : String → Option Value) : String := if (values "uv").isSome then "uv" else "st"

/-- A mesh of values, and what is said about them. -/
structure Survey.MeshOf (values : String → Option Value) (m : TriangleMesh) (said : List Finding) :
    Prop where
  positions : (values "P").bind Value.floats? = some m.positions
  indices : match (values "indices").bind Value.integers? with
    | none => m.vertexCount = 3 ∧ m.indices = [0, 1, 2]
    | some listed => m.indices = listed
  normals : m.normals = fitting m.positions.length ((values "N").bind Value.floats?)
  uvs : m.uvs = fitting (m.vertexCount * 2) ((values (uvParameter values)).bind Value.floats?)
  said : said = objection m.positions.length .normalsDropped ((values "N").bind Value.floats?) ++
    objection (m.vertexCount * 2) (.uvsDropped (uvParameter values))
      ((values (uvParameter values)).bind Value.floats?)

theorem Survey.yields_triangleMesh {values : String → Option Value} :
    Yields values triangleMesh (MeshOf values) := by
  refine yields_look (yields_require fun positions hpositions => ?_)
  dsimp only
  split
  · exact yields_refuse _
  refine yields_bind (yields_meshIndices positions) ?_
  rintro indices _ ⟨rfl, hindices⟩
  refine yields_bind (yields_vertexAttribute "N" positions.length .normalsDropped) ?_
  rintro normals _ ⟨hnormals, rfl⟩
  refine yields_has (yields_bind (yields_vertexAttribute _ _ _) ?_)
  rintro uvs _ ⟨huvs, rfl⟩
  refine yields_pure ⟨hpositions, hindices, hnormals, huvs, ?_⟩
  rw [List.append_nil, List.nil_append]
  rfl

/-- The indices of a mesh where these are given. A mesh of three vertices needs none. -/
def TriangleMesh.Lists (m : TriangleMesh) : Option Value → Prop
  | none => m.vertexCount = 3 ∧ m.indices = [0, 1, 2]
  | some v => v.integers? = some m.indices

/-- Numbers for each vertex of a mesh where these are given: all of them or none, which is said. -/
def TriangleMesh.Carries (taken : Option (List Float32)) (dropped : Remark) (said : List Finding) :
    Option Value → Prop
  | none => taken = none
  | some v => (∃ ns, v.floats? = some ns ∧ taken = some ns) ∨
      (taken = none ∧ Finding.remark dropped ∈ said)

theorem TriangleMesh.lists_iff {m : TriangleMesh} {given : Option Value}
    (h : match given.bind Value.integers? with
      | none => m.vertexCount = 3 ∧ m.indices = [0, 1, 2]
      | some listed => m.indices = listed) :
    m.Lists given ↔ ∀ v ∈ given, v.integers?.isSome := by
  cases given with
  | none => simpa [Lists] using h
  | some v =>
    simp only [Lists, Option.mem_some_iff, forall_eq']
    rw [Option.bind_some] at h
    cases hv : v.integers? with
    | none => simp
    | some listed =>
      rw [hv] at h
      simpa using h.symm

namespace Survey

theorem remark_notMem_objection {r dropped : Remark} (h : r ≠ dropped) (count : Nat)
    (numbers : Option (List Float32)) : Finding.remark r ∉ objection count dropped numbers := by
  unfold objection
  split
  · split <;> simp [h]
  · exact List.not_mem_nil

/-- What is not made of numbers is not carried, and nothing is said about it. -/
theorem carries_fitting_iff {count : Nat} {dropped : Remark} {said : List Finding}
    {given : Option Value} (hsaid : .remark dropped ∈ said ↔
      .remark dropped ∈ objection count dropped (given.bind Value.floats?)) :
    TriangleMesh.Carries (fitting count (given.bind Value.floats?)) dropped said given ↔
      ∀ v ∈ given, v.floats?.isSome := by
  cases given with
  | none => simp [TriangleMesh.Carries, fitting]
  | some v =>
    simp only [TriangleMesh.Carries, Option.bind_some, hsaid, Option.mem_some_iff, forall_eq']
    cases v.floats? with
    | none => simp [fitting, objection]
    | some ns => by_cases h : ns.length = count <;> simp [fitting, objection, h]

/-- The positions of a mesh are always those that are given. Its indices, normals and texture
coordinates are just where what is given is made of integers and of numbers: on three vertices, indices
of which one is no integer are replaced, and normals of which one is no number left out, in silence. -/
theorem triangleMesh_unaltered_iff {ps : Parameters} {n : Nat} {m : TriangleMesh} {g : Findings}
    (h : triangleMesh.of ps n = (.ok m, g)) :
    (ps.value? "P").bind Value.floats? = some m.positions ∧
    (m.Lists (ps.value? "indices") ↔ ∀ v ∈ ps.value? "indices", v.integers?.isSome) ∧
    (TriangleMesh.Carries m.normals .normalsDropped g.items.toList (ps.value? "N") ↔
      ∀ v ∈ ps.value? "N", v.floats?.isSome) ∧
    (TriangleMesh.Carries m.uvs (.uvsDropped (uvParameter ps.value?)) g.items.toList
        (ps.value? (uvParameter ps.value?)) ↔
      ∀ v ∈ ps.value? (uvParameter ps.value?), v.floats?.isSome) := by
  obtain ⟨-, said, hsaid, hmesh⟩ := yields_triangleMesh.yields (.start ps n) m g rfl h
  have hm : MeshOf ps.value? m said := hmesh
  have hitems : g.items.toList = said := hsaid
  have hne : Remark.normalsDropped ≠ .uvsDropped (uvParameter ps.value?) := Remark.noConfusion
  rw [hitems, hm.said, hm.normals, hm.uvs]
  refine ⟨hm.positions, TriangleMesh.lists_iff hm.indices, carries_fitting_iff ?_,
    carries_fitting_iff ?_⟩
  · rw [List.mem_append, or_iff_left (remark_notMem_objection hne _ _)]
  · rw [List.mem_append, or_iff_right (remark_notMem_objection hne.symm _ _)]

/-- The coordinates of a triangle. -/
def triangle : List Int := [0, 0, 0, 1, 0, 0, 0, 1, 0]

/-- A triangle under some value of its indices, with a single pair of texture coordinates. -/
def triangleUnder (indices : List Value) : Parameters :=
  ⟨[⟨"P", some "point3", .list (triangle.map .integer), false⟩,
    ⟨"indices", some "integer", .list indices, false⟩,
    ⟨"st", some "float", .list [.integer 0, .integer 1], false⟩]⟩

theorem triangleMesh_unaltered_iff_triangle :
    let ps := triangleUnder [.integer 2, .integer 1, .integer 0]
    let m : TriangleMesh := ⟨triangle.map Binary32.ofInt, none, none, [2, 1, 0]⟩
    triangleMesh.of ps 0 = (.ok m, (triangleMesh.of ps 0).2) ∧ m.Lists (ps.value? "indices") ∧
      TriangleMesh.Carries m.uvs (.uvsDropped "st") (triangleMesh.of ps 0).2.items.toList
        (ps.value? "st") := by
  have h := @triangleMesh_unaltered_iff (triangleUnder [.integer 2, .integer 1, .integer 0]) 0
    ⟨triangle.map Binary32.ofInt, none, none, [2, 1, 0]⟩ _ rfl
  exact ⟨rfl, h.2.1.mpr fun v hv => Option.some.inj hv ▸ rfl,
    h.2.2.2.mpr fun v hv => Option.some.inj hv ▸ rfl⟩

/-- A float among three indices: they are replaced, and nothing is said of them. -/
theorem triangleMesh_replaces_indices :
    let ps := triangleUnder [.integer 0, .integer 2, .float 1]
    let m : TriangleMesh := ⟨triangle.map Binary32.ofInt, none, none, [0, 1, 2]⟩
    (triangleMesh.of ps 0).1 = .ok m ∧ ¬ m.Lists (ps.value? "indices") ∧
      (triangleMesh.of ps 0).2.items.toList = [.remark (.uvsDropped "st")] := by
  refine ⟨rfl, fun h => ?_, rfl⟩
  have hnone : (none : Option (List Int)) = some [0, 1, 2] := h
  cases hnone

end Survey

end SceneConvert
