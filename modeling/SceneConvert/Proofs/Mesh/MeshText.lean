import SceneConvert.Document.Render
import SceneConvert.Proofs.Decimal.Written
import SceneConvert.Proofs.Mesh.Listed

/-!
# SceneConvert.Proofs.Mesh.MeshText

The lines that list a mesh, as a grammar:

    attribute := "(attribute '" name "' " tuples ')'
    faces     := "(faces " tuples ')'
    tuples    := (tuple (", " tuple)*)?
    tuple     := '[' number (',' number)* ']'

* `TupleText`, `TuplesText`: texts of this form, with the numbers that they list.
* `TuplesText.unique`: a text lists the numbers of one list of tuples only.
* `TriangleMesh.ListedBy`: lines that list a mesh. `ListedBy.unique`: they list no other mesh.
* `TriangleMesh.IsRegular.listedBy`: the lines that are written of a regular mesh list it.
-/

namespace SceneConvert

/-! ## Tuples -/

section

variable {β : Type} {shows : List Char → β → Prop}

/-- Numbers with commas between them. -/
inductive TupleText (shows : List Char → β → Prop) : List Char → List β → Prop
  | last {cs : List Char} {b : β} : shows cs b → TupleText shows cs [b]
  | more {cs ds : List Char} {b : β} {bs : List β} :
    shows cs b → TupleText shows ds bs → TupleText shows (cs ++ ',' :: ds) (b :: bs)

/-- Tuples in brackets, with a comma and a space between them. -/
inductive TuplesText (shows : List Char → β → Prop) : List Char → List (List β) → Prop
  | none : TuplesText shows [] []
  | last {cs : List Char} {g : List β} :
    TupleText shows cs g → TuplesText shows ('[' :: (cs ++ [']'])) [g]
  | more {cs ds : List Char} {g h : List β} {gs : List (List β)} :
    TupleText shows cs g → TuplesText shows ds (h :: gs) →
    TuplesText shows ('[' :: (cs ++ ']' :: ',' :: ' ' :: ds)) (g :: h :: gs)

/-- What stands before the first of some separators. -/
theorem append_cons_inj_of_not_mem {c : β} {l l' r r' : List β} (hl : c ∉ l) (hl' : c ∉ l')
    (h : l ++ c :: r = l' ++ c :: r') : l = l' ∧ r = r' := by
  rcases List.append_eq_append_iff.1 h with ⟨as, rfl, hc⟩ | ⟨as, rfl, hc⟩ <;>
  · cases as <;> simp_all

theorem TupleText.not_mem {c : Char} (hc : c ≠ ',') (hshows : ∀ cs b, shows cs b → c ∉ cs)
    {cs : List Char} {bs : List β} (h : TupleText shows cs bs) : c ∉ cs := by
  induction h with
  | last h => exact hshows _ _ h
  | more h _ ih => simp [hshows _ _ h, hc, ih]

/-- Texts of numbers that can be told apart in a list: they avoid what is between them, and stand for one
number each. -/
structure Legible (shows : List Char → β → Prop) : Prop where
  not_mem : ∀ {cs b}, shows cs b → ',' ∉ cs ∧ ']' ∉ cs
  unique : ∀ {cs b b'}, shows cs b → shows cs b' → b = b'

variable (hlegible : Legible shows)

include hlegible

theorem TupleText.unique {cs : List Char} {bs bs' : List β} (h : TupleText shows cs bs)
    (h' : TupleText shows cs bs') : bs = bs' := by
  induction h generalizing bs' with
  | last h =>
    cases h' with
    | last h' => rw [hlegible.unique h h']
    | more => exact absurd (by simp) (hlegible.not_mem h).1
  | @more cs ds b bs h _ ih =>
    generalize htext : cs ++ ',' :: ds = text at h'
    cases h' with
    | last h' => exact absurd (htext ▸ by simp) (hlegible.not_mem h').1
    | more h' hrest =>
      obtain ⟨rfl, rfl⟩ := append_cons_inj_of_not_mem (hlegible.not_mem h).1 (hlegible.not_mem h').1 htext
      rw [hlegible.unique h h', ih hrest]

theorem TuplesText.unique {cs : List Char} {gs gs' : List (List β)} (h : TuplesText shows cs gs)
    (h' : TuplesText shows cs gs') : gs = gs' := by
  have hbracket {cs : List Char} {bs : List β} (h : TupleText shows cs bs) : ']' ∉ cs :=
    h.not_mem (by decide) fun _ _ h => (hlegible.not_mem h).2
  induction h generalizing gs' with
  | none => cases h'; rfl
  | @last cs g h =>
    generalize htext : '[' :: (cs ++ [']']) = text at h'
    cases h' with
    | none => cases htext
    | last h' =>
      obtain ⟨rfl, -⟩ := append_cons_inj_of_not_mem (hbracket h) (hbracket h') (List.cons.inj htext).2
      rw [h.unique hlegible h']
    | more h' _ =>
      obtain ⟨-, hrest⟩ := append_cons_inj_of_not_mem (hbracket h) (hbracket h') (List.cons.inj htext).2
      cases hrest
  | @more cs ds g _ _ h _ ih =>
    generalize htext : '[' :: (cs ++ ']' :: ',' :: ' ' :: ds) = text at h'
    cases h' with
    | none => cases htext
    | last h' =>
      obtain ⟨-, hrest⟩ := append_cons_inj_of_not_mem (hbracket h) (hbracket h') (List.cons.inj htext).2
      cases hrest
    | more h' hmore =>
      obtain ⟨rfl, hrest⟩ := append_cons_inj_of_not_mem (hbracket h) (hbracket h') (List.cons.inj htext).2
      cases hrest
      rw [h.unique hlegible h', ih hmore]

end

theorem tupleText_intercalate {β : Type} {shows : List Char → β → Prop} {text : β → String}
    (htext : ∀ b, shows (text b).toList b) {g : List β} (hg : g ≠ []) :
    TupleText shows (String.intercalate "," (g.map text)).toList g := by
  induction g with
  | nil => exact absurd rfl hg
  | cons b bs ih =>
    cases bs with
    | nil => simpa using TupleText.last (htext b)
    | cons c cs =>
      have hmore := TupleText.more (htext b) (ih (by simp))
      simpa [String.intercalate_cons_cons] using hmore

theorem tuplesText_groupsText {β : Type} {shows : List Char → β → Prop} {text : β → String}
    (htext : ∀ b, shows (text b).toList b) {groups : List (List β)} (hgroups : ∀ g ∈ groups, g ≠ []) :
    TuplesText shows
      (MeshSource.groupsText (fun g => "[" ++ String.intercalate "," (g.map text) ++ "]") groups).toList
      groups := by
  induction groups with
  | nil => exact .none
  | cons g gs ih =>
    obtain ⟨hg, hgs⟩ := List.forall_mem_cons.1 hgroups
    have hfirst := tupleText_intercalate htext hg
    cases gs with
    | nil => simpa [MeshSource.groupsText] using TuplesText.last hfirst
    | cons h hs =>
      have hmore := TuplesText.more hfirst (ih hgs)
      simpa [MeshSource.groupsText, String.intercalate_cons_cons] using hmore

/-! ## Lines -/

/-- A line that lists values in tuples of one size. -/
def IsListLine {β : Type} (shows : List Char → β → Prop) (head : String) (size : Nat) (values : List β)
    (line : String) : Prop :=
  ∃ cs groups, line = "(" ++ head ++ " " ++ String.ofList cs ++ ")" ∧ TuplesText shows cs groups ∧
    Groups size groups values

/-- A line for an attribute of vertices. -/
def IsAttributeLine (key : String) : Nat → List Float32 → String → Prop :=
  IsListLine Binary32.Shows ("attribute '" ++ key ++ "'")

def IsFacesLine : List Int → String → Prop := IsListLine Numeral.ReadsInteger "faces" 3

/-- Lines that list a mesh: one for each attribute that it has, and one for its faces. -/
def TriangleMesh.ListedBy (m : TriangleMesh) (ls : List String) : Prop :=
  ∃ (positions : String) (normals uvs : Option String) (faces : String),
    ls = positions :: (normals.toList ++ uvs.toList ++ [faces]) ∧
      IsAttributeLine "p" 3 m.positions positions ∧
      Option.Rel (IsAttributeLine "n" 3) m.normals normals ∧
      Option.Rel (IsAttributeLine "uv" 2) m.uvs uvs ∧ IsFacesLine m.indices faces

theorem isListLine {β : Type} {shows : List Char → β → Prop} {text : β → String}
    (htext : ∀ b, shows (text b).toList b) (head : String) {size : Nat} (hsize : 0 < size)
    {groups : List (List β)} {values : List β} (h : Groups size groups values) :
    IsListLine shows head size values ("(" ++ head ++ " " ++
      MeshSource.groupsText (fun g => "[" ++ String.intercalate "," (g.map text) ++ "]") groups ++ ")") := by
  have hgroups : ∀ g ∈ groups, g ≠ [] := by
    rintro _ hg rfl
    exact absurd (h.length _ hg) hsize.ne
  exact ⟨_, groups, by rw [String.ofList_toList], tuplesText_groupsText htext hgroups, h⟩

theorem IsListLine.unique {β : Type} {shows : List Char → β → Prop} (hlegible : Legible shows)
    {head : String} {size : Nat} {values values' : List β} {line : String}
    (h : IsListLine shows head size values line) (h' : IsListLine shows head size values' line) :
    values = values' := by
  obtain ⟨cs, groups, rfl, htext, hgroups⟩ := h
  obtain ⟨cs', groups', heq, htext', hgroups'⟩ := h'
  obtain rfl : cs = cs' := by simpa [← String.toList_inj] using heq
  rw [← hgroups.flatten, ← hgroups'.flatten, htext.unique hlegible htext']

theorem legible_shows : Legible Binary32.Shows := ⟨fun h => h.not_mem, fun h h' => h.unique h'⟩

theorem legible_readsInteger : Legible Numeral.ReadsInteger := ⟨fun h => h.not_mem, fun h h' => h.unique h'⟩

theorem IsListLine.ne_of_head {β γ : Type} {shows : List Char → β → Prop} {shows' : List Char → γ → Prop}
    {head head' : String} {size size' : Nat} {values : List β} {values' : List γ} {line : String}
    (hhead : ¬head.toList <+: head'.toList ∧ ¬head'.toList <+: head.toList)
    (h : IsListLine shows head size values line) : ¬IsListLine shows' head' size' values' line := by
  rintro ⟨cs', groups', heq, -⟩
  obtain ⟨cs, groups, rfl, -⟩ := h
  have hlists := congrArg String.toList heq
  simp only [String.toList_append, List.append_assoc, List.append_right_inj] at hlists
  rcases List.append_eq_append_iff.1 hlists with ⟨as, hl, -⟩ | ⟨as, hl, -⟩
  · exact hhead.1 ⟨as, hl.symm⟩
  · exact hhead.2 ⟨as, hl.symm⟩

theorem eq_of_toList_append {a a' b b' : Option String} (hne : ∀ x ∈ a, x ∉ b') (hne' : ∀ x ∈ a', x ∉ b)
    (h : a.toList ++ b.toList = a'.toList ++ b'.toList) : a = a' ∧ b = b' := by
  cases a <;> cases a' <;> cases b <;> cases b' <;> simp_all

namespace TriangleMesh

variable {m m' : TriangleMesh}

theorem attribute_unique {key : String} {size : Nat} {o o' : Option (List Float32)} {line : Option String}
    (h : Option.Rel (IsAttributeLine key size) o line) (h' : Option.Rel (IsAttributeLine key size) o' line) :
    o = o' := by
  cases h with
  | none => cases h'; rfl
  | some h =>
    cases h' with
    | some h' => rw [h.unique legible_shows h']

theorem normals_ne_uvs {n uv : Option (List Float32)} {normals uvs : Option String}
    (hn : Option.Rel (IsAttributeLine "n" 3) n normals) (huv : Option.Rel (IsAttributeLine "uv" 2) uv uvs) :
    ∀ x ∈ normals, x ∉ uvs := by
  rintro x hx hx'
  cases hn with
  | none => cases hx
  | some hn =>
    cases huv with
    | none => cases hx'
    | some huv =>
      cases hx
      cases hx'
      exact hn.ne_of_head (by decide) huv

/-- The lines of a mesh list no other mesh. -/
theorem ListedBy.unique {ls : List String} (h : m.ListedBy ls) (h' : m'.ListedBy ls) : m = m' := by
  obtain ⟨positions, normals, uvs, faces, rfl, hpositions, hnormals, huvs, hfaces⟩ := h
  obtain ⟨positions', normals', uvs', faces', heq, hpositions', hnormals', huvs', hfaces'⟩ := h'
  obtain ⟨rfl, hrest⟩ := List.cons.inj heq
  obtain ⟨hattributes, hlast⟩ := List.append_inj' hrest rfl
  obtain rfl := (List.cons.inj hlast).1
  obtain ⟨rfl, rfl⟩ :=
    eq_of_toList_append (normals_ne_uvs hnormals huvs') (normals_ne_uvs hnormals' huvs) hattributes
  obtain ⟨p, n, uv, i⟩ := m
  obtain ⟨p', n', uv', i'⟩ := m'
  rw [show p = p' from hpositions.unique legible_shows hpositions',
    show n = n' from attribute_unique hnormals hnormals', show uv = uv' from attribute_unique huvs huvs',
    show i = i' from hfaces.unique legible_readsInteger hfaces']

theorem attributeLine_isAttributeLine (key : String) {size : Nat} (hsize : 0 < size)
    {groups : List (List Float32)} {values : List Float32} (h : Groups size groups values) :
    ∃ line, MeshSource.attributeLine key groups = .line line ∧ IsAttributeLine key size values line := by
  refine ⟨_, ?_, isListLine Binary32.shows_literal _ hsize h⟩
  rw [MeshSource.attributeLine, Block.line.injEq, ← String.toList_inj]
  simp [singleQuoted]
  rfl

theorem attribute_isAttributeLine (key : String) {size : Nat} (hsize : 0 < size)
    {group : List Float32 → List (List Float32)} {o : Option (List Float32)}
    (hgroup : ∀ values, o = some values → Groups size (group values) values) :
    ∃ line : Option String, o.toList.map (fun values => MeshSource.attributeLine key (group values)) =
      line.toList.map .line ∧ Option.Rel (IsAttributeLine key size) o line := by
  cases o with
  | none => exact ⟨none, rfl, .none⟩
  | some values =>
    obtain ⟨line, htext, hline⟩ := attributeLine_isAttributeLine key hsize (hgroup values rfl)
    exact ⟨some line, congrArg (fun b => [b]) htext, .some hline⟩

/-- What is written of a mesh lists it. -/
theorem IsRegular.listedBy (h : m.IsRegular) :
    ∃ ls : List String, (MeshSource.inline m).lines = ls.map .line ∧ m.ListedBy ls := by
  have hpositions : m.positions.length % 3 = 0 := by rw [h.positions, Nat.mul_mod_right]
  obtain ⟨positions, hp, hposition⟩ :=
    attributeLine_isAttributeLine "p" (by decide) (groups_triples hpositions)
  obtain ⟨normals, hn, hnormals⟩ := attribute_isAttributeLine "n" (by decide) fun n hn =>
    groups_triples (by rw [h.normals n hn, Nat.mul_mod_right])
  obtain ⟨uvs, huv, huvs⟩ := attribute_isAttributeLine "uv" (by decide) fun uv huv =>
    groups_pairs (by rw [h.uvs uv huv, Nat.mul_mod_right])
  have hfaces := isListLine Numeral.readsInteger_toString "faces" (by decide) (groups_triples h.indices)
  refine ⟨_, ?_, positions, normals, uvs, _, rfl, hposition, hnormals, huvs, hfaces⟩
  rw [MeshSource.lines, hp, hn, huv]
  simp only [List.map_cons, List.map_append, List.map_nil, List.cons_append, List.nil_append]
  rfl

end TriangleMesh

end SceneConvert
