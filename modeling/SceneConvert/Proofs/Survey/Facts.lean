import SceneConvert.Proofs.Scene.Ground
import SceneConvert.Proofs.Survey.Outcome

/-!
# SceneConvert.Proofs.Survey.Facts

What findings tell of the words of a directive, the state and the spectra.

* `Findings.Grows`: more was found, the words of the parameters being the same.
* `Fact`: something that findings tell, and still tell when more is found.
* `Site.Known`: a reference that is declared, or whose lack was reported.
* `Site.Refuses`: why a directive can be refused.
-/

namespace SceneConvert

/-! ## Words -/

def Value.words (v : Value) : List String := v.elements.filterMap Value.asText?

def Parameters.words (ps : Parameters) : List String := ps.entries.flatMap fun p => p.value.words

/-- The words that can be read off a statement. A missing one is read as the empty word. -/
def Statement.words (st : Statement) : List String :=
  "" :: st.operand.toList.flatMap Value.words ++ st.parameters.words

theorem Value.mem_words_of_word? {v : Value} {w : String} (h : v.word? = some w) : w ∈ v.words := by
  unfold word? single? at h
  split at h
  · rename_i e he
    simpa [words, he] using h
  · cases h

theorem Value.words_of_texts? {v : Value} {ws : List String} (h : v.texts? = some ws) :
    v.words = ws := by
  have all (vs : List Value) (ws : List String) (h : vs.mapM asText? = some ws) :
      vs.filterMap asText? = ws := by
    induction vs generalizing ws with
    | nil => simpa using h
    | cons v vs ih =>
      simp only [List.mapM_cons, Option.bind_eq_bind, Option.bind_eq_some_iff] at h
      obtain ⟨w, hw, ws', hws', rfl⟩ := by simpa using h
      rw [List.filterMap_cons_some hw, ih ws' hws']
  exact all v.elements ws h

theorem Statement.mem_words_of_text? {st : Statement} {w : String} (h : st.text? = some w) :
    w ∈ st.words := by
  obtain ⟨value, hvalue, hw⟩ := Option.bind_eq_some_iff.1 h
  have hmem : w ∈ value.words := by
    cases value <;> cases hw
    simp [Value.words, Value.elements, Value.asText?]
  simp only [words, hvalue, Option.toList_some, List.flatMap_singleton, List.mem_append, List.mem_cons]
  exact .inl (.inr hmem)

namespace Parameters

theorem words_mark (ps : Parameters) (which : Parameter → Bool) : (ps.mark which).words = ps.words := by
  have go (entries : List Parameter) :
      (mark.go which entries).map Parameter.value = entries.map Parameter.value := by
    induction entries with
    | nil => rfl
    | cons p entries ih =>
      rw [mark.go]
      split
      · rfl
      · simp [ih]
  have hvalues (entries : List Parameter) :
      (entries.flatMap fun p => p.value.words) = (entries.map Parameter.value).flatMap Value.words := by
    simp [List.flatMap_map]
  simp only [words, mark, hvalues, go]

theorem mem_words {ps : Parameters} {p : Parameter} {w : String} (hp : p ∈ ps.entries)
    (hw : w ∈ p.value.words) : w ∈ ps.words := List.mem_flatMap.2 ⟨p, hp, hw⟩

theorem mem_entries_of_find? {ps : Parameters} {name : String} {p : Parameter}
    (h : ps.find? name = some p) : p ∈ ps.entries := List.mem_of_find?_eq_some h

end Parameters

/-! ## Facts -/

/-- The name of a spectrum. -/
def Finding.spectrum? : Finding → Option String
  | spectrum p => some p.name
  | remark _ | problem _ => none

namespace Findings

/-- The names of the spectra that were found, in order. -/
def spectra (f : Findings) : List String := f.items.toList.filterMap Finding.spectrum?

/-- More was found. Spectra get consecutive names. -/
structure Grows (f g : Findings) : Prop where
  words : g.parameters.words = f.parameters.words
  items : ∀ x ∈ f.items, x ∈ g.items
  numbered : ∃ k, g.nextSpectrum = f.nextSpectrum + k ∧
    g.spectra = f.spectra ++ (List.range' f.nextSpectrum k).map Counter.spectrum.name

theorem Grows.of_same {f g : Findings} (hwords : g.parameters.words = f.parameters.words)
    (hitems : g.items = f.items) (hnext : g.nextSpectrum = f.nextSpectrum) : Grows f g where
  words := hwords
  items x hx := hitems ▸ hx
  numbered := ⟨0, hnext, by simp [spectra, hitems]⟩

theorem Grows.refl (f : Findings) : Grows f f := .of_same rfl rfl rfl

theorem Grows.trans {f g h : Findings} (first : Grows f g) (second : Grows g h) : Grows f h where
  words := second.words.trans first.words
  items x hx := second.items x (first.items x hx)
  numbered := by
    obtain ⟨k, hnext, hspectra⟩ := first.numbered
    obtain ⟨l, hnext', hspectra'⟩ := second.numbered
    refine ⟨k + l, by omega, ?_⟩
    rw [hspectra', hspectra, hnext, List.append_assoc, ← List.map_append, List.range'_append_1]

theorem Grows.counted {f g : Findings} (h : Grows f g) (hf : f.items = #[]) {p : SampledSpectrum}
    (hp : .spectrum p ∈ g.items) : ∃ n, p.name = Counter.spectrum.name n := by
  obtain ⟨k, -, hspectra⟩ := h.numbered
  have hmem : p.name ∈ g.spectra := List.mem_filterMap.2 ⟨_, Array.mem_toList_iff.2 hp, rfl⟩
  rw [hspectra, spectra, hf, List.filterMap_nil, List.nil_append] at hmem
  obtain ⟨n, -, hn⟩ := List.mem_map.1 hmem
  exact ⟨n, hn.symm⟩

def HasProblem (f : Findings) : Prop := ∃ p, .problem p ∈ f.items

end Findings

/-- Something that findings tell, and still tell when more is found. -/
structure Fact where
  holds : Findings → Prop
  grows : ∀ {f g}, Findings.Grows f g → holds f → holds g

namespace Fact

/-- What holds whatever is found. -/
def of (P : Prop) : Fact := ⟨fun _ => P, fun _ h => h⟩

def and (a b : Fact) : Fact :=
  ⟨fun f => a.holds f ∧ b.holds f, fun hg h => ⟨a.grows hg h.1, b.grows hg h.2⟩⟩

def nothing : Fact := of True

/-- There was a problem. -/
def problem : Fact := ⟨Findings.HasProblem, fun hg ⟨p, hp⟩ => ⟨p, hg.items _ hp⟩⟩

/-- A fact about a result. A problem in its place is not about spelling. -/
def ofResult {β : Type} (a : β → Fact) : Except Problem β → Fact
  | .error p => of (p.kind ≠ .lexical)
  | .ok b => a b

@[simp] theorem holds_of {P : Prop} {f : Findings} : (of P).holds f ↔ P := Iff.rfl

@[simp] theorem holds_and {a b : Fact} {f : Findings} :
    (a.and b).holds f ↔ a.holds f ∧ b.holds f := Iff.rfl

@[simp] theorem holds_nothing {f : Findings} : nothing.holds f ↔ True := Iff.rfl

end Fact

/-- What a survey looks at: a statement of the file `source` with these words. -/
structure Site (α : Type) where
  ctx : Context
  state : State α
  source : Path
  words : List String
  /-- Whether a survey may look at what was said so far. -/
  hears : Bool

namespace Site

variable {α : Type} (v : Site α)

/-- A reference that a survey may hand on. Nobody has to declare a texture whose lack was reported. -/
def Known (f : Findings) : Reference → Prop
  | (.texture, t) => t ∈ v.words ∧ (v.state.hasTexture t = true ∨ f.HasProblem)
  | (.material, m) => m ∈ v.words ∧ v.state.hasMaterial m = true
  | (.spectrum, n) => ∃ p, .spectrum p ∈ f.items ∧ p.name = n
  | _ => False

theorem Known.grows {v : Site α} {f g : Findings} {r : Reference} (h : f.Grows g)
    (hr : v.Known f r) : v.Known g r := by
  obtain ⟨family, n⟩ := r
  cases family with
  | texture => exact ⟨hr.1, hr.2.imp id fun ⟨p, hp⟩ => ⟨p, h.items _ hp⟩⟩
  | material => exact hr
  | spectrum =>
    obtain ⟨p, hp, hn⟩ := hr
    exact ⟨p, h.items _ hp, hn⟩
  | _ => exact hr

/-- What the result of a survey can rest on. -/
def ground (f : Findings) : Ground where
  holds := v.Known f
  word w := w ∈ v.words
  file p := ∃ w ∈ v.words, p = v.ctx.files.fileFor v.source w v.ctx.includeRoot

theorem ground_within {f g : Findings} (h : f.Grows g) : (v.ground f).Within (v.ground g) :=
  ⟨fun _ => Known.grows h, fun _ hw => hw, fun _ hp => hp⟩

def knows (rs : List Reference) : Fact :=
  ⟨fun f => ∀ r ∈ rs, v.Known f r, fun hg h r hr => Known.grows hg (h r hr)⟩

/-- The word is one of the statement. -/
def spells (w : String) : Fact := .of (w ∈ v.words)

/-- The path was found for a word of the statement. -/
def finds (p : Path) : Fact := .of (∃ w ∈ v.words, p = v.ctx.files.fileFor v.source w v.ctx.includeRoot)

theorem holds_knows {rs : List Reference} {f : Findings} :
    (v.knows rs).holds f ↔ ∀ r ∈ rs, v.Known f r := Iff.rfl

@[simp] theorem holds_knows_nil {f : Findings} : (v.knows []).holds f ↔ True := by
  simp [holds_knows]

@[simp] theorem holds_knows_append {rs rs' : List Reference} {f : Findings} :
    (v.knows (rs ++ rs')).holds f ↔ (v.knows rs).holds f ∧ (v.knows rs').holds f :=
  List.forall_mem_append

@[simp] theorem holds_spells {w : String} {f : Findings} : (v.spells w).holds f ↔ w ∈ v.words := Iff.rfl

@[simp] theorem holds_finds {p : Path} {f : Findings} :
    (v.finds p).holds f ↔ ∃ w ∈ v.words, p = v.ctx.files.fileFor v.source w v.ctx.includeRoot := Iff.rfl

/-- Some word of the statement names a mesh file whose header has a number beyond the range of counts. -/
def Overflows : Prop :=
  ∃ w ∈ v.words, ∃ journal,
    let file := v.ctx.files.fileFor v.source w v.ctx.includeRoot
    readPlyInfo (v.ctx.filesFor journal file) file = .error .overflow

/-- Why a survey can end without a result: for a problem that is not about spelling, which is for the lexer
to say, or because of the range of counts. -/
def Refuses : Refusal → Prop
  | .problem p => p.kind ≠ .lexical
  | .overflow => v.Overflows

/-- The findings of a survey at this site, which tell the fact. -/
structure Tells (f : Findings) (a : Fact) : Prop where
  words : f.parameters.words ⊆ v.words
  holds : a.holds f

end Site

end SceneConvert
