import SceneConvert.Scene.Directive

/-!
# SceneConvert.Proofs.Scene.Ground

What a change rests on: the references, words and files that it takes from elsewhere.

* `Ground`: references, words and files that can be relied on.
* `Fragment.Backed`: fragments that rest on a ground and on the ones before them.
* `Change.Rests`: a change that rests on a ground. `Change.dangles` tells the changes that bind a name
  without defining it.
-/

namespace SceneConvert

/-- What can be relied on. -/
structure Ground where
  holds : Reference → Prop
  word : String → Prop
  file : Path → Prop

/-- Whatever the one supports, the other does. -/
structure Ground.Within (g h : Ground) : Prop where
  holds : ∀ r, g.holds r → h.holds r
  word : ∀ w, g.word w → h.word w
  file : ∀ p, g.file p → h.file p

section

variable {α : Type}

def Light.color : Light α → Color
  | .point _ c | .distant _ c | .environment c _ => c

theorem Fragment.references_light (n : String) (l : Light α) :
    (Fragment.light n l).references = l.color.references := by
  cases l <;> rfl

def Placed.references (p : Placed α) : List Reference := (Fragment.entity "" p).references

def Fragment.file? : Fragment α → Option Path
  | .image _ t => some t.file
  | .map _ file | .mesh _ (.separate file) | .mesh _ (.existing file) => some file
  | _ => none

/-- Fragments whose references satisfy `K` or are defined by the ones before. -/
def Fragment.Backed (K : Reference → Prop) : List (Fragment α) → Prop
  | [] => True
  | f :: fs => (∀ r ∈ f.references, K r) ∧ Backed (fun r => K r ∨ r = f.reference) fs

theorem Fragment.Backed.mono {K K' : Reference → Prop} (h : ∀ r, K r → K' r)
    {fs : List (Fragment α)} (hfs : Backed K fs) : Backed K' fs := by
  induction fs generalizing K K' with
  | nil => trivial
  | cons f fs ih => exact ⟨fun r hr => h r (hfs.1 r hr), ih (fun r => Or.imp_left (h r)) hfs.2⟩

/-- Fragments that make up the texture of a name. -/
structure Fragment.Textures (g : Ground) (name : String) (fs : List (Fragment α)) : Prop where
  backed : Backed g.holds fs
  defined : ∃ x ∈ fs, x.reference = (.texture, name)
  family : ∀ x ∈ fs, x.family = .texture
  names : ∀ x ∈ fs, x.name = name ∨ x.name = name ++ "-tex"
  files : ∀ x ∈ fs, ∀ p, x.file? = some p → g.file p

theorem Fragment.Textures.mono {g h : Ground} {name : String} {fs : List (Fragment α)}
    (hwithin : g.Within h) (hfs : Textures g name fs) : Textures h name fs :=
  { hfs with
    backed := hfs.backed.mono hwithin.holds
    files := fun x hx p hp => hwithin.file p (hfs.files x hx p hp) }

/-- A light, which gets the name `name`, with the image that it shows. -/
def LightSource.Rests (g : Ground) (name : String) (l : LightSource α) : Prop :=
  match l.map with
  | none => ∀ r ∈ l.light.color.references, g.holds r
  | some p => g.file p ∧ l.light.color = .texture (mapName name)

theorem LightSource.Rests.mono {g h : Ground} {name : String} {l : LightSource α}
    (hwithin : g.Within h) (hl : l.Rests g name) : l.Rests h name := by
  unfold Rests at hl ⊢
  cases hmap : l.map with
  | none =>
    rw [hmap] at hl
    exact fun r hr => hwithin.holds r (hl r hr)
  | some p =>
    rw [hmap] at hl
    exact ⟨hwithin.file p hl.1, hl.2⟩

namespace Change

/-- Whatever the change does not get from the state `s` rests on the ground. -/
def Rests (g : Ground) (s : State α) : Change α → Prop
  | bindMaterial (some n) => g.holds (.material, n)
  | freshMaterial (some m) => ∀ r ∈ m.references, g.holds r
  | namedMaterial n m => g.word n ∧ ∀ r ∈ m.references, g.holds r
  | texture name fs => g.word name ∧ Fragment.Textures g name fs
  | light l => l.Rests g (s.counters.next .light)
  | emission (some c) => ∀ r ∈ c.references, g.holds r
  | shape (.existing p) => g.file p
  | drawObject records => ∃ name, s.objects.get? name = some records
  | _ => True

/-- Whether the change binds a fresh name without defining it. -/
def dangles : Change α → Bool
  | freshMaterial none | emission none => true
  | _ => false

theorem Rests.mono {g h : Ground} {s : State α} {c : Change α} (hwithin : g.Within h)
    (hc : c.Rests g s) : c.Rests h s := by
  have holds {rs : List Reference} (hrs : ∀ r ∈ rs, g.holds r) : ∀ r ∈ rs, h.holds r :=
    fun r hr => hwithin.holds r (hrs r hr)
  cases c with
  | bindMaterial n =>
    cases n with
    | none => trivial
    | some n => exact hwithin.holds _ hc
  | freshMaterial m =>
    cases m with
    | none => trivial
    | some m => exact holds hc
  | namedMaterial n m => exact ⟨hwithin.word n hc.1, holds hc.2⟩
  | texture name fs => exact ⟨hwithin.word name hc.1, hc.2.mono hwithin⟩
  | light l => exact LightSource.Rests.mono hwithin hc
  | emission c =>
    cases c with
    | none => trivial
    | some c => exact holds hc
  | shape plan =>
    cases plan with
    | existing p => exact hwithin.file p hc
    | _ => trivial
  | _ => exact hc

theorem Rests.of_state {g : Ground} {s t : State α} {c : Change α} (hc : c.Rests g s)
    (hobjects : t.objects = s.objects) (hlight : t.counters.light = s.counters.light) :
    c.Rests g t := by
  have hnext : t.counters.next .light = s.counters.next .light := congrArg (Counter.name .light) hlight
  unfold Rests at hc ⊢
  split at hc <;> simp_all

end Change

end

end SceneConvert
