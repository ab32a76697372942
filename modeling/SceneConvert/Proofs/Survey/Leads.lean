import SceneConvert.Proofs.Statement.Spread
import SceneConvert.Proofs.Survey.Facts

/-!
# SceneConvert.Proofs.Survey.Leads

How surveys are put together. What is true of every survey that is put together in this way need not be
looked for in each directive: it is proved by induction on `Site.Leads`, which has one rule for each step.

* `Survey.Phase`: a spectrum is written where it is met, so nothing is refused behind one.
* `Site.Leads`: from a fact, a survey leads to a fact about its result.
* `Leads.next`, `Leads.when`, `Leads.ite`: rules for steps in sequence and on a condition.
* `leads_color`, `leads_amount`: what a color or a number refers to is known.
-/

namespace SceneConvert

/-- A look-up whose result on spread parameters is known from its result, and that changes no word. -/
structure Parameters.IsLookup {β : Type} (spread : β → β) (g : Parameters → β × Parameters) : Prop where
  words : ∀ ps, (g ps).2.words = ps.words
  spreads : ∀ ps, g ps.spread = (spread (g ps).1, (g ps).2.spread)

namespace Survey

/-- How far a survey is. Where it is `plain`, no spectrum was met; where it is `colored`, nothing is refused
any more. -/
inductive Phase where
  | plain
  | colored

/-- A problem in place of a result comes before any spectrum. -/
def Phase.ofResult {β : Type} (o : β → Phase) : Except Problem β → Phase
  | .error _ => plain
  | .ok b => o b

end Survey

open Survey

namespace Site

/-- From findings that tell `a`, in the phase `i`, the survey leads to findings that tell `b r` of its
result `r`, in the phase `o r`. -/
inductive Leads {α : Type} (v : Site α) :
    {β : Type} → Phase → Fact → Survey β → (β → Phase) → (β → Fact) → Prop
  | pure {β : Type} {i : Phase} {a : Fact} {r : β} {o : β → Phase} {b : β → Fact}
      (phase : o r = .plain → i = .plain) (fact : ∀ f, a.holds f → (b r).holds f) :
    Leads v i a (pure r) o b
  | throw {β : Type} {a : Fact} {r : Refusal} {o : β → Phase} {b : β → Fact} (reason : v.Refuses r) :
    Leads v .plain a (throw r) o b
  | remark {i : Phase} {a : Fact} {r : Remark} : Leads v i a (remark r) (fun _ => i) fun _ => .nothing
  | report {i : Phase} {a : Fact} {p : Problem} (kind : p.kind ≠ .lexical) :
    Leads v i a (report p) (fun _ => i) fun _ => .problem
  | journal {i : Phase} {a : Fact} {s : State α} (hears : v.hears = true) :
    Leads v i a (journal s) (fun _ => i) fun _ => .nothing
  | unused {i : Phase} {a : Fact} : Leads v i a unused (fun _ => i) fun _ => .nothing
  | spectrum {i : Phase} {a : Fact} {wavelengths values : List Float32} :
    Leads v i a (spectrum wavelengths values) (fun _ => .colored) fun n => v.knows [(.spectrum, n)]
  | look {β : Type} {i : Phase} {a : Fact} {g : Parameters → β × Parameters} {b : β → Fact}
      (lookup : Parameters.IsLookup id g)
      (fact : ∀ ps, ps.words ⊆ v.words → ∀ f, a.holds f → (b (g ps).1).holds f) :
    Leads v i a (parameters g) (fun _ => i) b
  /-- A parameter itself is not the same as its spread; what is made of it is. -/
  | find {γ : Type} {i : Phase} {a : Fact} {g : Parameters → Option Parameter × Parameters}
      {k : Option Parameter → Survey γ} {o : γ → Phase} {c : γ → Fact}
      (lookup : Parameters.IsLookup (Option.map Parameter.spread) g)
      (mem : ∀ ps p, (g ps).1 = some p → p ∈ ps.entries)
      (same : ∀ p, k (p.map Parameter.spread) = k p)
      (rest : ∀ p, (∀ q, p = some q → q.value.words ⊆ v.words) → Leads v i a (k p) o c) :
    Leads v i a (parameters g >>= k) o c
  | bind {β γ : Type} {i : Phase} {a : Fact} {m : Survey β} {k : β → Survey γ} {o : β → Phase}
      {o' : γ → Phase} {b : β → Fact} {c : γ → Fact} (first : Leads v i a m o b)
      (rest : ∀ r, Leads v (o r) (a.and (b r)) (k r) o' c) :
    Leads v i a (m >>= k) o' c
  | attempt {β : Type} {i : Phase} {a : Fact} {m : Survey β} {o : β → Phase} {b : β → Fact}
      (survey : Leads v i a m o b) : Leads v i a m.attempt (Phase.ofResult o) (.ofResult b)
  /-- A fact that does not depend on the findings can be used at once. -/
  | knowing {β : Type} {i : Phase} {a : Fact} {P : Prop} {m : Survey β} {o : β → Phase} {b : β → Fact}
      (survey : P → Leads v i a m o b) : Leads v i (a.and (.of P)) m o b
  | weaken {β : Type} {i : Phase} {a a' : Fact} {m : Survey β} {o o' : β → Phase} {b b' : β → Fact}
      (survey : Leads v i a m o b) (before : ∀ f, a'.holds f → a.holds f)
      (phase : ∀ r, o' r = .plain → o r = .plain)
      (behind : ∀ r f, a'.holds f → (b r).holds f → (b' r).holds f) :
    Leads v i a' m o' b'

/-- What holds behind a look-up of a parameter. -/
theorem Tells.find {α : Type} {v : Site α} {a : Fact} {f : Findings} (hf : v.Tells f a)
    {g : Parameters → Option Parameter × Parameters}
    (lookup : Parameters.IsLookup (Option.map Parameter.spread) g)
    (mem : ∀ ps p, (g ps).1 = some p → p ∈ ps.entries) :
    (∀ q, (g f.parameters).1 = some q → q.value.words ⊆ v.words) ∧
      v.Tells { f with parameters := (g f.parameters).2 } a := by
  refine ⟨fun q hq _ hw => hf.words (Parameters.mem_words (mem f.parameters q hq) hw), ?_⟩
  exact ⟨lookup.words f.parameters ▸ hf.words, a.grows (.of_same (lookup.words _) rfl rfl) hf.holds⟩

/-! ## Rules -/

namespace Leads

variable {α β γ : Type} {v : Site α} {i : Phase} {a : Fact} {o : β → Phase} {o' : γ → Phase}
  {b : β → Fact} {c : γ → Fact}

theorem refuse {p : Problem} (kind : p.kind ≠ .lexical) : v.Leads .plain a (refuse p) o b := .throw kind

theorem require {p : Problem} {r : Option β} (kind : p.kind ≠ .lexical)
    (fact : ∀ x, r = some x → ∀ f, a.holds f → (b x).holds f) :
    v.Leads .plain a (require p r) (fun _ => .plain) b := by
  cases r with
  | none => exact .refuse kind
  | some x => exact .pure id (fact x rfl)

theorem given {p : Problem} {r : Option β} (kind : p.kind ≠ .lexical) :
    v.Leads .plain a (Survey.require p r) (fun _ => .plain) fun _ => .nothing :=
  .require kind fun _ _ _ _ => trivial

theorem done {r : β} : v.Leads i a (Pure.pure r) (fun _ => i) fun _ => .nothing := .pure id fun _ _ => trivial

theorem next {m : Survey β} {k : β → Survey γ} (first : v.Leads i a m o b)
    (rest : ∀ r, v.Leads (o r) a (k r) o' c) : v.Leads i a (m >>= k) o' c :=
  .bind first fun r => .weaken (rest r) (fun _ h => h.1) (fun _ => id) fun _ _ _ => id

theorem when {p : Prop} {_ : Decidable p} {m : Survey Unit} {k : Unit → Survey γ} {b : Unit → Fact}
    (first : v.Leads i a m (fun _ => i) b) (rest : ∀ u, v.Leads i a (k u) o' c) :
    v.Leads i a (if p then m >>= k else k ()) o' c := by
  split
  · exact .next first rest
  · exact rest ()

theorem ite {p : Prop} {_ : Decidable p} {m n : Survey β} (hm : p → v.Leads i a m o b)
    (hn : ¬p → v.Leads i a n o b) : v.Leads i a (if p then m else n) o b := by
  split
  · exact hm ‹_›
  · exact hn ‹_›

/-- A survey that meets no spectrum can stand where there may be one. -/
theorem plainly {m : Survey β} (h : v.Leads .plain a m (fun _ => .plain) b) : v.Leads .plain a m o b :=
  .weaken h (fun _ => id) (fun _ _ => rfl) fun _ _ _ => id

end Leads

variable {α β γ : Type} {v : Site α} {i : Phase} {a : Fact}

/-! ## Parameters -/

theorem leads_has {name : String} : v.Leads i a (has name) (fun _ => i) fun _ => .nothing :=
  .look ⟨fun _ => rfl, fun ps => by rw [Parameters.contains_spread]; rfl⟩ fun _ _ _ _ => trivial

theorem leads_texture? {name : String} : v.Leads i a (texture? name) (fun _ => i) fun _ => .nothing :=
  .look ⟨fun ps => ps.words_mark _, fun ps => ps.texture?_spread name⟩ fun _ _ _ _ => trivial

theorem leads_lookWords {name : String} {read : Value → Option β} (hspread : ∀ w, read w.spread = read w)
    (words : β → List String) (hread : ∀ value r, read value = some r → words r ⊆ value.words) :
    v.Leads i a (look name read) (fun _ => i) fun r => .of (∀ x, r = some x → words x ⊆ v.words) := by
  refine .look ⟨fun ps => ps.words_mark _, fun ps => ps.look_spread name hspread⟩ fun ps hps f _ x hx => ?_
  obtain ⟨p, hp, hpx⟩ := Option.bind_eq_some_iff.1 hx
  have hmem := Parameters.mem_entries_of_find? hp
  exact fun w hw => hps (Parameters.mem_words hmem (hread p.value x hpx hw))

theorem leads_look {name : String} {read : Value → Option β} (hspread : ∀ w, read w.spread = read w) :
    v.Leads i a (look name read) (fun _ => i) fun _ => .nothing :=
  .look ⟨fun ps => ps.words_mark _, fun ps => ps.look_spread name hspread⟩ fun _ _ _ _ => trivial

theorem leads_numbers? {name : String} : v.Leads i a (numbers? name) (fun _ => i) fun _ => .nothing :=
  leads_look fun _ => rfl

theorem leads_number? {name : String} : v.Leads i a (number? name) (fun _ => i) fun _ => .nothing :=
  leads_look fun _ => rfl

theorem leads_words? {name : String} :
    v.Leads i a (words? name) (fun _ => i) fun ws => .of (∀ x, ws = some x → x ⊆ v.words) :=
  leads_lookWords (fun _ => rfl) id fun _ _ h => Value.words_of_texts? h ▸ List.Subset.refl _

theorem leads_word {name default : String} (hdefault : default ∈ v.words) :
    v.Leads i a (word name default) (fun _ => i) fun w => v.spells w := by
  have hwords (value : Value) (w : String) (h : value.word? = some w) : [w] ⊆ value.words := by
    simpa using Value.mem_words_of_word? h
  refine .bind (leads_lookWords (fun _ => rfl) (fun w => [w]) hwords) fun w => .pure id fun f hf => ?_
  cases w with
  | none => exact hdefault
  | some w => simpa using hf.2 w rfl

theorem leads_number {name : String} {default : Float32} :
    v.Leads i a (number name default) (fun _ => i) fun _ => .nothing :=
  .next leads_number? fun _ => .done

theorem leads_integer {name : String} {default : Int} :
    v.Leads i a (integer name default) (fun _ => i) fun _ => .nothing :=
  .next (leads_look fun _ => rfl) fun _ => .done

theorem leads_truth {name : String} {default : Bool} :
    v.Leads i a (truth name default) (fun _ => i) fun _ => .nothing :=
  .next (leads_look fun _ => rfl) fun _ => .done

theorem leads_parameter? {name : String} {k : Option Parameter → Survey γ} {o : γ → Phase} {c : γ → Fact}
    (hsame : ∀ p, k (p.map Parameter.spread) = k p)
    (hrest : ∀ p, (∀ q, p = some q → q.value.words ⊆ v.words) → v.Leads i a (k p) o c) :
    v.Leads i a (parameter? name >>= k) o c :=
  .find ⟨fun ps => ps.words_mark _, fun ps => ps.get_spread name⟩
    (fun _ _ => Parameters.mem_entries_of_find?) hsame hrest

/-! ## Colors and numbers -/

theorem leads_firstColor? {values : List Float32} :
    v.Leads i a (firstColor? values) (fun _ => i) fun _ => .nothing := by
  unfold firstColor?
  split
  · exact .done
  · exact .done
  · exact .next .remark fun _ => .done
  · exact .done

theorem leads_channels? {p : Parameter} : v.Leads i a (channels? p) (fun _ => i) fun _ => .nothing := by
  unfold channels?
  split
  · exact leads_firstColor?
  · exact .done

theorem leads_scale {name : String} : v.Leads i a (scale name) (fun _ => i) fun _ => .nothing := by
  refine .next leads_numbers? fun values => ?_
  split
  · exact .next leads_firstColor? fun _ => .done
  · exact .done

theorem leads_checkTexture {name : String} (h : name ∈ v.words) :
    v.Leads i a (checkTexture v.state name) (fun _ => i) fun _ => v.knows [(.texture, name)] := by
  unfold checkTexture
  refine .ite (fun hdeclared => .pure id fun f _ r hr => ?_) fun _ => ?_
  · obtain rfl := List.mem_singleton.1 hr
    exact ⟨h, .inl hdeclared⟩
  · refine .weaken (.report nofun) (fun _ => id) (fun _ => id) fun _ f _ hproblem r hr => ?_
    obtain rfl := List.mem_singleton.1 hr
    exact ⟨h, .inr hproblem⟩

theorem leads_textureColor {name : String} (h : name ∈ v.words) :
    v.Leads i a (textureColor v.state name) (fun _ => i) fun c => v.knows c.references :=
  .bind (leads_checkTexture h) fun _ => .pure id fun _ hf => hf.2

theorem leads_readColor {use : ColorUse} {p : Parameter} (h : p.value.words ⊆ v.words) :
    v.Leads i a (readColor v.state use p) (fun _ => .colored) (.ofResult fun c => v.knows c.references) := by
  have invalid {problem : Problem} (hkind : problem.kind ≠ .lexical) :
      v.Leads i a (pure (.error problem : Except Problem Color)) (fun _ => .colored)
        (.ofResult fun c => v.knows c.references) := .pure nofun fun _ _ => hkind
  have plain {c : Color} (hc : c.references = []) :
      v.Leads i a (pure (.ok c : Except Problem Color)) (fun _ => .colored)
        (.ofResult fun c => v.knows c.references) := .pure nofun fun _ _ => by simp [Fact.ofResult, hc]
  have texture {name : String} (hname : p.value.word? = some name) :
      v.Leads i a (do return (.ok (← textureColor v.state name) : Except Problem Color))
        (fun _ => .colored) (.ofResult fun c => v.knows c.references) :=
    .bind (leads_textureColor (h (Value.mem_words_of_word? hname))) fun _ => .pure nofun fun _ hf => hf.2
  have channels {next : Option Channels → Survey (Except Problem Color)}
      (hnone : v.Leads i a (next none) (fun _ => .colored) (.ofResult fun c => v.knows c.references))
      (hsome : ∀ c, v.Leads i a (next (some c)) (fun _ => .colored)
        (.ofResult fun c => v.knows c.references)) :
      v.Leads i a (do next (← channels? p)) (fun _ => .colored)
        (.ofResult fun c => v.knows c.references) := by
    refine .next leads_channels? fun c => ?_
    cases c with
    | none => exact hnone
    | some c => exact hsome c
  unfold readColor
  refine .when .remark fun _ => ?_
  split
  · cases hname : p.value.word? with
    | none => exact invalid nofun
    | some name => exact texture hname
  · cases hname : p.value.word? with
    | none => exact channels (invalid nofun) fun _ => plain rfl
    | some name => exact .when .remark fun _ => texture hname
  · exact channels (invalid nofun) fun _ => plain rfl
  · split
    · exact plain rfl
    · exact invalid nofun
  · split
    · exact invalid nofun
    · refine .ite (fun _ => .bind .spectrum fun _ => ?_) fun _ => invalid nofun
      exact .pure nofun fun _ hf => hf.2
    · exact invalid nofun
  · exact invalid nofun

theorem leads_color {use : ColorUse} :
    v.Leads i a (color v.state use) (fun _ => .colored) fun c => v.knows c.references := by
  have fallback {i : Phase} {a : Fact} :
      v.Leads i a (pure use.fallback) (fun _ => .colored) fun c => v.knows c.references :=
    .pure nofun fun f _ r hr => by simp [ColorUse.fallback, Color.references] at hr
  refine leads_parameter? (fun p => by cases p <;> rfl) fun p hp => ?_
  cases p with
  | none => exact fallback
  | some p =>
    refine .bind (leads_readColor (hp p rfl)) fun c => ?_
    cases c with
    | ok c => exact .pure nofun fun _ hf => hf.2
    | error problem => exact .knowing fun hkind => .next (.report hkind) fun _ => fallback

theorem leads_reflectance {name : String} {default : Channels} :
    v.Leads i a (reflectance v.state name default) (fun _ => .colored) fun c => v.knows c.references :=
  leads_color

theorem leads_illuminant {name : String} :
    v.Leads i a (illuminant v.state name) (fun _ => .colored) fun c => v.knows c.references :=
  .next leads_scale fun _ => leads_color

theorem leads_amount {name : String} {default : Float32} :
    v.Leads i a (amount v.state name default) (fun _ => i) fun x => v.knows x.references := by
  have number {x : Float32} :
      v.Leads i a (pure (.number x)) (fun _ => i) fun x : Amount => v.knows x.references :=
    .pure id fun f _ r hr => by simp [Amount.references] at hr
  refine leads_parameter? (fun p => by cases p <;> rfl) fun p hp => ?_
  cases p with
  | none => exact number
  | some p =>
    dsimp only
    split
    · rename_i hname
      have hmem := hp p rfl (Value.mem_words_of_word? hname)
      exact .bind (leads_checkTexture hmem) fun _ => .pure id fun _ hf => hf.2
    · exact number
    · exact .next .remark fun _ => number
    · exact .next (.report nofun) fun _ => number

end Site

end SceneConvert
