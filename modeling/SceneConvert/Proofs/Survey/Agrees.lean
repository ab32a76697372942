import SceneConvert.Proofs.Survey.Colorless
import SceneConvert.Proofs.Survey.Nearby

/-!
# SceneConvert.Proofs.Survey.Agrees

Two surveys that find the same problems, although the spectra that they come upon may get other names.

* `Findings.problems`: the problems that were found and that count.
* `Survey.Agrees`: from findings that agree, two surveys come to findings that agree, and to results that
  are related.
* `agrees_bind`, `agrees_attempt`: agreement of surveys from that of their parts.
* `Leads.agrees`: surveys that look at no state agree with themselves, by induction on their steps.
* `State.Resembles`: states at which colors are read in the same way.
-/

namespace SceneConvert

variable {keep : Problem → Bool}

/-- The problems among the findings that count. -/
def Findings.problems (keep : Problem → Bool) (f : Findings) : List Problem :=
  (f.items.toList.filterMap Finding.problem?).filter keep

theorem Findings.problems_push (f : Findings) (x : Finding) :
    ({ f with items := f.items.push x } : Findings).problems keep =
      f.problems keep ++ x.problem?.toList.filter keep := by
  simp only [problems, Array.toList_push, List.filterMap_append, List.filter_append]
  cases x <;> rfl

theorem Findings.sampled_push (f : Findings) (x : Finding) :
    ({ f with items := f.items.push x } : Findings).sampled = f.sampled + x.isSpectrum.toNat := by
  cases h : x.isSpectrum <;> simp [sampled, h]

/-- Findings with the same parameters, the same problems and as many spectra. -/
structure Findings.Agree (keep : Problem → Bool) (f g : Findings) : Prop where
  parameters : f.parameters = g.parameters
  problems : f.problems keep = g.problems keep
  sampled : f.sampled = g.sampled

theorem Findings.agree_start (ps : Parameters) (m n : Nat) : (start ps m).Agree keep (start ps n) :=
  ⟨rfl, rfl, rfl⟩

theorem Findings.Agree.symm {f g : Findings} (h : f.Agree keep g) : g.Agree keep f :=
  ⟨h.parameters.symm, h.problems.symm, h.sampled.symm⟩

theorem Findings.Agree.push {f g : Findings} (h : f.Agree keep g) {x y : Finding}
    (hxy : x.problem?.toList.filter keep = y.problem?.toList.filter keep)
    (hspectrum : x.isSpectrum = y.isSpectrum) :
    Findings.Agree keep { f with items := f.items.push x } { g with items := g.items.push y } :=
  ⟨h.parameters, by rw [problems_push, problems_push, h.problems, hxy],
    by rw [sampled_push, sampled_push, h.sampled, hspectrum]⟩

namespace Survey

/-- Results that are related, or one and the same error. -/
inductive Outcomes {ε β : Type} (R : β → β → Prop) : Except ε β → Except ε β → Prop
  | ok {b b' : β} : R b b' → Outcomes R (.ok b) (.ok b')
  | error (e : ε) : Outcomes R (.error e) (.error e)

/-- From findings that agree, the surveys come to such, and to related results. -/
structure Agrees {β : Type} (keep : Problem → Bool) (R : β → β → Prop) (m m' : Survey β) : Prop where
  agree : ∀ f g, f.Agree keep g →
    Outcomes R (m.outcome f).1 (m'.outcome g).1 ∧ (m.outcome f).2.Agree keep (m'.outcome g).2

/-- The results of the surveys are the same. -/
abbrev Same {β : Type} (keep : Problem → Bool) (m m' : Survey β) : Prop := Agrees keep Eq m m'

/-- The results of the surveys do not matter. -/
abbrev Akin {β : Type} (keep : Problem → Bool) (m m' : Survey β) : Prop :=
  Agrees keep (fun _ _ => True) m m'

variable {α β γ : Type} {R : β → β → Prop} {S : γ → γ → Prop}

theorem agrees_pure {b b' : β} (h : R b b') : Agrees keep R (pure b) (pure b') :=
  ⟨fun _ _ hfg => ⟨.ok h, hfg⟩⟩

theorem same_pure {b : β} : Same keep (pure b : Survey β) (pure b) := agrees_pure rfl

theorem akin_pure {b b' : β} : Akin keep (pure b : Survey β) (pure b') := agrees_pure trivial

theorem agrees_throw {r : Refusal} : Agrees keep R (throw r) (throw r) :=
  ⟨fun _ _ hfg => ⟨.error r, hfg⟩⟩

theorem agrees_refuse {p : Problem} : Agrees keep R (refuse p) (refuse p) := agrees_throw

theorem same_require {p : Problem} {o : Option β} : Same keep (require p o) (require p o) := by
  cases o with
  | none => exact agrees_refuse
  | some b => exact same_pure

theorem same_remark {r r' : Remark} : Same keep (remark r) (remark r') :=
  ⟨fun _ _ hfg => ⟨.ok rfl, hfg.push rfl rfl⟩⟩

theorem same_report {p : Problem} : Same keep (report p) (report p) :=
  ⟨fun _ _ hfg => ⟨.ok rfl, hfg.push rfl rfl⟩⟩

theorem same_parameters {g : Parameters → β × Parameters} :
    Same keep (parameters g) (parameters g) := by
  refine ⟨fun f f' hff' => ?_⟩
  rw [outcome_parameters, outcome_parameters, hff'.parameters]
  exact ⟨.ok rfl, rfl, hff'.problems, hff'.sampled⟩

theorem same_unused : Same keep unused unused :=
  ⟨fun f f' hff' => ⟨by rw [outcome_unused, outcome_unused, hff'.parameters]; exact .ok rfl, hff'⟩⟩

theorem akin_journal {s t : State α} : Akin keep (journal s) (journal t) :=
  ⟨fun _ _ hfg => ⟨.ok trivial, hfg⟩⟩

theorem akin_spectrum {wavelengths values : List Float32} :
    Akin keep (spectrum wavelengths values) (spectrum wavelengths values) := by
  refine ⟨fun f g hfg => ?_⟩
  have hpush := hfg.push (x := .spectrum ⟨Counter.spectrum.name f.nextSpectrum, wavelengths, values⟩)
    (y := .spectrum ⟨Counter.spectrum.name g.nextSpectrum, wavelengths, values⟩) rfl rfl
  exact ⟨.ok trivial, hpush.parameters, hpush.problems, hpush.sampled⟩

theorem agrees_bind {m m' : Survey β} {k k' : β → Survey γ} (hm : Agrees keep R m m')
    (hk : ∀ b b', R b b' → Agrees keep S (k b) (k' b')) : Agrees keep S (m >>= k) (m' >>= k') := by
  refine ⟨fun f g hfg => ?_⟩
  obtain ⟨hresult, hfindings⟩ := hm.agree f g hfg
  rw [outcome_bind, outcome_bind]
  rcases hmf : m.outcome f with ⟨r, f'⟩
  rcases hmg : m'.outcome g with ⟨r', g'⟩
  rw [hmf, hmg] at hresult hfindings
  cases hresult with
  | ok hb => exact (hk _ _ hb).agree f' g' hfindings
  | error r => exact ⟨.error r, hfindings⟩

theorem Agrees.mono {m m' : Survey β} {R' : β → β → Prop} (h : Agrees keep R m m')
    (hR : ∀ b b', R b b' → R' b b') : Agrees keep R' m m' := by
  refine ⟨fun f g hfg => ?_⟩
  obtain ⟨hresult, hfindings⟩ := h.agree f g hfg
  refine ⟨?_, hfindings⟩
  generalize (m.outcome f).1 = r, (m'.outcome g).1 = r' at hresult ⊢
  cases hresult with
  | ok hb => exact .ok (hR _ _ hb)
  | error r => exact .error r

theorem agrees_same {m m' : Survey β} {k k' : β → Survey γ} (hm : Same keep m m')
    (hk : ∀ b, Agrees keep S (k b) (k' b)) : Agrees keep S (m >>= k) (m' >>= k') :=
  agrees_bind hm fun b _ hb => hb ▸ hk b

theorem agrees_akin {m m' : Survey β} {k k' : β → Survey γ} (hm : Akin keep m m')
    (hk : ∀ b b', Agrees keep S (k b) (k' b')) : Agrees keep S (m >>= k) (m' >>= k') :=
  agrees_bind hm fun b b' _ => hk b b'

theorem agrees_when {c : Prop} {_ : Decidable c} {m m' : Survey Unit} {k k' : Unit → Survey γ}
    (hm : Same keep m m') (hk : ∀ u, Agrees keep S (k u) (k' u)) :
    Agrees keep S (if c then m >>= k else k ()) (if c then m' >>= k' else k' ()) := by
  split
  · exact agrees_same hm hk
  · exact hk ()

theorem agrees_if {c : Prop} {_ : Decidable c} {m m' n n' : Survey β} (hm : Agrees keep R m m')
    (hn : Agrees keep R n n') : Agrees keep R (if c then m else n) (if c then m' else n') := by
  split
  · exact hm
  · exact hn

theorem agrees_attempt {m m' : Survey β} (hm : Agrees keep R m m') {k k' : Except Problem β → Survey γ}
    (herror : ∀ p, Agrees keep S (k (.error p)) (k' (.error p)))
    (hok : ∀ b b', R b b' → Agrees keep S (k (.ok b)) (k' (.ok b'))) :
    Agrees keep S (m.attempt >>= k) (m'.attempt >>= k') := by
  refine ⟨fun f g hfg => ?_⟩
  obtain ⟨hresult, hfindings⟩ := hm.agree f g hfg
  rw [outcome_bind, outcome_bind, outcome_attempt, outcome_attempt]
  rcases hmf : m.outcome f with ⟨r, f'⟩
  rcases hmg : m'.outcome g with ⟨r', g'⟩
  rw [hmf, hmg] at hresult hfindings
  cases hresult with
  | ok hb => exact (hok _ _ hb).agree f' g' hfindings
  | error r =>
    cases r with
    | problem p => exact (herror p).agree f' g' hfindings
    | overflow => exact ⟨.error _, hfindings⟩

/-! ## Looking at parameters -/

theorem same_has {name : String} : Same keep (has name) (has name) := same_parameters

theorem same_look {name : String} {read : Value → Option β} :
    Same keep (look name read) (look name read) := same_parameters

theorem same_number {name : String} {default : Float32} :
    Same keep (number name default) (number name default) :=
  agrees_same same_look fun _ => same_pure

theorem same_integer {name : String} {default : Int} :
    Same keep (integer name default) (integer name default) :=
  agrees_same same_look fun _ => same_pure

theorem same_word {name default : String} : Same keep (word name default) (word name default) :=
  agrees_same same_look fun _ => same_pure

end Survey

open Survey

/-! ## Surveys that look at no state -/

/-- A survey that has met a spectrum goes on to a result. -/
theorem Site.Leads.exists_ok_bind {α β γ : Type} {v : Site α} {i : Phase} {a : Fact} {m : Survey β}
    {k : β → Survey γ} {o : β → Phase} {o' : γ → Phase} {b : β → Fact} {c : γ → Fact}
    (first : v.Leads i a m o b) (rest : ∀ r, v.Leads (o r) (a.and (b r)) (k r) o' c) {f : Findings}
    (hf : v.Tells f a) {r : β} (hr : (m.outcome f).1 = .ok r) (hmet : o r ≠ .plain) :
    ∃ r', ((m >>= k).outcome f).1 = .ok r' ∧ o' r' ≠ .plain := by
  have hmf : m.outcome f = (.ok r, (m.outcome f).2) := Prod.ext hr rfl
  have hrest := (rest r).respects (first.learns.tells hf hmf).2 fun h => absurd h hmet
  rw [outcome_bind_ok hmf]
  rcases hkf : (k r).outcome (m.outcome f).2 with ⟨e | r', h⟩ <;> rw [hkf] at hrest
  · exact absurd hrest.1 hmet
  · exact ⟨r', rfl, fun h => hmet (hrest h).1⟩

/-- Over findings that agree, a survey comes to the same, or it has met a spectrum. -/
theorem Site.Leads.agrees {α β : Type} {v : Site α} {i : Phase} {a : Fact} {m : Survey β}
    {o : β → Phase} {b : β → Fact} (h : v.Leads i a m o b) (hdeaf : v.hears = false) {f g : Findings}
    (hf : v.Tells f a) (hg : v.Tells g a) (hfg : f.Agree keep g) :
    (∃ r, (m.outcome f).1 = .ok r ∧ o r ≠ .plain) ∨
      Outcomes Eq (m.outcome f).1 (m.outcome g).1 ∧ (m.outcome f).2.Agree keep (m.outcome g).2 := by
  induction h generalizing f g with
  | pure => exact .inr ⟨.ok rfl, hfg⟩
  | throw => exact .inr ⟨.error _, hfg⟩
  | remark => exact .inr ⟨.ok rfl, hfg.push rfl rfl⟩
  | report => exact .inr ⟨.ok rfl, hfg.push rfl rfl⟩
  | journal hears => cases hdeaf.symm.trans hears
  | unused => exact .inr (same_unused.agree f g hfg)
  | spectrum => exact .inl ⟨_, rfl, nofun⟩
  | look => exact .inr (same_parameters.agree f g hfg)
  | @find _ _ _ look k _ _ lookup mem _ _ ih =>
    obtain ⟨hmem, hlooked⟩ := hf.find lookup mem
    have hlooked' := (hg.find lookup mem).2
    have hagree : Findings.Agree keep { f with parameters := (look f.parameters).2 }
        { g with parameters := (look g.parameters).2 } :=
      ⟨congrArg (fun ps => (look ps).2) hfg.parameters, hfg.problems, hfg.sampled⟩
    have hrest := ih _ hmem hlooked hlooked' hagree
    rw [outcome_bind_ok (outcome_parameters look f), outcome_bind_ok (outcome_parameters look g),
      ← hfg.parameters]
    rwa [← hfg.parameters] at hrest
  | @bind _ _ _ _ m k _ _ _ _ first rest ihm ihk =>
    rcases ihm hf hg hfg with ⟨r, hr, hmet⟩ | ⟨hresult, hfindings⟩
    · exact .inl (first.exists_ok_bind rest hf hr hmet)
    · rw [outcome_bind, outcome_bind]
      rcases hmf : m.outcome f with ⟨r, f'⟩
      rcases hmg : m.outcome g with ⟨r', g'⟩
      rw [hmf, hmg] at hresult hfindings
      cases hresult with
      | @ok r r' hr =>
        cases hr
        exact ihk r (first.learns.tells hf hmf).2 (first.learns.tells hg hmg).2 hfindings
      | error e => exact .inr ⟨.error e, hfindings⟩
  | @attempt _ _ _ m _ _ _ ih =>
    have hm := ih hf hg hfg
    rw [outcome_attempt, outcome_attempt]
    generalize m.outcome f = x, m.outcome g = y at hm ⊢
    obtain ⟨r, f'⟩ := x
    obtain ⟨r', g'⟩ := y
    rcases hm with ⟨_, rfl, hmet⟩ | ⟨hresult, hfindings⟩
    · exact .inl ⟨_, rfl, hmet⟩
    · right
      cases hresult with
      | @ok r r' hr =>
        cases hr
        exact ⟨.ok rfl, hfindings⟩
      | error e =>
        cases e with
        | problem p => exact ⟨.ok rfl, hfindings⟩
        | overflow => exact ⟨.error _, hfindings⟩
  | knowing _ ih => exact ih hf.holds.2 ⟨hf.words, hf.holds.1⟩ ⟨hg.words, hg.holds.1⟩ hfg
  | weaken _ before phase _ ih =>
    refine (ih ⟨hf.words, before f hf.holds⟩ ⟨hg.words, before g hg.holds⟩ hfg).imp_left ?_
    exact fun ⟨r, hr, hmet⟩ => ⟨r, hr, fun h => hmet (phase r h)⟩

namespace Survey

variable {α β γ : Type}

theorem same_of_leads {v : Site α} (hdeaf : v.hears = false) {m : Survey β} {b : List String → β → Fact}
    (h : ∀ words, v.words ⊆ words →
      Site.Leads { v with words } .plain .nothing m (fun _ => .plain) (b words)) : Same keep m m := by
  refine ⟨fun f g hfg => ?_⟩
  have hleads := h (v.words ++ f.parameters.words) (List.subset_append_left _ _)
  have hwords := List.subset_append_right v.words f.parameters.words
  refine (hleads.agrees hdeaf ⟨hwords, trivial⟩ ⟨hfg.parameters ▸ hwords, trivial⟩ hfg).resolve_left ?_
  exact fun ⟨_, _, hmet⟩ => hmet rfl

theorem same_channels? {p : Parameter} : Same keep (channels? p) (channels? p) :=
  same_of_leads (v := .blank []) rfl fun _ _ => Site.leads_channels?

theorem same_scale {name : String} : Same keep (scale name) (scale name) :=
  same_of_leads (v := .blank []) rfl fun _ _ => Site.leads_scale

theorem same_textureClass {name : String} : Same keep (textureClass name) (textureClass name) :=
  same_of_leads (v := .blank []) rfl fun _ _ => Site.leads_textureClass

theorem same_image {ctx : Context} {source : Path} {class_ : TextureClass} {name : String} :
    Same keep (image ctx source class_ name) (image ctx source class_ name) :=
  same_of_leads (v := { Site.blank [""] with ctx, source }) rfl fun _ h =>
    Site.leads_image (h List.mem_cons_self)

theorem same_blended : Same keep blended blended :=
  same_of_leads (v := .blank [""]) rfl fun _ h => Site.leads_blended (h List.mem_cons_self)

end Survey

/-- States with one current transform, and with textures that make no difference that counts. -/
structure State.Resembles {α : Type} (keep : Problem → Bool) (s t : State α) : Prop where
  transform : s.graphics.transform = t.graphics.transform
  textures : ∀ name, s.hasTexture name = t.hasTexture name ∨ keep (.textureUndeclared name) = false

namespace Survey

section

variable {α : Type} {s t : State α} (h : s.Resembles keep t)

include h

/-! ## Colors and numbers -/

theorem same_checkTexture {name : String} : Same keep (checkTexture s name) (checkTexture t name) := by
  unfold checkTexture
  rcases h.textures name with hname | hname
  · rw [hname]
    exact agrees_if same_pure same_report
  · have hreport {f g : Findings} (hfg : f.Agree keep g) :
        Findings.Agree keep { f with items := f.items.push (.problem (.textureUndeclared name)) } g := by
      refine ⟨hfg.parameters, ?_, ?_⟩
      · rw [Findings.problems_push, hfg.problems]
        simp [Finding.problem?, hname]
      · rw [Findings.sampled_push, hfg.sampled]
        rfl
    have hreport' {f g : Findings} (hfg : f.Agree keep g) :
        Findings.Agree keep f { g with items := g.items.push (.problem (.textureUndeclared name)) } := by
      have hgf := hreport (f := g) (g := f) hfg.symm
      exact hgf.symm
    refine ⟨fun f g hfg => ?_⟩
    cases s.hasTexture name <;> cases t.hasTexture name
    · exact same_report.agree f g hfg
    · exact ⟨.ok rfl, hreport hfg⟩
    · exact ⟨.ok rfl, hreport' hfg⟩
    · exact ⟨.ok rfl, hfg⟩

theorem same_textureColor {name : String} : Same keep (textureColor s name) (textureColor t name) :=
  agrees_same (same_checkTexture h) fun _ => same_pure

theorem agrees_readColor {use : ColorUse} {p : Parameter} :
    Agrees keep (Outcomes fun _ _ => True) (readColor s use p) (readColor t use p) := by
  have invalid {e : Problem} : Agrees keep (Outcomes fun _ _ => True) (pure (.error e : Except Problem Color))
      (pure (.error e)) := agrees_pure (.error e)
  have valid {c c' : Color} : Agrees keep (Outcomes fun _ _ => True) (pure (.ok c : Except Problem Color))
      (pure (.ok c')) := agrees_pure (.ok trivial)
  unfold readColor
  dsimp only
  generalize ColorForm.ofTag (p.tag.getD "") = form
  refine agrees_when same_remark fun _ => ?_
  cases form with
  | texture =>
    cases p.value.word? with
    | some name => exact agrees_same (same_textureColor h) fun _ => valid
    | none => exact invalid
  | channels =>
    cases p.value.word? with
    | some name => exact agrees_when same_remark fun _ => agrees_same (same_textureColor h) fun _ => valid
    | none =>
      refine agrees_same same_channels? fun c => ?_
      cases c with
      | some c => exact valid
      | none => exact invalid
  | xyz =>
    refine agrees_same same_channels? fun c => ?_
    cases c with
    | some c => exact valid
    | none => exact invalid
  | blackbody =>
    rcases p.value.floats? with _ | _ | ⟨kelvin, _⟩
    · exact invalid
    · exact invalid
    · exact valid
  | sampled =>
    cases p.value.word? with
    | some name => exact invalid
    | none =>
      cases p.value.floats? with
      | some values => exact agrees_if (agrees_akin akin_spectrum fun _ _ => valid) invalid
      | none => exact invalid
  | unsuitable => exact invalid

theorem akin_color {use : ColorUse} : Akin keep (color s use) (color t use) := by
  refine agrees_same same_parameters fun p => ?_
  cases p with
  | none => exact akin_pure
  | some p =>
    refine agrees_bind (agrees_readColor h) fun c c' hc => ?_
    cases hc with
    | ok _ => exact akin_pure
    | error problem => exact agrees_same same_report fun _ => akin_pure

theorem akin_reflectance {name : String} {default : Channels} :
    Akin keep (reflectance s name default) (reflectance t name default) := akin_color h

theorem akin_illuminant {name : String} : Akin keep (illuminant s name) (illuminant t name) :=
  agrees_same same_scale fun _ => akin_color h

theorem akin_amount {name : String} {default : Float32} :
    Akin keep (amount s name default) (amount t name default) := by
  refine agrees_same same_parameters fun p => ?_
  cases p with
  | none => exact akin_pure
  | some p =>
    dsimp only
    cases p.value.word? with
    | some texture => exact agrees_same (same_checkTexture h) fun _ => akin_pure
    | none =>
      rcases p.value.floats? with _ | _ | ⟨v, _ | ⟨w, values⟩⟩
      · exact agrees_same same_report fun _ => akin_pure
      · exact agrees_same same_report fun _ => akin_pure
      · exact akin_pure
      · exact agrees_same same_remark fun _ => akin_pure

/-! ## Textures -/

theorem akin_input {class_ : TextureClass} {name : String} {default : Int} :
    Akin keep (input s class_ name default) (input t class_ name default) := by
  cases class_ with
  | number => exact agrees_akin (akin_amount h) fun _ _ => akin_pure
  | color => exact agrees_akin (akin_reflectance h) fun _ _ => akin_pure

theorem akin_constantNode {class_ : TextureClass} :
    Akin keep (constantNode s class_) (constantNode t class_) :=
  agrees_akin (akin_input h) fun _ _ => akin_pure

theorem akin_productNode {class_ : TextureClass} :
    Akin keep (productNode s class_) (productNode t class_) := by
  refine agrees_same same_has fun tex => agrees_same same_has fun scale => ?_
  exact agrees_akin (akin_input h) fun _ _ => agrees_akin (akin_input h) fun _ _ => akin_pure

theorem akin_blendNode {class_ : TextureClass} :
    Akin keep (blendNode s class_) (blendNode t class_) := by
  refine agrees_akin (akin_input h) fun _ _ => agrees_akin (akin_input h) fun _ _ => ?_
  exact agrees_akin (akin_amount h) fun _ _ => akin_pure

theorem akin_checkerboardNode {class_ : TextureClass} :
    Akin keep (checkerboardNode s class_) (checkerboardNode t class_) := by
  refine agrees_same same_integer fun dimension => agrees_if agrees_refuse ?_
  refine agrees_akin (akin_input h) fun _ _ => agrees_akin (akin_input h) fun _ _ => ?_
  refine agrees_same same_has fun u => agrees_same same_has fun v => agrees_if ?_ akin_pure
  exact agrees_akin (akin_amount h) fun _ _ => agrees_akin (akin_amount h) fun _ _ => akin_pure

theorem agrees_texture (ctx : Context) {source : Path} {name : String} :
    Agrees keep (fun fs fs' => fs = [] ↔ fs' = []) (texture ctx s source name)
      (texture ctx t source name) := by
  have one {x y : Fragment α} : [x] = [] ↔ [y] = [] := by simp
  refine agrees_same same_textureClass fun (class_, kind) => ?_
  dsimp only
  split
  · exact agrees_akin (akin_constantNode h) fun _ _ => agrees_pure one
  · exact agrees_akin (akin_productNode h) fun _ _ => agrees_pure one
  · exact agrees_akin (akin_blendNode h) fun _ _ => agrees_pure one
  · exact agrees_same same_image fun _ => agrees_pure .rfl
  · exact agrees_akin (akin_checkerboardNode h) fun _ _ => agrees_pure one
  · exact agrees_refuse

/-! ## Materials -/

theorem akin_diffuse : Akin keep (diffuse s) (diffuse t) :=
  agrees_same same_has fun _ => agrees_akin (akin_reflectance h) fun _ _ => akin_pure

theorem akin_glass : Akin keep (glass s) (glass t) := by
  refine agrees_akin (akin_reflectance h) fun _ _ => agrees_same same_has fun index => ?_
  refine agrees_akin (akin_amount h) fun _ _ => agrees_same same_has fun transmission => ?_
  exact agrees_if (agrees_akin (akin_reflectance h) fun _ _ => akin_pure) akin_pure

theorem akin_conductor : Akin keep (conductor s) (conductor t) := by
  refine agrees_akin (akin_reflectance h) fun _ _ => agrees_akin (akin_reflectance h) fun _ _ => ?_
  refine agrees_same same_has fun u => agrees_same same_has fun v => agrees_if ?_ ?_
  · exact agrees_akin (akin_amount h) fun _ _ => agrees_akin (akin_amount h) fun _ _ => akin_pure
  · exact agrees_akin (akin_amount h) fun _ _ => akin_pure

theorem akin_mirror : Akin keep (mirror s) (mirror t) :=
  agrees_akin (akin_reflectance h) fun _ _ => akin_pure

theorem akin_principled {name : String} : Akin keep (principled s name) (principled t name) := by
  have amount {β : Type} {name : String} {default : Float32} {k k' : Amount → Survey β}
      (hk : ∀ a b, Akin keep (k a) (k' b)) :
      Akin keep (amount s name default >>= k) (amount t name default >>= k') :=
    agrees_akin (akin_amount h) hk
  refine agrees_akin (akin_reflectance h) fun _ _ => agrees_same same_parameters fun eta => ?_
  refine agrees_when same_report fun _ => agrees_same same_number fun eta => ?_
  refine amount fun _ _ => amount fun _ _ => amount fun _ _ => amount fun _ _ => amount fun _ _ => ?_
  exact amount fun _ _ => amount fun _ _ => amount fun _ _ => akin_pure

variable (hmaterial : ∀ name, s.hasMaterial name = t.hasMaterial name)

include hmaterial

omit h in
theorem same_checkMaterial {part name : String} :
    Same keep (checkMaterial s part name) (checkMaterial t part name) := by
  unfold checkMaterial
  rw [hmaterial]
  exact agrees_if same_pure agrees_refuse

theorem akin_blend {name : String} : Akin keep (blend s name) (blend t name) := by
  refine agrees_same same_blended fun parts => ?_
  split
  · refine agrees_if agrees_refuse (agrees_same (same_checkMaterial hmaterial) fun _ => ?_)
    refine agrees_same (same_checkMaterial hmaterial) fun _ => ?_
    exact agrees_akin (akin_amount h) fun _ _ => akin_pure
  · exact agrees_refuse

theorem akin_material {name kind : String} :
    Akin keep (material s name kind) (material t name kind) := by
  unfold material
  split
  · exact akin_diffuse h
  · exact akin_diffuse h
  · exact akin_glass h
  · exact akin_glass h
  · exact akin_conductor h
  · exact akin_conductor h
  · exact akin_mirror h
  · exact akin_principled h
  · exact akin_blend h hmaterial
  · exact agrees_refuse

end

end Survey

end SceneConvert
