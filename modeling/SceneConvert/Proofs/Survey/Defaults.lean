import SceneConvert.Proofs.Run.Reports
import SceneConvert.Proofs.Survey.Colorless
import SceneConvert.Proofs.Survey.MeshInputs

/-!
# SceneConvert.Proofs.Survey.Defaults

When a default takes the place of a color or a number that is given.

* `State.carry`: a survey at a state, with all that it does there.
* `Survey.yields_readColor`: what is found on the way to a color.
* `State.Heeds`: a family of surveys, one for each default, heeds what is given: they all do the same, or
  each comes to its default and the same problem is reported.
* `State.defaults_reported`: colors and numbers do, and write at most the spectrum that they come to.
-/

namespace SceneConvert

def Finding.sampled? : Finding → Option SampledSpectrum
  | spectrum p => some p
  | remark _ | problem _ => none

/-- The findings behind the look-up of a parameter. -/
def Findings.looked (f : Findings) (name : String) : Findings :=
  { f with parameters := (f.parameters.get name).2 }

def SampledSpectrum.entry {α : Type} (p : SampledSpectrum) : Entry α :=
  .fragment (.spectrum p.name p.wavelengths p.values)

namespace Survey

variable {β γ : Type} {values : String → Option Value} {P : β → List Finding → Prop}
  {Q : γ → List Finding → Prop}

theorem yields_spectrum {wavelengths values' : List Float32} {k : String → Survey γ}
    (hk : ∀ name, Yields values (k name) fun c more =>
      Q c (.spectrum ⟨name, wavelengths, values'⟩ :: more)) :
    Yields values (spectrum wavelengths values' >>= k) Q := by
  have found : Yields values (spectrum wavelengths values') fun name said =>
      said = [.spectrum ⟨name, wavelengths, values'⟩] := by
    refine ⟨fun f b g hf hb => ?_⟩
    cases hb
    exact ⟨hf, _, Array.toList_push, rfl⟩
  exact yields_bind found fun _ _ h => h ▸ hk _

/-- Only remarks are made. -/
def Quiet (said : List Finding) : Prop :=
  said.filterMap Finding.problem? = [] ∧ said.filterMap Finding.sampled? = []

/-- What is found on the way to a color: at most the spectrum that is the color, and nothing worth a
report if there is no color. -/
def ColorFound : Except Problem Color → List Finding → Prop
  | .error _, said => Quiet said
  | .ok c, said => said.filterMap Finding.sampled? = [] ∨
      ∃ p, said.filterMap Finding.sampled? = [p] ∧ c = .spectrum p.name

theorem Quiet.append {said more : List Finding} (h : Quiet said) {r : Except Problem Color}
    (hmore : ColorFound r more) : ColorFound r (said ++ more) := by
  cases r with
  | error q =>
    exact ⟨by rw [List.filterMap_append, h.1, hmore.1]; rfl,
      by rw [List.filterMap_append, h.2, hmore.2]; rfl⟩
  | ok c =>
    dsimp only [ColorFound]
    rwa [List.filterMap_append, h.2, List.nil_append]

theorem yields_quietly {m : Survey β} {k : β → Survey (Except Problem Color)}
    (hm : Yields values m fun _ said => Quiet said) (hk : ∀ b, Yields values (k b) ColorFound) :
    Yields values (m >>= k) ColorFound :=
  yields_bind hm fun b _ hsaid => (hk b).mono fun _ _ => hsaid.append

theorem yields_remarking {c : Prop} {_ : Decidable c} {r : Remark}
    {k : Unit → Survey (Except Problem Color)} (hk : Yields values (k ()) ColorFound) :
    Yields values (if c then remark r >>= k else k ()) ColorFound := by
  have quiet : Quiet [.remark r] := ⟨rfl, rfl⟩
  split
  · exact yields_say (hk.mono fun _ _ => quiet.append)
  · exact hk

theorem yields_channels? {p : Parameter} : Yields values (channels? p) fun _ said => Quiet said := by
  have quiet (c : Option Channels) : Yields values (pure c) fun _ said => Quiet said :=
    yields_pure ⟨rfl, rfl⟩
  unfold channels?
  split
  · unfold firstColor?
    split
    · exact quiet _
    · exact quiet _
    · exact yields_say (yields_pure ⟨rfl, rfl⟩)
    · exact quiet _
  · exact quiet _

theorem yields_readColor {α : Type} {s : State α} {use : ColorUse} {p : Parameter} :
    Yields values (readColor s use p) ColorFound := by
  have invalid (q : Problem) : Yields values (pure (.error q)) ColorFound := yields_pure ⟨rfl, rfl⟩
  have found (c : Color) : Yields values (pure (.ok c)) ColorFound := yields_pure (Or.inl rfl)
  have texture (name : String) :
      Yields values (do return .ok (← textureColor s name)) ColorFound := by
    have checked : Yields values (textureColor s name) fun _ said =>
        said.filterMap Finding.sampled? = [] := by
      unfold textureColor checkTexture
      split
      · exact yields_pure rfl
      · exact yields_say (yields_pure rfl)
    exact yields_bind checked fun c said h => yields_pure (.inl (by simpa using h))
  have given {k : Option Channels → Survey (Except Problem Color)}
      (hsome : ∀ c, Yields values (k (some c)) ColorFound) (hnone : Yields values (k none) ColorFound) :
      Yields values (channels? p >>= k) ColorFound := by
    refine yields_quietly yields_channels? fun c => ?_
    cases c with
    | none => exact hnone
    | some c => exact hsome c
  unfold readColor
  refine yields_remarking ?_
  dsimp only
  split
  · split
    · exact texture _
    · exact invalid _
  · split
    · exact yields_remarking (texture _)
    · exact given (fun c => found _) (invalid _)
  · exact given (fun c => found _) (invalid _)
  · split
    · exact found _
    · exact invalid _
  · split
    · exact invalid _
    · split
      · exact yields_spectrum fun _ => yields_pure (.inr ⟨_, rfl, rfl⟩)
      · exact invalid _
    · exact invalid _
  · exact invalid _

/-! ## Defaults -/

section

variable {α : Type} {s : State α} {p : Parameter} {f : Findings}

/-- What a reading comes to, or a default, the problem with the reading being reported. -/
def orDefault (read : Survey (Except Problem β)) (default : β) : Survey β := do
  match ← read with
  | .ok b => pure b
  | .error q =>
    report q
    pure default

/-- The number that a parameter gives, or why it gives none. -/
def readAmount (s : State α) (name : String) (p : Parameter) : Survey (Except Problem Amount) :=
  match p.value.word?, p.value.floats? with
  | some texture, _ => do
    checkTexture s texture
    return .ok (.texture texture)
  | none, some [v] => return .ok (.number v)
  | none, some (v :: values) => do
    remark (.valuesAveraged (values.length + 1) name)
    return .ok (.number (average (v :: values)))
  | none, _ => return .error (.numberUnusable name)

theorem outcome_parameter? (name : String) (f : Findings) :
    (parameter? name).outcome f = (.ok (f.parameters.find? name), f.looked name) := rfl

theorem outcome_color_of_given {use : ColorUse} (h : f.parameters.find? use.parameter = some p) :
    (color s use).outcome f =
      ((readColor s use p).orDefault use.fallback).outcome (f.looked use.parameter) := by
  unfold color orDefault
  rw [outcome_bind_ok (outcome_parameter? _ _), h]
  dsimp only
  rw [outcome_bind, outcome_bind]
  rcases (readColor s use p).outcome _ with ⟨r | q | c, g⟩ <;> rfl

theorem outcome_amount_of_given {name : String} {default : Float32}
    (h : f.parameters.find? name = some p) :
    (amount s name default).outcome f =
      ((readAmount s name p).orDefault (.number default)).outcome (f.looked name) := by
  unfold amount readAmount
  rw [outcome_bind_ok (outcome_parameter? _ _), h]
  dsimp only
  rcases p.value.word? with - | texture
  · rcases p.value.floats? with - | - | ⟨v, - | ⟨w, vs⟩⟩ <;> rfl
  · unfold checkTexture
    dsimp only
    cases s.hasTexture texture <;> rfl

theorem sure_color (use : ColorUse) : Sure (color s use) :=
  sure_of_leads (.bare s []) fun _ _ => Site.leads_color

theorem sure_readColor (use : ColorUse) : Sure (readColor s use p) :=
  sure_of_leads (.bare s p.value.words) fun _ h => Site.leads_readColor h

theorem sure_amount (name : String) (default : Float32) : Sure (amount s name default) :=
  sure_of_leads (.bare s []) fun _ _ => Site.leads_amount

theorem sure_readAmount (name : String) : Sure (readAmount s name p) := by
  unfold readAmount checkTexture
  split
  · exact sure_bind (sure_if (sure_pure _) ⟨fun _ => ⟨_, _, rfl⟩⟩) fun _ => sure_pure _
  · exact sure_pure _
  · exact sure_bind (sure_remark _) fun _ => sure_pure _
  · exact sure_pure _

theorem yields_readAmount (name : String) :
    Yields values (readAmount s name p) fun r said =>
      said.filterMap Finding.sampled? = [] ∧ ∀ q, r = .error q → Quiet said := by
  unfold readAmount checkTexture
  split
  · split
    · exact yields_pure ⟨rfl, nofun⟩
    · exact yields_say (yields_pure ⟨rfl, nofun⟩)
  · exact yields_pure ⟨rfl, nofun⟩
  · exact yields_say (yields_pure ⟨rfl, nofun⟩)
  · exact yields_pure ⟨rfl, fun _ _ => ⟨rfl, rfl⟩⟩

/-- The only spectrum that a color writes is the color itself. -/
theorem yields_color {use : ColorUse} :
    Yields values (color s use) fun c said => ColorFound (.ok c) said := by
  refine yields_parameter? fun o => ?_
  cases o with
  | none => exact yields_pure (.inl rfl)
  | some p =>
    refine yields_bind yields_readColor fun r said hsaid => ?_
    cases r with
    | ok c => exact yields_pure (by rwa [List.append_nil])
    | error q =>
      refine yields_say (yields_pure (.inl ?_))
      rw [List.filterMap_append, hsaid.2]
      rfl

theorem yields_amount {name : String} {default : Float32} :
    Yields values (amount s name default) fun _ said => said.filterMap Finding.sampled? = [] := by
  refine yields_parameter? fun o => ?_
  cases o with
  | none => exact yields_pure rfl
  | some p =>
    dsimp only
    unfold checkTexture
    split
    · split
      · exact yields_pure rfl
      · exact yields_say (yields_pure rfl)
    · exact yields_pure rfl
    · exact yields_say (yields_pure rfl)
    · exact yields_say (yields_pure rfl)

end

end Survey

/-! ## Surveys at a state -/

/-- What a survey comes to at a state: its result, the parameters with those marked that were looked up,
and the state in which everything that was found is taken down. -/
structure Carried (α β : Type) where
  result : Except Refusal β
  parameters : Parameters
  state : State α

namespace State

variable {α β δ : Type}

def carry (s : State α) (ps : Parameters) (m : Survey β) : Carried α β :=
  let (result, g) := m.of ps s.counters.spectrum
  ⟨result, g.parameters, g.items.toList.foldl record s⟩

/-- A family of surveys, one for each default, heeds what the parameters give. If one of them reports
nothing, all of them do the same. In any case, they all do the same, or each comes to its own default, and
one problem is reported. -/
structure Heeds (s : State α) (ps : Parameters) (m : δ → Survey β) (fallback : δ → β) : Prop where
  silent : ∀ d d', (s.carry ps (m d)).state.diagnostics = s.diagnostics →
    s.carry ps (m d') = s.carry ps (m d)
  reported : (∀ d d', s.carry ps (m d') = s.carry ps (m d)) ∨
    ∃ qs t p, (∀ d, s.carry ps (m d) = ⟨.ok (fallback d), qs, t⟩) ∧
      t.diagnostics = s.diagnostics ++ s.reports [p]

section

variable {s : State α} {ps : Parameters} {m : δ → Survey β} {fallback : δ → β}

theorem Heeds.of_same {r : Carried α β} (h : ∀ d, s.carry ps (m d) = r) : s.Heeds ps m fallback where
  silent d d' _ := (h d').trans (h d).symm
  reported := .inl fun d d' => (h d').trans (h d).symm

theorem Heeds.of_report {qs : Parameters} {t : State α} {p : Problem}
    (h : ∀ d, s.carry ps (m d) = ⟨.ok (fallback d), qs, t⟩)
    (ht : t.diagnostics = s.diagnostics ++ s.reports [p]) : s.Heeds ps m fallback where
  silent d d' hsilent := by
    rw [h d, ht] at hsilent
    have hnone : s.reports [p] = [] := by simpa using hsilent
    cases hnone
  reported := .inr ⟨qs, t, p, h, ht⟩

end

theorem page_recordAll (items : List Finding) (s : State α) :
    (items.foldl record s).page.toList =
      s.page.toList ++ (items.filterMap Finding.sampled?).map SampledSpectrum.entry := by
  induction items generalizing s with
  | nil => exact (List.append_nil _).symm
  | cons x items ih =>
    rw [List.foldl_cons, ih]
    cases x with
    | remark r => rfl
    | problem p => rfl
    | spectrum p =>
      have hpage : (s.record (.spectrum p)).page.toList = s.page.toList ++ [p.entry] := Array.toList_push
      rw [hpage, List.append_assoc]
      rfl

theorem carry_eq {s : State α} {ps : Parameters} {m : Survey β} {r : Except Refusal β} {g : Findings}
    (h : m.outcome (.start ps s.counters.spectrum) = (r, g)) :
    s.carry ps m = ⟨r, g.parameters, g.items.toList.foldl record s⟩ := by
  unfold carry Survey.of
  rw [show m.run.run (.start ps s.counters.spectrum) = (r, g) from h]

theorem heeds_orDefault {s : State α} {ps : Parameters} {m : δ → Survey β} {fallback : δ → β}
    {read : Survey (Except Problem β)} {f : Findings} (hf : f.items = #[])
    (hm : ∀ d, (m d).outcome (.start ps s.counters.spectrum) = (read.orDefault (fallback d)).outcome f)
    (hsure : read.Sure)
    (hquiet : read.Yields f.parameters.value? fun r said => ∀ q, r = .error q → Survey.Quiet said) :
    s.Heeds ps m fallback := by
  obtain ⟨r, g, hread⟩ := hsure.ends f
  cases r with
  | ok b => exact .of_same fun d => carry_eq ((hm d).trans (Survey.outcome_bind_ok hread))
  | error q =>
    obtain ⟨-, said, hsaid, hnone⟩ := hquiet.yields f _ g rfl hread
    have hitems : g.items.toList = said := by simpa [hf] using hsaid
    refine .of_report (p := q) (fun d => carry_eq ((hm d).trans (Survey.outcome_bind_ok hread))) ?_
    rw [diagnostics_recordAll, Array.toList_push, hitems, List.filterMap_append, (hnone q rfl).1]
    rfl

/-- The entries that a survey writes are the spectra that it finds. -/
theorem page_carry {s : State α} {ps : Parameters} {m : Survey β} {P : β → List Finding → Prop}
    (hsure : m.Sure) (hyields : m.Yields ps.value? P) :
    ∃ b said, (s.carry ps m).result = .ok b ∧ P b said ∧ (s.carry ps m).state.page.toList =
      s.page.toList ++ (said.filterMap Finding.sampled?).map SampledSpectrum.entry := by
  obtain ⟨b, g, hg⟩ := hsure.ends (.start ps s.counters.spectrum)
  obtain ⟨-, said, hsaid, hb⟩ := hyields.yields _ b g rfl hg
  have hitems : g.items.toList = said := hsaid
  rw [carry_eq hg, page_recordAll, hitems]
  exact ⟨b, said, rfl, hb, rfl⟩

/-- There is a color, and at most one entry is written, for a spectrum that is then the color. -/
def WritesOnlyColor (s : State α) (r : Carried α Color) : Prop :=
  ∃ c, r.result = .ok c ∧ (r.state.page = s.page ∨
    ∃ p : SampledSpectrum, c = .spectrum p.name ∧ r.state.page = s.page.push p.entry)

theorem writesOnlyColor_color (s : State α) (ps : Parameters) (use : ColorUse) :
    s.WritesOnlyColor (s.carry ps (Survey.color s use)) := by
  obtain ⟨c, said, hc, hfound, hpage⟩ := page_carry (s := s) (Survey.sure_color use) Survey.yields_color
  refine ⟨c, hc, ?_⟩
  rcases hfound with hnone | ⟨p, hp, rfl⟩
  · left
    rw [hnone] at hpage
    exact Array.toList_inj.1 (hpage.trans (List.append_nil _))
  · refine .inr ⟨p, rfl, Array.toList_inj.1 (hpage.trans ?_)⟩
    rw [hp, Array.toList_push]
    rfl

theorem page_amount (s : State α) (ps : Parameters) (name : String) (default : Float32) :
    ∃ a, (s.carry ps (Survey.amount s name default)).result = .ok a ∧
      (s.carry ps (Survey.amount s name default)).state.page = s.page := by
  obtain ⟨a, said, ha, hnone, hpage⟩ :=
    page_carry (s := s) (Survey.sure_amount name default) Survey.yields_amount
  rw [hnone] at hpage
  exact ⟨a, ha, Array.toList_inj.1 (hpage.trans (List.append_nil _))⟩

/-- A color or a number that is given is read, or a problem is reported: nothing else makes its default
matter. Whatever is given, there is a result, and the only entry that is ever written is that of a
spectrum, which is then the color. -/
theorem defaults_reported (s : State α) (ps : Parameters) (name : String) :
    (ps.contains name = true →
      (∀ kind scale, s.Heeds ps (fun d => Survey.color s ⟨name, kind, d, scale⟩)
        fun d => .channels kind (d * scale)) ∧
      s.Heeds ps (Survey.amount s name) .number) ∧
    (∀ kind scale d, s.WritesOnlyColor (s.carry ps (Survey.color s ⟨name, kind, d, scale⟩))) ∧
    ∀ d, ∃ a, (s.carry ps (Survey.amount s name d)).result = .ok a ∧
      (s.carry ps (Survey.amount s name d)).state.page = s.page := by
  refine ⟨fun hgiven => ?_, fun kind scale d => writesOnlyColor_color s ps _, page_amount s ps name⟩
  obtain ⟨p, hp⟩ : ∃ p, ps.find? name = some p := by
    rw [ps.contains_eq_isSome_value?, Parameters.value?, Option.isSome_map] at hgiven
    exact Option.isSome_iff_exists.1 hgiven
  let f : Findings := .start ps s.counters.spectrum
  constructor
  · intro kind scale
    -- the default is not looked at on the way to a color
    let read := Survey.readColor s ⟨name, kind, .unit, scale⟩ p
    have hread (d : Channels) : (Survey.color s ⟨name, kind, d, scale⟩).outcome f =
        (read.orDefault (.channels kind (d * scale))).outcome (f.looked name) :=
      Survey.outcome_color_of_given hp
    refine heeds_orDefault rfl hread (Survey.sure_readColor _) (Survey.yields_readColor.mono ?_)
    intro r said hsaid q hr
    rwa [hr] at hsaid
  · have hread (d : Float32) : (Survey.amount s name d).outcome f =
        ((Survey.readAmount s name p).orDefault (.number d)).outcome (f.looked name) :=
      Survey.outcome_amount_of_given hp
    exact heeds_orDefault rfl hread (Survey.sure_readAmount name)
      ((Survey.yields_readAmount name).mono fun r said h => h.2)

/-- Two numbers are no color: the default takes their place, and that is reported. -/
theorem defaults_reported_pair :
    let s : State Float32 := .initial ⟨"/main.pbrt"⟩ 1
    let ps : Parameters := ⟨[⟨"Kd", some "rgb", .list [.integer 1, .integer 2], false⟩]⟩
    ps.contains "Kd" = true ∧
      ∀ kind scale, s.Heeds ps (fun d => Survey.color s ⟨"Kd", kind, d, scale⟩)
        fun d => .channels kind (d * scale) :=
  ⟨rfl, ((defaults_reported _ _ "Kd").1 rfl).1⟩

end State

end SceneConvert
