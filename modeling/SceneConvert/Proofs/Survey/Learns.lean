import SceneConvert.Proofs.Survey.LeadsDirective

/-!
# SceneConvert.Proofs.Survey.Learns

What a survey comes to that is put together by the rules.

* `Site.Learns`: more is found, the fact about the result holds, and there is a reason for a refusal.
* `Leads.learns`: by induction on the steps.
* `State.grows_survey`: whatever is found, the spectra get the next names there are.
* `State.overflows_of_survey`: a directive overflows only at a mesh file that it names.
-/

namespace SceneConvert

namespace Findings

theorem Grows.push (f : Findings) {x : Finding} (h : x.spectrum? = none) :
    f.Grows { f with items := f.items.push x } where
  words := rfl
  items y hy := Array.mem_push.2 (.inl hy)
  numbered := ⟨0, rfl, by simp [spectra, h]⟩

theorem Grows.spectrum (f : Findings) (wavelengths values : List Float32) :
    f.Grows (Survey.outcome (Survey.spectrum wavelengths values) f).2 where
  words := rfl
  items x hx := Array.mem_push.2 (.inl hx)
  numbered := ⟨1, rfl, by simp [Survey.outcome_spectrum, spectra, Finding.spectrum?]⟩

end Findings

open Survey

namespace Site

/-- From findings that tell `a`, the survey goes on to findings that tell `b` of its result, or is refused
for a reason that there is. -/
structure Learns {α β : Type} (v : Site α) (a : Fact) (m : Survey β) (b : β → Fact) : Prop where
  grows : ∀ f, v.Tells f a → f.Grows (m.outcome f).2
  gives : ∀ f r g, v.Tells f a → m.outcome f = (.ok r, g) → (b r).holds g
  refused : ∀ f r g, v.Tells f a → m.outcome f = (.error r, g) → v.Refuses r

variable {α β γ : Type} {v : Site α} {a : Fact} {b : β → Fact} {c : γ → Fact}

theorem learns_ok {m : Survey β} (h : ∀ f, v.Tells f a →
      ∃ r g, m.outcome f = (.ok r, g) ∧ f.Grows g ∧ (b r).holds g) : v.Learns a m b where
  grows f hf := by
    obtain ⟨r, g, hr, hgrows, -⟩ := h f hf
    rwa [hr]
  gives f r g hf hr := by
    obtain ⟨r', g', hr', -, hb⟩ := h f hf
    cases hr.symm.trans hr'
    exact hb
  refused f r g hf hr := by
    obtain ⟨r', g', hr', -⟩ := h f hf
    cases hr.symm.trans hr'

theorem Learns.tells {m : Survey β} (h : v.Learns a m b) {f g : Findings} {r : β} (hf : v.Tells f a)
    (hr : m.outcome f = (.ok r, g)) : f.Grows g ∧ v.Tells g (a.and (b r)) := by
  have hgrows := h.grows f hf
  rw [hr] at hgrows
  exact ⟨hgrows, hgrows.words ▸ hf.words, a.grows hgrows hf.holds, h.gives f r g hf hr⟩

theorem learns_look {look : Parameters → β × Parameters} (hwords : ∀ ps, (look ps).2.words = ps.words)
    (hlook : ∀ ps, ps.words ⊆ v.words → ∀ f, a.holds f → (b (look ps).1).holds f) :
    v.Learns a (parameters look) b := by
  refine learns_ok fun f hf => ⟨_, _, rfl, .of_same (hwords _) rfl rfl, ?_⟩
  exact (b _).grows (.of_same (hwords _) rfl rfl) (hlook _ hf.words f hf.holds)

theorem learns_bind {m : Survey β} {k : β → Survey γ} (hm : v.Learns a m b)
    (hk : ∀ r, v.Learns (a.and (b r)) (k r) c) : v.Learns a (m >>= k) c where
  grows f hf := by
    have hgrows := hm.grows f hf
    rw [outcome_bind]
    rcases hr : m.outcome f with ⟨r | r, g⟩ <;> rw [hr] at hgrows
    · exact hgrows
    · exact hgrows.trans ((hk r).grows g (hm.tells hf hr).2)
  gives f r g hf h := by
    rw [outcome_bind] at h
    rcases hr : m.outcome f with ⟨r' | r', f'⟩ <;> rw [hr] at h
    · cases h
    · exact (hk r').gives f' r g (hm.tells hf hr).2 h
  refused f r g hf h := by
    rw [outcome_bind] at h
    rcases hr : m.outcome f with ⟨r' | r', f'⟩ <;> rw [hr] at h
    · cases h
      exact hm.refused f r g hf hr
    · exact (hk r').refused f' r g (hm.tells hf hr).2 h

theorem learns_attempt {m : Survey β} (hm : v.Learns a m b) : v.Learns a m.attempt (.ofResult b) where
  grows f hf := by
    rw [findings_attempt]
    exact hm.grows f hf
  gives f r g hf h := by
    rw [outcome_attempt] at h
    rcases hr : m.outcome f with ⟨(p | _) | r', f'⟩ <;> rw [hr] at h <;> cases h
    · exact hm.refused f _ g hf hr
    · exact hm.gives f r' g hf hr
  refused f r g hf h := by
    rw [outcome_attempt] at h
    rcases hr : m.outcome f with ⟨(p | _) | r', f'⟩ <;> rw [hr] at h <;> cases h
    exact hm.refused f _ g hf hr

/-- A fact that does not depend on the findings can be used at once. -/
theorem learns_knowing {P : Prop} {m : Survey β} (h : P → v.Learns a m b) :
    v.Learns (a.and (.of P)) m b where
  grows f hf := (h hf.holds.2).grows f ⟨hf.words, hf.holds.1⟩
  gives f r g hf hr := (h hf.holds.2).gives f r g ⟨hf.words, hf.holds.1⟩ hr
  refused f r g hf hr := (h hf.holds.2).refused f r g ⟨hf.words, hf.holds.1⟩ hr

theorem Learns.weaken {m : Survey β} {a' : Fact} {b' : β → Fact} (h : v.Learns a m b)
    (before : ∀ f, a'.holds f → a.holds f)
    (behind : ∀ r f, a'.holds f → (b r).holds f → (b' r).holds f) : v.Learns a' m b' where
  grows f hf := h.grows f ⟨hf.words, before f hf.holds⟩
  gives f r g hf hr := by
    have htells : v.Tells f a := ⟨hf.words, before f hf.holds⟩
    exact behind r g (a'.grows (h.tells htells hr).1 hf.holds) (h.gives f r g htells hr)
  refused f r g hf hr := h.refused f r g ⟨hf.words, before f hf.holds⟩ hr

theorem Leads.learns {i : Phase} {m : Survey β} {o : β → Phase} (h : v.Leads i a m o b) :
    v.Learns a m b := by
  induction h with
  | pure _ fact => exact learns_ok fun f hf => ⟨_, f, rfl, .refl f, fact f hf.holds⟩
  | throw reason =>
    refine ⟨fun f _ => .refl f, fun f r g _ hr => ?_, fun f r g _ hr => ?_⟩ <;> cases hr
    exact reason
  | remark => exact learns_ok fun f _ => ⟨_, _, rfl, .push f rfl, trivial⟩
  | report _ => exact learns_ok fun f _ => ⟨_, _, rfl, .push f rfl, _, Array.mem_push_self⟩
  | journal _ => exact learns_ok fun f _ => ⟨_, f, rfl, .refl f, trivial⟩
  | unused => exact learns_ok fun f _ => ⟨_, f, rfl, .refl f, trivial⟩
  | spectrum =>
    exact learns_ok fun f _ => ⟨_, _, rfl, .spectrum f _ _, by simp [holds_knows, Known]⟩
  | look lookup fact => exact learns_look lookup.words fact
  | find lookup mem _ _ ih =>
    refine learns_bind (learns_look (b := fun p => .of (∀ q, p = some q → q.value.words ⊆ v.words))
      lookup.words fun ps hps _ _ q hq w hw => ?_) fun p => learns_knowing (ih p)
    exact hps (Parameters.mem_words (mem ps q hq) hw)
  | bind _ _ ihm ihk => exact learns_bind ihm ihk
  | attempt _ ih => exact learns_attempt ih
  | knowing _ ih => exact learns_knowing ih
  | weaken _ before _ behind ih => exact ih.weaken before behind

end Site

theorem Statement.words_parameters_subset (st : Statement) : st.parameters.words ⊆ st.words :=
  fun _ hw => List.mem_append_right ("" :: st.operand.toList.flatMap Value.words) hw

namespace State

variable {α : Type} (ctx : Context) (source : Path) (s : State α) (st : Statement)

/-- What the survey of a statement of the file `source` looks at. -/
def site : Site α := ⟨ctx, s.moveTo source st.line, source, st.words, true⟩

theorem tells_start :
    (s.site ctx source st).Tells (.start st.parameters s.counters.spectrum) .nothing :=
  ⟨st.words_parameters_subset, trivial⟩

variable [Scalar α]

theorem leads_survey :
    (s.site ctx source st).Leads .plain .nothing
      (Verdict.ofStatement ctx (s.moveTo source st.line) source st) Verdict.phase
      (s.site ctx source st).sound :=
  Site.leads_ofStatement (List.Subset.refl _) rfl

theorem grows_survey :
    (Findings.start st.parameters s.counters.spectrum).Grows (s.survey ctx source st).2 :=
  (s.leads_survey ctx source st).learns.grows _ (s.tells_start ctx source st)

theorem sound_of_survey {verdict : Verdict α} (h : (s.survey ctx source st).1 = .ok verdict) :
    ((s.site ctx source st).sound verdict).holds (s.survey ctx source st).2 :=
  (s.leads_survey ctx source st).learns.gives _ _ _ (s.tells_start ctx source st) (Prod.ext h rfl)

theorem refuses_of_survey {r : Refusal} (h : (s.survey ctx source st).1 = .error r) :
    (s.site ctx source st).Refuses r :=
  (s.leads_survey ctx source st).learns.refused _ _ _ (s.tells_start ctx source st) (Prod.ext h rfl)

/-- A directive overflows only at a mesh file that it names. -/
theorem overflows_of_survey (h : (s.survey ctx source st).1 = .error .overflow) :
    (s.site ctx source st).Overflows := s.refuses_of_survey ctx source st h

end State

end SceneConvert
