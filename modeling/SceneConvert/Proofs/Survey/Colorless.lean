import SceneConvert.Proofs.Survey.Learns

/-!
# SceneConvert.Proofs.Survey.Colorless

When a survey comes upon spectra. A spectrum is written where it is met, whatever becomes of the
directive, so that a directive which can still be refused must not have read a color.

* `Leads.respects`: nothing is refused behind a spectrum, and a phase that is plain met none.
* `Survey.Sure`: there is always a result, as from a colored phase.
* `State.colorless_of_flawed`: a directive with a problem has met no spectrum.
-/

namespace SceneConvert

def Findings.Colorless (f : Findings) : Prop := ∀ p, .spectrum p ∉ f.items

theorem Findings.colorless_start (ps : Parameters) (next : Nat) : (start ps next).Colorless :=
  fun _ h => by cases h.val

theorem Findings.Colorless.push {f : Findings} (h : f.Colorless) {x : Finding} (hx : ∀ p, x ≠ .spectrum p) :
    Colorless { f with items := f.items.push x } := by
  intro p hp
  rcases Array.mem_push.1 hp with hp | hp
  · exact h p hp
  · exact hx p hp.symm

namespace Survey

variable {α β γ : Type}

/-- No spectrum was met before a refusal, nor where the result is in a plain phase. Either comes only from a
plain phase. -/
def Phase.Respected (i : Phase) (o : β → Phase) : Except Refusal β × Findings → Prop
  | (.error _, g) => i = .plain ∧ g.Colorless
  | (.ok r, g) => o r = .plain → i = .plain ∧ g.Colorless

end Survey

open Survey

theorem Site.Leads.respects {α β : Type} {v : Site α} {i : Phase} {a : Fact} {m : Survey β}
    {o : β → Phase} {b : β → Fact} (h : v.Leads i a m o b) {f : Findings} (hf : v.Tells f a)
    (hplain : i = .plain → f.Colorless) : i.Respected o (m.outcome f) := by
  induction h generalizing f with
  | pure phase => exact fun h => ⟨phase h, hplain (phase h)⟩
  | throw => exact ⟨rfl, hplain rfl⟩
  | remark => exact fun h => ⟨h, (hplain h).push nofun⟩
  | report => exact fun h => ⟨h, (hplain h).push nofun⟩
  | journal | unused | look => exact fun h => ⟨h, hplain h⟩
  | spectrum => exact nofun
  | find lookup mem _ _ ih =>
    obtain ⟨hmem, hlooked⟩ := hf.find lookup mem
    have hrest := ih _ hmem hlooked hplain
    exact hrest
  | @bind _ _ _ _ m k _ _ _ _ first _ ihm ihk =>
    have hm := ihm hf hplain
    rw [outcome_bind]
    rcases hr : m.outcome f with ⟨e | r, g⟩ <;> rw [hr] at hm
    · exact hm
    · have hk := ihk r (first.learns.tells hf hr).2 fun ho => (hm ho).2
      dsimp only
      rcases hr' : (k r).outcome g with ⟨e | r', g'⟩ <;> rw [hr'] at hk
      · exact ⟨(hm hk.1).1, hk.2⟩
      · exact fun h => ⟨(hm (hk h).1).1, (hk h).2⟩
  | @attempt _ _ _ m _ _ _ ih =>
    have hm := ih hf hplain
    rw [outcome_attempt]
    generalize m.outcome f = outcome at hm ⊢
    obtain ⟨(p | _) | r, g⟩ := outcome
    · exact fun _ => hm
    · exact hm
    · exact hm
  | knowing _ ih => exact ih hf.holds.2 ⟨hf.words, hf.holds.1⟩ hplain
  | @weaken _ _ _ _ m _ _ _ _ _ before phase _ ih =>
    have hm := ih ⟨hf.words, before f hf.holds⟩ hplain
    generalize m.outcome f = outcome at hm ⊢
    obtain ⟨e | r, g⟩ := outcome
    · exact hm
    · exact fun h => hm (phase r h)

/-- A site at a state, where the files do not matter. -/
def Site.bare {α : Type} (s : State α) (words : List String) : Site α :=
  ⟨.of {} ⟨[], []⟩ ⟨""⟩, s, ⟨""⟩, words, false⟩

/-- A site of which only the words matter. -/
def Site.blank (words : List String) : Site Float32 := .bare (.initial ⟨""⟩ 0) words

namespace Survey

variable {α β γ : Type}

/-- The survey has a result. -/
structure Sure (m : Survey β) : Prop where
  ends : ∀ f, ∃ b g, m.outcome f = (.ok b, g)

/-- From a colored phase there is always a result. -/
theorem sure_of_leads (v : Site α) {m : Survey β} {o : β → Phase} {b : List String → β → Fact}
    (h : ∀ words, v.words ⊆ words → Site.Leads { v with words } .colored .nothing m o (b words)) :
    Sure m := by
  refine ⟨fun f => ?_⟩
  have hleads := h (v.words ++ f.parameters.words) (List.subset_append_left _ _)
  have hm := hleads.respects ⟨List.subset_append_right _ _, trivial⟩ (f := f) nofun
  rcases hr : m.outcome f with ⟨e | r, g⟩ <;> rw [hr] at hm
  · cases hm.1
  · exact ⟨r, g, rfl⟩

theorem sure_pure (b : β) : Sure (pure b : Survey β) := ⟨fun f => ⟨b, f, rfl⟩⟩

theorem sure_remark (r : Remark) : Sure (remark r) := ⟨fun _ => ⟨(), _, rfl⟩⟩

theorem sure_parameters (f : Parameters → β × Parameters) : Sure (parameters f) := ⟨fun _ => ⟨_, _, rfl⟩⟩

theorem sure_bind {m : Survey β} {k : β → Survey γ} (hm : Sure m) (hk : ∀ b, Sure (k b)) :
    Sure (m >>= k) := by
  refine ⟨fun f => ?_⟩
  obtain ⟨b, g, hb⟩ := hm.ends f
  rw [outcome_bind_ok hb]
  exact (hk b).ends g

theorem sure_if {c : Prop} {_ : Decidable c} {m n : Survey β} (hm : Sure m) (hn : Sure n) :
    Sure (if c then m else n) := by
  split
  · exact hm
  · exact hn

theorem sure_when {c : Prop} {_ : Decidable c} {m : Survey Unit} {k : Unit → Survey γ} (hm : Sure m)
    (hk : ∀ u, Sure (k u)) : Sure (if c then m >>= k else k ()) := sure_if (sure_bind hm hk) (hk ())

end Survey

namespace State

variable {α : Type} [Scalar α] (ctx : Context) (source : Path) (s : State α) (st : Statement)

theorem respects_survey : Phase.plain.Respected Verdict.phase (s.survey ctx source st) :=
  (s.leads_survey ctx source st).respects (s.tells_start ctx source st)
    fun _ => Findings.colorless_start _ _

/-- A directive that is refused or has a problem has met no spectrum. -/
theorem colorless_of_flawed
    (h : ∀ v, (s.survey ctx source st).1 = .ok v → v.problem.isSome = true) :
    (s.survey ctx source st).2.Colorless := by
  have hrespects := s.respects_survey ctx source st
  rcases hr : s.survey ctx source st with ⟨e | v, g⟩ <;> rw [hr] at hrespects h
  · exact hrespects.2
  · exact (hrespects (if_pos (h v rfl))).2

end State

end SceneConvert
