import SceneConvert.Proofs.Survey.Learns

/-!
# SceneConvert.Proofs.Survey.Blind

No survey can tell the values of its parameters from their spreads.

* `Leads.blind`: the outcome over spread parameters is the spread of the outcome.
* `State.survey_spread`: so it is for every directive.
-/

namespace SceneConvert

open Survey

def Findings.spread (f : Findings) : Findings := { f with parameters := f.parameters.spread }

theorem Site.Leads.blind {α β : Type} {v : Site α} {i : Phase} {a : Fact} {m : Survey β}
    {o : β → Phase} {b : β → Fact} (h : v.Leads i a m o b) {f : Findings} (hf : v.Tells f a) :
    m.outcome f.spread = ((m.outcome f).1, (m.outcome f).2.spread) := by
  induction h generalizing f with
  | pure | throw | remark | report | journal | spectrum => rfl
  | unused => simp only [outcome_unused, Findings.spread, Parameters.unused_spread]
  | look lookup _ => simp only [outcome_parameters, Findings.spread, lookup.spreads, id_eq]
  | @find _ _ _ g k _ _ lookup mem same _ ih =>
    obtain ⟨hmem, hlooked⟩ := hf.find lookup mem
    have hspread := ih _ hmem hlooked
    rw [outcome_bind_ok (outcome_parameters g f), outcome_bind_ok (outcome_parameters g f.spread)]
    simp only [Findings.spread, lookup.spreads, same]
    exact hspread
  | @bind _ _ _ _ m _ _ _ _ _ first _ ihm ihk =>
    rw [outcome_bind, outcome_bind, ihm hf]
    rcases hr : m.outcome f with ⟨r | r, g⟩
    · rfl
    · exact ihk r (first.learns.tells hf hr).2
  | @attempt _ _ _ m _ _ _ ih =>
    rw [outcome_attempt, outcome_attempt, ih hf]
    rcases m.outcome f with ⟨(p | _) | r, g⟩ <;> rfl
  | knowing _ ih => exact ih hf.holds.2 ⟨hf.words, hf.holds.1⟩
  | weaken _ before _ _ ih => exact ih ⟨hf.words, before f hf.holds⟩

theorem State.survey_spread {α : Type} [Scalar α] (ctx : Context) (source : Path) (s : State α)
    (st : Statement) :
    s.survey ctx source st.spread = ((s.survey ctx source st).1, (s.survey ctx source st).2.spread) :=
  (s.leads_survey ctx source st).blind (s.tells_start ctx source st)

end SceneConvert
