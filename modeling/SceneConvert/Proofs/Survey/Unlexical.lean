import SceneConvert.Proofs.Survey.Learns

/-!
# SceneConvert.Proofs.Survey.Unlexical

No directive has a problem with how its text is spelled: that is for the lexer to say.

* `Leads.kind_of_mem_items`: no problem that is found is lexical.
* `State.kind_of_mem_problems_survey`: no problem that a directive comes to is.
-/

namespace SceneConvert

open Survey

theorem Site.Leads.kind_of_mem_items {α β : Type} {v : Site α} {i : Phase} {a : Fact} {m : Survey β}
    {o : β → Phase} {b : β → Fact} (h : v.Leads i a m o b) {f : Findings} (hf : v.Tells f a) {p : Problem}
    (hp : .problem p ∈ (m.outcome f).2.items) : .problem p ∈ f.items ∨ p.kind ≠ .lexical := by
  induction h generalizing f with
  | pure | throw | journal | unused | look => exact .inl hp
  | remark | spectrum => exact .inl ((Array.mem_push.1 hp).resolve_right Finding.noConfusion)
  | report kind =>
    rcases Array.mem_push.1 hp with hp | hp
    · exact .inl hp
    · cases hp
      exact .inr kind
  | find lookup mem _ _ ih =>
    obtain ⟨hmem, hlooked⟩ := hf.find lookup mem
    have hfound := ih _ hmem hlooked hp
    exact hfound
  | @bind _ _ _ _ m _ _ _ _ _ first _ ihm ihk =>
    rw [outcome_bind] at hp
    have hfound := @ihm f hf
    rcases hr : m.outcome f with ⟨r | r, g⟩ <;> rw [hr] at hp hfound
    · exact hfound hp
    · exact (ihk r (first.learns.tells hf hr).2 hp).elim hfound .inr
  | attempt _ ih =>
    rw [findings_attempt] at hp
    exact ih hf hp
  | knowing _ ih => exact ih hf.holds.2 ⟨hf.words, hf.holds.1⟩ hp
  | weaken _ before _ _ ih => exact ih ⟨hf.words, before f hf.holds⟩ hp

theorem State.kind_of_mem_problems_survey {α : Type} [Scalar α] {ctx : Context} {source : Path}
    {s : State α} {st : Statement} {p : Problem} (h : p ∈ Survey.problems (s.survey ctx source st)) :
    p.kind ≠ .lexical := by
  rcases List.mem_append.1 h with h | h
  · obtain ⟨x, hx, hp⟩ := List.mem_filterMap.1 h
    cases x <;> cases hp
    exact ((s.leads_survey ctx source st).kind_of_mem_items (s.tells_start ctx source st)
      (Array.mem_toList_iff.1 hx)).resolve_left (Array.not_mem_empty _)
  · rw [Option.mem_toList] at h
    rcases hresult : (s.survey ctx source st).1 with (q | _) | verdict <;> rw [hresult] at h
    · obtain rfl := Option.some.inj h
      exact s.refuses_of_survey ctx source st hresult
    · cases h
    · exact (s.sound_of_survey ctx source st hresult).2.kind p h

end SceneConvert
