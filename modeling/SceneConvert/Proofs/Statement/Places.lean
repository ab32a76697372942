import SceneConvert.Proofs.Statement.Resume

/-!
# SceneConvert.Proofs.Statement.Places

The tokens that the events of a text are about.

* `Fault.IsAbout`: a fault on the line of a token, inside it or with what it stands for.
* `Event.IsAbout`: the same, or a statement of which the token is the word.
* `Event.exists_isAbout`: every event is about one of the tokens that it was read from.
-/

namespace SceneConvert

namespace Fault

/-- The fault is reported on the line of the token. What is wrong inside a token is wrong with its
spelling, everything else is wrong with the order of the tokens. -/
structure IsAbout (f : Fault) (x : Lexeme) : Prop where
  line : f.line = x.line
  inside : f.problem ∈ x.faults ∨ f.problem.kind = .syntactic

/-- Each of the faults is about one of the tokens. -/
def AllAbout (xs : List Lexeme) (fs : List Fault) : Prop := ∀ f ∈ fs, ∃ x ∈ xs, f.IsAbout x

variable {xs ys : List Lexeme} {fs gs : List Fault}

theorem allAbout_nil : AllAbout xs [] := fun _ h => absurd h List.not_mem_nil

theorem allAbout_append : AllAbout xs (fs ++ gs) ↔ AllAbout xs fs ∧ AllAbout xs gs :=
  List.forall_mem_append

theorem AllAbout.mono (h : AllAbout xs fs) (hsub : xs ⊆ ys) : AllAbout ys fs := by
  intro f hf
  obtain ⟨x, hx, habout⟩ := h f hf
  exact ⟨x, hsub hx, habout⟩

theorem allAbout_ownFaults {x : Lexeme} (hx : x ∈ xs) : AllAbout xs x.ownFaults := by
  intro f hf
  obtain ⟨p, hp, rfl⟩ := List.mem_map.1 hf
  exact ⟨x, hx, rfl, .inl hp⟩

theorem allAbout_singleton {x : Lexeme} (hx : x ∈ xs) {p : Problem} (hp : p.kind = .syntactic) :
    AllAbout xs [⟨x.line, p⟩] := by
  intro f hf
  obtain rfl := List.mem_singleton.1 hf
  exact ⟨x, hx, rfl, .inr hp⟩

end Fault

open Fault

theorem allAbout_readElements (o : Lexeme) (xs : List Lexeme) :
    AllAbout (o :: xs) (readElements o.line xs).faults := by
  induction xs with
  | nil => exact allAbout_singleton List.mem_cons_self rfl
  | cons x xs ih =>
    rw [readElements]
    have hx : x ∈ o :: x :: xs := List.mem_cons_of_mem o List.mem_cons_self
    split
    · exact allAbout_nil
    split
    · have hsub : o :: xs ⊆ o :: x :: xs := List.cons_subset_cons o (List.subset_cons_self x xs)
      exact allAbout_append.2 ⟨allAbout_ownFaults hx, ih.mono hsub⟩
    · exact allAbout_singleton hx rfl

theorem allAbout_readValue? {collapse : Bool} {xs : List Lexeme} {r : Reading Value}
    (h : readValue? collapse xs = some r) : AllAbout xs r.faults := by
  cases xs with
  | nil => cases h
  | cons x xs =>
    simp only [readValue?] at h
    split at h
    · cases h
      exact allAbout_readElements x xs
    · cases h
      exact allAbout_ownFaults List.mem_cons_self
    · split at h
      · cases h
        exact allAbout_nil
      · split at h
        · cases h
          exact allAbout_nil
        · cases h

theorem allAbout_readParameters (collapse : Bool) (ps : Parameters) (xs : List Lexeme) :
    AllAbout xs (readParameters collapse ps xs).faults := by
  fun_induction readParameters collapse ps xs with
  | case1 => exact allAbout_nil
  | case2 ps x xs key _ v hv ih =>
    have hxs : xs ⊆ x :: xs := List.subset_cons_self x xs
    refine allAbout_append.2 ⟨allAbout_append.2 ⟨allAbout_ownFaults List.mem_cons_self, ?_⟩, ?_⟩
    · exact (allAbout_readValue? hv).mono hxs
    · exact ih.mono (List.Subset.trans (suffix_rest_readValue? hv).subset hxs)
  | case3 ps x xs key _ _ ih =>
    refine allAbout_append.2 ⟨allAbout_append.2 ⟨allAbout_ownFaults List.mem_cons_self, ?_⟩, ?_⟩
    · exact allAbout_singleton List.mem_cons_self rfl
    · exact ih.mono (List.subset_cons_self x xs)
  | case4 => exact allAbout_nil

theorem allAbout_readOperands (collapse : Bool) (xs : List Lexeme) :
    AllAbout xs (readOperands collapse xs).faults := by
  unfold readOperands
  split
  · exact allAbout_nil
  · rename_i v hv
    refine allAbout_append.2 ⟨allAbout_readValue? hv, ?_⟩
    exact (allAbout_readParameters collapse .empty v.rest).mono (suffix_rest_readValue? hv).subset

namespace Event

/-- The event was met at this token: a fault that is about it, or a statement of which it is the
word. -/
def IsAbout (x : Lexeme) : Event → Prop
  | fault f => f.IsAbout x
  | statement st => x.token = .word st.word ∧ x.line = st.line

theorem exists_isAbout_of_mem_faults {xs : List Lexeme} {fs : List Fault} (h : AllAbout xs fs)
    {e : Event} (he : e ∈ fs.map fault) : ∃ x ∈ xs, e.IsAbout x := by
  obtain ⟨f, hf, rfl⟩ := List.mem_map.1 he
  exact h f hf

theorem exists_isAbout {collapse : Bool} {xs : List Lexeme} {e : Event}
    (h : e ∈ ofLexemes collapse xs) : ∃ x ∈ xs, e.IsAbout x := by
  have hlater {x : Lexeme} {ys zs : List Lexeme} (hys : ys ⊆ zs) (h : ∃ y ∈ ys, e.IsAbout y) :
      ∃ y ∈ x :: zs, e.IsAbout y := by
    obtain ⟨y, hy, habout⟩ := h
    exact ⟨y, List.mem_cons_of_mem x (hys hy), habout⟩
  fun_induction ofLexemes collapse xs with
  | case1 => cases h
  | case2 x xs s hx _ r ih =>
    rcases List.mem_append.1 h with h | h
    · have hall := allAbout_readOperands collapse xs
      exact hlater (List.Subset.refl xs) (exists_isAbout_of_mem_faults hall h)
    rcases List.mem_cons.1 h with rfl | h
    · exact ⟨x, List.mem_cons_self, hx, rfl⟩
    · exact hlater (suffix_rest_readOperands collapse xs).subset (ih h)
  | case3 x xs s _ _ ih =>
    rcases List.mem_cons.1 h with rfl | h
    · exact ⟨x, List.mem_cons_self, rfl, .inr rfl⟩
    · exact hlater (List.Subset.refl xs) (ih h)
  | case4 x xs _ ih =>
    rcases List.mem_append.1 h with h | h
    · exact exists_isAbout_of_mem_faults (allAbout_ownFaults List.mem_cons_self) h
    rcases List.mem_cons.1 h with rfl | h
    · exact ⟨x, List.mem_cons_self, rfl, .inr rfl⟩
    · exact hlater (List.Subset.refl xs) (ih h)

end Event

end SceneConvert
