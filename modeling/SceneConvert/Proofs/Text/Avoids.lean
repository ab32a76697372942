import SceneConvert.Text.CharacterClass

/-!
# SceneConvert.Proofs.Text.Avoids

Texts without some character.

* `Avoids`: such a text.
* `IsForeign`: a character that no number has, and no name that a conversion makes by itself.
-/

namespace SceneConvert

def Avoids (c : Char) (s : String) : Prop := c ∉ s.toList

instance (c : Char) (s : String) : Decidable (Avoids c s) := inferInstanceAs (Decidable (c ∉ s.toList))

section

variable {c : Char}

@[simp] theorem avoids_append {s t : String} : Avoids c (s ++ t) ↔ Avoids c s ∧ Avoids c t := by
  simp [Avoids]

theorem avoids_ofList {cs : List Char} : Avoids c (String.ofList cs) ↔ c ∉ cs := by
  simp [Avoids]

theorem avoids_intercalate {sep : String} (hsep : Avoids c sep) {ts : List String}
    (h : ∀ t ∈ ts, Avoids c t) : Avoids c (sep.intercalate ts) := by
  induction ts with
  | nil => simp [Avoids]
  | cons t ts ih =>
    have htail := ih fun t ht => h t (List.mem_cons_of_mem _ ht)
    cases ts with
    | nil => simpa using h t List.mem_cons_self
    | cons u us =>
      rw [String.intercalate_cons_cons, avoids_append, avoids_append]
      exact ⟨⟨h t List.mem_cons_self, hsep⟩, htail⟩

theorem avoids_toString_nat (hc : c.isDigit = false) (n : Nat) : Avoids c (toString n) := by
  intro h
  rw [Nat.toString_eq_repr, Nat.toList_repr] at h
  rw [Nat.isDigit_of_mem_toDigits (by decide) (by decide) h] at hc
  cases hc

end

/-- A character of a name that a conversion makes by itself. -/
def isHomely (c : Char) : Bool := c.isAlphanum || c ∈ ['/', '.', '_', '-', '+']

/-- A character that no such name has, and no number. -/
structure IsForeign (c : Char) : Prop where
  notHomely : isHomely c = false
  notDigit : isDecimalDigit c = false

instance (c : Char) : Decidable (IsForeign c) :=
  decidable_of_iff (isHomely c = false ∧ isDecimalDigit c = false)
    ⟨fun h => ⟨h.1, h.2⟩, fun h => ⟨h.notHomely, h.notDigit⟩⟩

theorem IsForeign.avoids {c : Char} (hc : IsForeign c) {s : String}
    (hs : s.toList.all isHomely = true) : Avoids c s := by
  intro hmem
  have hhomely := List.all_eq_true.1 hs c hmem
  rw [hc.notHomely] at hhomely
  cases hhomely

theorem IsForeign.avoids_toString {c : Char} (hc : IsForeign c) (n : Nat) : Avoids c (toString n) := by
  refine avoids_toString_nat ?_ n
  have hdigit := hc.notDigit
  simp only [isDecimalDigit, Bool.or_eq_false_iff] at hdigit
  exact hdigit.1

end SceneConvert
