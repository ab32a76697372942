import Mathlib.Data.List.Basic
import SceneConvert.Decimal.Shortest
import SceneConvert.Proofs.Text.Avoids

/-!
# SceneConvert.Proofs.Text.Lines

Texts and their lines.

* `Unbroken`: a text without line breaks.
* `IsNumeric`: a character of a written number.
* `textLines`, `ofLines`: the lines of a text, and the text that lines make.
* `line_le_length_textLines`: a character stands on a line of its text.
-/

namespace SceneConvert

def Unbroken (s : String) : Prop := '\n' ∉ s.toList

instance (s : String) : Decidable (Unbroken s) := inferInstanceAs (Decidable ('\n' ∉ s.toList))

@[simp] theorem unbroken_append {s t : String} : Unbroken (s ++ t) ↔ Unbroken s ∧ Unbroken t :=
  avoids_append

/-! ## Numbers -/

def IsNumeric (c : Char) : Prop := c.isDigit = true ∨ c ∈ ['.', '-', 'i', 'n', 'f', 'N', 'a']

theorem isNumeric_of_toDigits {n : Nat} {c : Char} (h : c ∈ Nat.toDigits 10 n) : IsNumeric c :=
  .inl (Nat.isDigit_of_mem_toDigits (by decide) (by decide) h)

theorem isNumeric_of_replicate {n : Nat} {c : Char} (h : c ∈ List.replicate n '0') : IsNumeric c := by
  rw [(List.mem_replicate.1 h).2]
  exact .inl rfl

theorem Decimal.isNumeric_positional {d : Decimal} {c : Char} (h : c ∈ d.positional) :
    IsNumeric c := by
  simp only [positional] at h
  split at h
  · exact (List.mem_append.1 h).elim isNumeric_of_toDigits isNumeric_of_replicate
  · generalize hpadded : List.replicate ((-d.exponent).toNat + 1 -
      (Nat.toDigits 10 d.coefficient).length) '0' ++ Nat.toDigits 10 d.coefficient = padded at h
    have hnumeric : ∀ c ∈ padded, IsNumeric c := fun c hc =>
      (List.mem_append.1 (hpadded ▸ hc)).elim isNumeric_of_replicate isNumeric_of_toDigits
    split at h
    · exact hnumeric c (List.mem_of_mem_take h)
    · rcases List.mem_append.1 h with h | h
      · exact hnumeric c (List.mem_of_mem_take h)
      · rcases List.mem_cons.1 h with rfl | h
        · exact .inr (by decide)
        · have hdropped := (List.dropWhile_sublist _).subset (List.mem_reverse.1 h)
          exact hnumeric c (List.mem_of_mem_drop (List.mem_reverse.1 hdropped))

namespace Binary32

theorem isNumeric_literal {v : Float32} {c : Char} (h : c ∈ (literal v).toList) : IsNumeric c := by
  simp only [literal, String.toList_ofList, List.mem_append] at h
  rcases h with (h | h) | h
  · unfold signText at h
    split at h <;> simp at h
    exact .inr (by simp [h])
  · unfold magnitudeText at h
    split at h
    · exact Decimal.isNumeric_positional h
    · split at h <;> exact .inr (by simp at h ⊢; tauto)
  · split at h <;> simp at h
    rcases h with rfl | rfl
    · exact .inr (by decide)
    · exact .inl rfl

theorem not_mem_literal {v : Float32} {c : Char} (hc : ¬IsNumeric c) : c ∉ (literal v).toList :=
  fun h => hc (isNumeric_literal h)

end Binary32

/-! ## Lines -/

/-- The lines of a text. What stands behind the last line break is a line unless it is empty. -/
def textLines (text : String) : List String :=
  let pieces := text.toList.splitOn '\n'
  (if pieces.getLast? = some [] then pieces.dropLast else pieces).map String.ofList

/-- The text that lines make, each with a line break behind it. -/
def ofLines (ls : List String) : String := String.join (ls.map (· ++ "\n"))

theorem ofLines_cons (l : String) (ls : List String) : ofLines (l :: ls) = l ++ "\n" ++ ofLines ls := by
  simp [ofLines]

theorem textLines_ofLines {ls : List String} (h : ∀ l ∈ ls, Unbroken l) : textLines (ofLines ls) = ls := by
  have hpieces : (ofLines ls).toList.splitOn '\n' = ls.map String.toList ++ [[]] := by
    induction ls with
    | nil => rfl
    | cons l ls ih =>
      have htoList : (ofLines (l :: ls)).toList = l.toList ++ '\n' :: (ofLines ls).toList := by
        simp [ofLines_cons]
      rw [htoList, List.splitOn_append_cons_self_of_not_mem (h l List.mem_cons_self),
        ih fun l hl => h l (List.mem_cons_of_mem _ hl)]
      rfl
  simp [textLines, hpieces, Function.comp_def]

theorem length_splitOn {α : Type} [BEq α] (a : α) (xs : List α) :
    (xs.splitOn a).length = xs.count a + 1 := by
  induction xs with
  | nil => rfl
  | cons x xs ih =>
    rw [List.splitOn_cons_eq_if_modifyHead, List.count_cons]
    split <;> simp [ih]

theorem getLast?_of_getLast?_splitOn {α : Type} [BEq α] [LawfulBEq α] {a : α} {xs : List α}
    (hxs : xs ≠ []) (h : (xs.splitOn a).getLast? = some []) : xs.getLast? = some a := by
  induction xs with
  | nil => exact absurd rfl hxs
  | cons x xs ih =>
    obtain ⟨piece, pieces, hpieces⟩ := List.exists_cons_of_ne_nil (List.splitOn_ne_nil a xs)
    rw [List.splitOn_cons_eq_if_modifyHead, hpieces] at h
    cases xs with
    | nil =>
      cases hpieces
      by_cases hx : x = a <;> simp_all
    | cons y ys =>
      rw [List.getLast?_cons_cons]
      refine ih (List.cons_ne_nil y ys) ?_
      rw [hpieces]
      cases pieces <;> by_cases hx : x = a <;> simp_all

theorem line_le_length_textLines {text : String} {before rest : List Char} {c : Char}
    (h : text.toList = before ++ c :: rest) (hc : c ≠ '\n') :
    before.count '\n' + 1 ≤ (textLines text).length := by
  have hlength := length_splitOn '\n' text.toList
  rw [h, List.count_append, List.count_cons_of_ne hc] at hlength
  rw [textLines, List.length_map, h]
  split
  · rename_i hlast
    have hend := getLast?_of_getLast?_splitOn (by simp) hlast
    have hbreak : '\n' ∈ rest := by
      cases rest with
      | nil => simp [hc] at hend
      | cons d rest =>
        rw [List.getLast?_append_cons, List.getLast?_cons_cons] at hend
        exact List.mem_of_getLast? hend
    have hpos := List.count_pos_iff.2 hbreak
    rw [List.length_dropLast]
    omega
  · omega

end SceneConvert
