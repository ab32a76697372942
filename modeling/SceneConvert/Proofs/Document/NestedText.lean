import SceneConvert.Proofs.Document.EntryLines
import SceneConvert.Proofs.Text.Nesting

/-!
# SceneConvert.Proofs.Document.NestedText

The text of a file is bracketed when its entries have no single quotes in their names.

* `Neutral.law`: then the lines of entries are neutral.
* `Neutral.form`: so is a form with a neutral body, whose lines taken one by one are not.
* `bracketed_fileText`: and the whole text is bracketed.
-/

namespace SceneConvert

theorem isNeutral_of_isPlain {c : Char} (h : isPlain c = true) : Nesting.isNeutral c = true := by
  refine decide_eq_true fun hmem => ?_
  have hplain : ['\'', '(', ')', '[', ']'].all (fun c => !isPlain c) = true := by decide
  simpa [h] using List.all_eq_true.1 hplain c hmem

namespace Neutral

theorem of_isPlain {s : String} (h : s.toList.all isPlain = true) : Neutral s :=
  of_isNeutral (List.all_eq_true.2 fun c hc => isNeutral_of_isPlain (List.all_eq_true.1 h c hc))

theorem wordForm {word s : String} (hword : word.toList.all isPlain = true) (h : Neutral s) :
    Neutral ("(" ++ word ++ s ++ ")") := by
  rw [show "(" ++ word ++ s = "(" ++ (word ++ s) from String.append_assoc]
  exact parenthesized (append (of_isPlain hword) h)

theorem law : LineLaw (Avoids '\'') Neutral Neutral where
  plainName h hquote := absurd (List.all_eq_true.1 h _ hquote) (by decide)
  plain := of_isPlain
  append := append
  quoted := quoted
  enclosed := parenthesized
  listed := bracketed
  property h := append (of_isNeutral (by decide)) h
  form word hword s h := by
    have hplain : ∀ word ∈ formWords, word.toList.all isPlain = true := by decide
    exact wordForm (hplain word hword) h
  number v := of_isPlain (List.all_eq_true.2 fun _ hc =>
    isPlain_of_isNumeric (Binary32.isNumeric_literal hc))
  word := quoted

variable (indent : Indent)

theorem indentation (depth : Nat) : Neutral (indent.text depth) := by
  refine of_isNeutral (List.all_eq_true.2 fun c hc => ?_)
  cases indent <;> rw [Indent.text, String.toList_ofList] at hc <;>
    rw [(List.mem_replicate.1 hc).2] <;> rfl

theorem line {text : String} (h : Neutral text) (depth : Nat) :
    Neutral (Line.render indent ⟨depth, text⟩) :=
  ((indentation indent depth).append h).append (of_isNeutral (by decide))

theorem renderLines_append {ls ls' : List Line} (h : Neutral (renderLines indent ls))
    (h' : Neutral (renderLines indent ls')) : Neutral (renderLines indent (ls ++ ls')) := by
  rw [renderLines, List.map_append, String.join_append]
  exact h.append h'

theorem blocks {bs : List Block} (depth : Nat)
    (h : ∀ b ∈ bs, Neutral (renderLines indent (b.lines depth))) :
    Neutral (renderLines indent (Block.lines.linesOf depth bs)) := by
  induction bs with
  | nil => exact fun _ => rfl
  | cons b bs ih =>
    exact renderLines_append indent (h b List.mem_cons_self)
      (ih fun b hb => h b (List.mem_cons_of_mem _ hb))

theorem isLine {b : Block} (h : b.IsLine Neutral) (depth : Nat) :
    Neutral (renderLines indent (b.lines depth)) := by
  obtain ⟨text, rfl, htext⟩ := h
  exact join (List.forall_mem_singleton.2 (line indent htext depth))

theorem form {head : String} {body : List Block} (hhead : head.toList.all isPlain = true) (depth : Nat)
    (hbody : ∀ b ∈ body, Neutral (renderLines indent (b.lines (depth + 1)))) :
    Neutral (renderLines indent ((Block.form head body).lines depth)) := by
  have hinner : Neutral (head ++ "\n" ++ renderLines indent (Block.lines.linesOf (depth + 1) body) ++
      indent.text depth) :=
    (((of_isPlain hhead).append (of_isNeutral (by decide))).append
      (blocks indent (depth + 1) hbody)).append (indentation indent depth)
  have hform := ((indentation indent depth).append hinner.parenthesized).append
    (of_isNeutral (s := "\n") (by decide))
  simpa [renderLines, Line.render, Block.lines, String.append_assoc] using hform

theorem fragment {f : Fragment Float32} (h : f.Spelled (Avoids '\'')) (depth : Nat) :
    Neutral (renderLines indent (f.block.lines depth)) := by
  have hword : f.word.toList.all isPlain = true := by
    cases f <;> (simp only [Fragment.word]; decide)
  exact form indent hword depth fun b hb => isLine indent (law.body h b hb) (depth + 1)

theorem entry {e : Entry Float32} (h : e.Spelled (Avoids '\'')) (depth : Nat) :
    Neutral (renderLines indent (e.block.lines depth)) := by
  cases e with
  | fragment f => exact fragment indent h depth
  | setting key value =>
    have hform {s : String} (hs : Neutral s) : Neutral ("(registry " ++ s ++ ")") :=
      @wordForm "registry " s (by decide) hs
    exact isLine indent (law.setting hform key value) depth
  | activeCamera => exact isLine indent law.activeCamera depth
  | include_ p =>
    have hfile : Neutral ("include " ++ singleQuoted p.text) :=
      (of_isNeutral (by decide)).append (quoted h)
    have hform := hfile.parenthesized
    rw [← String.append_assoc] at hform
    exact isLine indent ⟨_, rfl, hform⟩ depth

end Neutral

/-- The text of a file is bracketed, inside the form of a scene and without it. -/
theorem bracketed_fileText {entries : List (Entry Float32)} (h : ∀ e ∈ entries, e.Spelled (Avoids '\''))
    (indent : Indent) (wrapped : Bool) : Bracketed (fileText indent wrapped entries) := by
  have hblocks (depth : Nat) : ∀ b ∈ entries.map Entry.block,
      Neutral (renderLines indent (b.lines depth)) :=
    List.forall_mem_map.2 fun e he => Neutral.entry indent (h e he) depth
  refine Neutral.isBracketed ?_
  cases wrapped with
  | false => exact Neutral.blocks indent 0 (hblocks 0)
  | true =>
    refine Neutral.blocks indent 0 (List.forall_mem_singleton.2 ?_)
    exact Neutral.form indent (by decide) 0 (hblocks 1)

end SceneConvert
