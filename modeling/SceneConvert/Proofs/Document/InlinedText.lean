import SceneConvert.Proofs.Document.EntryLines
import SceneConvert.Proofs.Document.Inline
import SceneConvert.Proofs.Run.Merge

/-!
# SceneConvert.Proofs.Document.InlinedText

The text of inlined entries is the inlined text of the entries.

* `Block.linesOf_add`: the lines at a greater depth are the same lines, indented.
* `OtherLine.law`, `Entry.otherLine`: the lines of an entry without line breaks in its names.
* `Inlined.lines`, `Inlined.fileText`: following inclusions in the text gives the text of the inlined
  entries.
-/

namespace SceneConvert

def Line.deeper (d : Nat) (l : Line) : Line := { l with depth := d + l.depth }

theorem Line.shown_deeper (indent : Indent) (d : Nat) (l : Line) :
    (l.deeper d).shown indent = indent.text d ++ l.shown indent := by
  rw [shown, shown, deeper, Indent.text_add, String.append_assoc]

namespace Block

mutual

theorem lines_add (d k : Nat) (b : Block) : b.lines (d + k) = (b.lines k).map (Line.deeper d) := by
  cases b with
  | line text => simp [lines, Line.deeper]
  | form head body =>
    have hbody := linesOf_add d (k + 1) body
    simp only [lines, List.map_append, List.map_cons, List.map_nil, ← hbody]
    rfl

theorem linesOf_add (d k : Nat) (bs : List Block) :
    lines.linesOf (d + k) bs = (lines.linesOf k bs).map (Line.deeper d) := by
  cases bs with
  | nil => rfl
  | cons b bs =>
    rw [lines.linesOf, lines.linesOf, List.map_append, lines_add d k b, linesOf_add d k bs]

end

end Block

theorem entryLines_cons (d : Nat) (e : Entry Float32) (es : List (Entry Float32)) :
    entryLines d (e :: es) = e.block.lines d ++ entryLines d es := rfl

theorem entryLines_append (d : Nat) (es fs : List (Entry Float32)) :
    entryLines d (es ++ fs) = entryLines d es ++ entryLines d fs := by
  induction es with
  | nil => rfl
  | cons e es ih => rw [List.cons_append, entryLines_cons, ih, entryLines_cons, List.append_assoc]

/-! ## Lines without breaks -/

theorem unbroken_of_plain {s : String} (h : s.toList.all isPlain = true) : Unbroken s :=
  fun hbreak => absurd (List.all_eq_true.1 h _ hbreak) (by decide)

theorem unbroken_enclosed {opening closing s : String} (hopening : Unbroken opening) (h : Unbroken s)
    (hclosing : Unbroken closing) : Unbroken (opening ++ s ++ closing) :=
  unbroken_append.2 ⟨unbroken_append.2 ⟨hopening, h⟩, hclosing⟩

theorem OtherLine.form {word s : String} (hword : Unbroken word)
    (hother : ¬('(' :: word.toList) <+: includeOpening ∧ ¬includeOpening <+: ('(' :: word.toList))
    (h : Unbroken s) : OtherLine ("(" ++ word ++ s ++ ")") :=
  .of_start ('(' :: word.toList) (by simp) rfl hother
    (unbroken_enclosed (unbroken_append.2 ⟨by decide, hword⟩) h (by decide))

theorem OtherLine.law : LineLaw Unbroken Unbroken OtherLine where
  plainName := unbroken_of_plain
  plain := unbroken_of_plain
  append hs ht := unbroken_append.2 ⟨hs, ht⟩
  quoted h := unbroken_enclosed (by decide) h (by decide)
  enclosed h := unbroken_enclosed (by decide) h (by decide)
  listed h := unbroken_enclosed (by decide) h (by decide)
  property h := .of_start [':'] (by simp) rfl (by decide) (unbroken_append.2 ⟨by decide, h⟩)
  form word hword _ h := by
    have hother : ∀ word ∈ formWords, Unbroken word ∧ ¬('(' :: word.toList) <+: includeOpening ∧
        ¬includeOpening <+: ('(' :: word.toList) := by decide
    exact .form (hother word hword).1 (hother word hword).2 h
  number v := .of_noParenthesis (Binary32.not_mem_literal (by simp [IsNumeric]))
    (Binary32.not_mem_literal (by simp [IsNumeric]))
  word h := .of_start ['\''] (by simp [singleQuoted]) rfl (by decide)
    (unbroken_enclosed (by decide) h (by decide))

namespace Entry

theorem otherLine_fragment {f : Fragment Float32} (h : f.Spelled Unbroken) (d : Nat) :
    ∀ l ∈ f.block.lines d, OtherLine l.text := by
  have hopening : OtherLine ("(" ++ f.word) := by
    refine .of_start ('(' :: f.word.toList) (by simp) rfl ?_ ?_
    all_goals cases f <;> (simp only [Fragment.word]; decide)
  have hclosing : OtherLine ")" := .of_noParenthesis (by decide) (by decide)
  exact OtherLine.law.block h hopening hclosing d

theorem otherLine {e : Entry Float32} (h : e.Spelled Unbroken) (he : e.included? = none) (d : Nat) :
    ∀ l ∈ e.block.lines d, OtherLine l.text := by
  cases e with
  | include_ p => cases he
  | fragment f => exact otherLine_fragment h d
  | activeCamera => exact OtherLine.law.activeCamera.lines d
  | setting key value =>
    have hform {s : String} (hs : Unbroken s) : OtherLine ("(registry " ++ s ++ ")") :=
      @OtherLine.form "registry " s (by decide) (by decide) hs
    exact (OtherLine.law.setting hform key value).lines d

theorem unbroken_shown {e : Entry Float32} (h : e.Spelled Unbroken) (indent : Indent) (d : Nat) :
    ∀ l ∈ e.block.lines d, Unbroken (l.shown indent) := by
  cases he : e.included? with
  | none => exact fun l hl => (otherLine h he d l hl).unbroken_shown indent l.depth
  | some p =>
    obtain rfl : e = .include_ p := by
      cases e <;> cases he
      rfl
    have hline : Unbroken ("(include " ++ singleQuoted p.text ++ ")") :=
      unbroken_enclosed (by decide) (OtherLine.law.quoted h) (by decide)
    intro l hl
    rw [List.mem_singleton.1 hl]
    exact unbroken_append.2 ⟨unbroken_indentation indent d, hline⟩

end Entry

def shownLines (indent : Indent) (d : Nat) (es : List (Entry Float32)) : List String :=
  (entryLines d es).map (Line.shown indent)

theorem shownLines_add (indent : Indent) (d k : Nat) (es : List (Entry Float32)) :
    shownLines indent (d + k) es = (shownLines indent k es).map (indent.text d ++ ·) := by
  rw [shownLines, shownLines, entryLines, Block.linesOf_add, List.map_map, List.map_map]
  exact List.map_congr_left fun l _ => l.shown_deeper indent d

theorem unbroken_shownLines {es : List (Entry Float32)} (h : ∀ e ∈ es, e.Spelled Unbroken)
    (indent : Indent) (d : Nat) : ∀ l ∈ shownLines indent d es, Unbroken l := by
  induction es with
  | nil => simp [shownLines, entryLines, Block.lines.linesOf]
  | cons e es ih =>
    intro l hl
    rw [shownLines, entryLines_cons, List.map_append] at hl
    rcases List.mem_append.1 hl with hl | hl
    · obtain ⟨line, hline, rfl⟩ := List.mem_map.1 hl
      exact Entry.unbroken_shown (h e List.mem_cons_self) indent d line hline
    · exact ih (fun e he => h e (List.mem_cons_of_mem _ he)) l hl

theorem fileText_bare (indent : Indent) (es : List (Entry Float32)) :
    fileText indent false es = ofLines (shownLines indent 0 es) := renderLines_eq indent _

theorem fileText_wrapped (indent : Indent) (es : List (Entry Float32)) :
    fileText indent true es = ofLines ([Line.shown indent ⟨0, "(scene"⟩] ++ shownLines indent 1 es ++
      [Line.shown indent ⟨0, ")"⟩]) := by
  rw [fileText, renderLines_eq]
  simp [fileLines, Block.lines, Block.lines.linesOf, shownLines, entryLines]

namespace Inlined

variable {indent : Indent} {file? : Path → Option String}

/-- Following inclusions in the lines of entries gives the lines of the inlined entries. -/
theorem lines {pages : List (Page Float32)} {es fs : List (Entry Float32)} (h : Inlined pages es fs)
    (hfile : ∀ page ∈ pages, file? page.file = some (fileText indent false page.entries))
    (hes : ∀ e ∈ es, e.Spelled Unbroken) (hpages : ∀ page ∈ pages, ∀ e ∈ page.entries, e.Spelled Unbroken)
    {n : Nat} (hn : pages.length ≤ n) (d : Nat) :
    inlinedLines file? n (shownLines indent d es) = shownLines indent d fs := by
  induction h generalizing n d with
  | nil => exact inlinedLines_of_none file? n (by simp [shownLines, entryLines, Block.lines.linesOf])
  | @keep pages e es fs he _ ih =>
    have hhere : ∀ l ∈ (e.block.lines d).map (Line.shown indent), includeLine? l = none := by
      intro l hl
      obtain ⟨line, hline, rfl⟩ := List.mem_map.1 hl
      exact (Entry.otherLine (hes e List.mem_cons_self) he d line hline).includeLine?_shown indent
        line.depth
    have hrest := ih hfile (fun e he => hes e (List.mem_cons_of_mem _ he)) hpages hn d
    rw [shownLines, entryLines_cons, List.map_append, inlinedLines_append,
      inlinedLines_of_none file? n hhere, ← shownLines, hrest, shownLines, shownLines, entryLines_cons,
      List.map_append]
  | @open_ before after page gs es fs _ _ ihpage ih =>
    have hbefore : ∀ page' ∈ before, page' ∈ before ++ page :: after :=
      fun page' hpage' => List.mem_append_left _ hpage'
    have hpage : page ∈ before ++ page :: after := by simp
    have hrest := ih hfile (fun e he => hes e (List.mem_cons_of_mem _ he)) hpages hn d
    rw [List.length_append, List.length_cons] at hn
    obtain ⟨m, rfl⟩ : ∃ m, n = m + 1 := ⟨n - 1, by omega⟩
    -- the lines of the page, followed in turn, stand at depth zero there
    have hinner := ihpage (fun page' hpage' => hfile page' (hbefore page' hpage')) (hpages page hpage)
      (fun page' hpage' => hpages page' (hbefore page' hpage')) (n := m) (by omega) 0
    have hcontent : textLines (fileText indent false page.entries) = shownLines indent 0 page.entries := by
      rw [fileText_bare]
      exact textLines_ofLines (unbroken_shownLines (hpages page hpage) indent 0)
    have hindented : (shownLines indent 0 gs).map (indent.text d ++ ·) = shownLines indent d gs :=
      (shownLines_add indent d 0 gs).symm
    have hline : inlinedLines file? (m + 1) [Line.shown indent ⟨d, "(include " ++
        singleQuoted page.file.text ++ ")"⟩] = shownLines indent d gs := by
      rw [inlinedLines, List.flatMap_singleton, includeLine?_shown]
      simp only [hfile page hpage, hcontent, hinner, hindented]
    rw [shownLines, entryLines_cons, List.map_append, inlinedLines_append, ← shownLines, hrest,
      shownLines, shownLines, entryLines_append, List.map_append]
    exact congrArg (· ++ _) hline

theorem fileText {pages : List (Page Float32)} {es fs : List (Entry Float32)} (h : Inlined pages es fs)
    (hfile : ∀ page ∈ pages, file? page.file = some (fileText indent false page.entries))
    (hes : ∀ e ∈ es, e.Spelled Unbroken) (hpages : ∀ page ∈ pages, ∀ e ∈ page.entries, e.Spelled Unbroken)
    {n : Nat} (hn : pages.length ≤ n) (wrapped : Bool) :
    inlined file? n (SceneConvert.fileText indent wrapped es) =
      SceneConvert.fileText indent wrapped fs := by
  have hlines (d : Nat) := h.lines hfile hes hpages hn d
  have hunbroken (d : Nat) := unbroken_shownLines hes indent d
  cases wrapped with
  | false => rw [fileText_bare, fileText_bare, inlined, textLines_ofLines (hunbroken 0), hlines]
  | true =>
    have hscene : OtherLine "(scene" := .of_start "(scene".toList (by simp) rfl (by decide) (by decide)
    have hclosing : OtherLine ")" := .of_noParenthesis (by decide) (by decide)
    have hkeep {text : String} (htext : OtherLine text) :
        inlinedLines file? n [Line.shown indent ⟨0, text⟩] = [Line.shown indent ⟨0, text⟩] :=
      inlinedLines_of_none file? n fun l hl =>
        List.mem_singleton.1 hl ▸ htext.includeLine?_shown indent 0
    rw [fileText_wrapped, fileText_wrapped, inlined, textLines_ofLines, inlinedLines_append,
      inlinedLines_append, hkeep hscene, hkeep hclosing, hlines]
    intro l hl
    simp only [List.mem_append, List.mem_singleton] at hl
    rcases hl with (rfl | hl) | rfl
    · exact hscene.unbroken_shown indent 0
    · exact hunbroken 1 l hl
    · exact hclosing.unbroken_shown indent 0

end Inlined

end SceneConvert
