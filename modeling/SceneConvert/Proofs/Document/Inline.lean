import SceneConvert.Document.Render
import SceneConvert.Proofs.Text.Lines

/-!
# SceneConvert.Proofs.Document.Inline

Putting the contents of files in place of the lines that include them, in texts alone.

* `includeLine?`: the indentation and the path of a line that includes a file.
* `inlinedLines`, `inlined`: a text with the contents of files in place of such lines, the ones in the
  contents too.
* `OtherLine`: a line that includes nothing at any depth.
-/

namespace SceneConvert

def isIndentation (c : Char) : Bool := c == ' ' || c == '\t'

/-- What a line that includes a file starts with, behind its indentation. -/
def includeOpening : List Char := "(include '".toList

/-- What it ends with. -/
def includeClosing : List Char := "')".toList

/-- The indentation and the path of a line that includes a file. -/
def includeLine? (line : String) : Option (String × Path) :=
  let form := line.toList.dropWhile isIndentation
  let rest := form.drop includeOpening.length
  if includeOpening <+: form ∧ includeClosing <:+ rest then
    some (String.ofList (line.toList.takeWhile isIndentation),
      ⟨String.ofList (rest.take (rest.length - includeClosing.length))⟩)
  else none

/-- The lines with the contents of files in place of the lines that include them. Each line of a file
is indented as the line that includes it. Files inside files are followed `n` levels down; lines whose
file is not known stay. -/
def inlinedLines (file? : Path → Option String) : Nat → List String → List String
  | 0, ls => ls
  | n + 1, ls => ls.flatMap fun line =>
    match includeLine? line with
    | none => [line]
    | some (indentation, p) =>
      match file? p with
      | none => [line]
      | some text => (inlinedLines file? n (textLines text)).map (indentation ++ ·)

def inlined (file? : Path → Option String) (n : Nat) (text : String) : String :=
  ofLines (inlinedLines file? n (textLines text))

theorem inlinedLines_append (file? : Path → Option String) (n : Nat) (ls ls' : List String) :
    inlinedLines file? n (ls ++ ls') = inlinedLines file? n ls ++ inlinedLines file? n ls' := by
  cases n with
  | zero => rfl
  | succ n => exact List.flatMap_append

theorem inlinedLines_of_none (file? : Path → Option String) (n : Nat) {ls : List String}
    (h : ∀ l ∈ ls, includeLine? l = none) : inlinedLines file? n ls = ls := by
  cases n with
  | zero => rfl
  | succ n =>
    induction ls with
    | nil => rfl
    | cons l ls ih =>
      have htail := ih fun l hl => h l (List.mem_cons_of_mem _ hl)
      rw [inlinedLines] at htail ⊢
      rw [List.flatMap_cons, htail, h l List.mem_cons_self]
      rfl

/-! ## Indentation -/

theorem isIndentation_of_mem_text {indent : Indent} {depth : Nat} {c : Char}
    (h : c ∈ (indent.text depth).toList) : isIndentation c = true := by
  cases indent <;> simp only [Indent.text, String.toList_ofList] at h <;>
    rw [(List.mem_replicate.1 h).2] <;> rfl

theorem unbroken_indentation (indent : Indent) (depth : Nat) : Unbroken (indent.text depth) :=
  fun h => absurd (isIndentation_of_mem_text h) (by decide)

theorem Indent.text_add (indent : Indent) (d k : Nat) :
    indent.text (d + k) = indent.text d ++ indent.text k := by
  cases indent <;> simp only [Indent.text, Nat.add_mul, ← List.replicate_append_replicate,
    String.ofList_append]

def Line.shown (indent : Indent) (l : Line) : String := indent.text l.depth ++ l.text

theorem renderLines_eq (indent : Indent) (ls : List Line) :
    renderLines indent ls = ofLines (ls.map (Line.shown indent)) := by
  rw [renderLines, ofLines, List.map_map]
  rfl

theorem includeLine?_shown (indent : Indent) (depth : Nat) (p : Path) :
    includeLine? (Line.shown indent ⟨depth, "(include " ++ singleQuoted p.text ++ ")"⟩) =
      some (indent.text depth, p) := by
  have hopening : includeOpening = "(include ".toList ++ "'".toList := by decide
  have hclosing : includeClosing = "'".toList ++ ")".toList := by decide
  have htext : ("(include " ++ singleQuoted p.text ++ ")").toList =
      includeOpening ++ (p.text.toList ++ includeClosing) := by
    simp only [singleQuoted, String.toList_append, hopening, hclosing, List.append_assoc]
  have hall : ∀ c ∈ (indent.text depth).toList, isIndentation c = true :=
    fun c hc => isIndentation_of_mem_text hc
  obtain ⟨opening, hfirst⟩ : ∃ cs, includeOpening = '(' :: cs := ⟨_, rfl⟩
  have hdrop (cs : List Char) : (includeOpening ++ cs).dropWhile isIndentation = includeOpening ++ cs := by
    rw [hfirst]
    rfl
  have htake (cs : List Char) : (includeOpening ++ cs).takeWhile isIndentation = [] := by
    rw [hfirst]
    rfl
  simp only [includeLine?, Line.shown, String.toList_append, htext,
    List.dropWhile_append_of_pos hall, List.takeWhile_append_of_pos hall, hdrop, htake,
    List.drop_left, List.append_nil, String.ofList_toList]
  rw [if_pos ⟨List.prefix_append _ _, List.suffix_append _ _⟩, List.length_append,
    Nat.add_sub_cancel, List.take_left, String.ofList_toList]

/-! ## Other lines -/

section

variable {opening : List Char} {indentation text : String}

theorem not_opening_of_start (hindentation : ∀ c ∈ indentation.toList, isIndentation c = true)
    (start : List Char) (hstart : start <+: text.toList) (hfirst : start.head?.any isIndentation = false)
    (hother : ¬start <+: opening ∧ ¬opening <+: start) :
    ¬opening <+: (indentation ++ text).toList.dropWhile isIndentation := by
  obtain ⟨rest, hrest⟩ := hstart
  have hform : (indentation ++ text).toList.dropWhile isIndentation = text.toList := by
    rw [String.toList_append, List.dropWhile_append_of_pos hindentation, ← hrest]
    cases start with
    | nil => exact absurd List.nil_prefix hother.1
    | cons c cs =>
      have hc : isIndentation c = false := by simpa using hfirst
      simp [hc]
  intro hopening
  rw [hform] at hopening
  rcases List.prefix_or_prefix_of_prefix ⟨rest, hrest⟩ hopening with hstarts | hstarts
  · exact hother.1 hstarts
  · exact hother.2 hstarts

theorem not_opening_of_noParenthesis (hopening : '(' ∈ opening)
    (hindentation : ∀ c ∈ indentation.toList, isIndentation c = true)
    (hparenthesis : '(' ∉ text.toList) :
    ¬opening <+: (indentation ++ text).toList.dropWhile isIndentation := by
  intro hstarts
  have hmem : '(' ∈ (indentation ++ text).toList :=
    (List.dropWhile_sublist _).subset (hstarts.subset hopening)
  rw [String.toList_append] at hmem
  rcases List.mem_append.1 hmem with hmem | hmem
  · exact absurd (hindentation _ hmem) (by decide)
  · exact hparenthesis hmem

end

/-- A line without breaks that includes nothing, however deep it stands. -/
structure OtherLine (text : String) : Prop where
  unbroken : Unbroken text
  other : ∀ indentation : String, (∀ c ∈ indentation.toList, isIndentation c = true) →
    includeLine? (indentation ++ text) = none

namespace OtherLine

theorem of_start {text : String} (start : List Char) (hstart : start <+: text.toList)
    (hfirst : start.head?.any isIndentation = false)
    (hother : ¬start <+: includeOpening ∧ ¬includeOpening <+: start) (h : Unbroken text) :
    OtherLine text where
  unbroken := h
  other _ hindentation :=
    if_neg fun hopening => not_opening_of_start hindentation start hstart hfirst hother hopening.1

theorem of_noParenthesis {text : String} (hparenthesis : '(' ∉ text.toList) (h : Unbroken text) :
    OtherLine text where
  unbroken := h
  other _ hindentation :=
    if_neg fun hopening => not_opening_of_noParenthesis (by decide) hindentation hparenthesis hopening.1

theorem includeLine?_shown {text : String} (h : OtherLine text) (indent : Indent) (depth : Nat) :
    includeLine? (Line.shown indent ⟨depth, text⟩) = none :=
  h.other _ fun _ hc => isIndentation_of_mem_text hc

theorem unbroken_shown {text : String} (h : OtherLine text) (indent : Indent) (depth : Nat) :
    Unbroken (Line.shown indent ⟨depth, text⟩) :=
  unbroken_append.2 ⟨unbroken_indentation indent depth, h.unbroken⟩

end OtherLine

end SceneConvert
