import SceneConvert.Proofs.Document.InlinedText

/-!
# SceneConvert.Proofs.Document.LeftOut

What leaving out render settings, the form of a scene, or its camera makes of the text of a file.

* `isSettingLine`: a line that starts like a render setting, at any depth.
* `SetsNothing.law`, `Entry.setsNothing`, `Entry.isSettingLine_of_isSetting`: the lines of render settings
  start so, and no others.
* `filter_shownLines`: leaving out these lines is leaving out the render settings.
* `Unset`, `Unwrapped`, `Uncamera`: two texts, the second one without render settings, without the form
  of a scene, without a camera. `CameraBehind`: where a camera stands among the entries.
-/

namespace SceneConvert

/-- What the line of a render setting starts with, behind its indentation. -/
def settingOpening : List Char := "(registry ".toList

/-- Whether a line sets a render setting, at any depth. -/
def isSettingLine (line : String) : Bool :=
  settingOpening.isPrefixOf (line.toList.dropWhile isIndentation)

example : isSettingLine "\t (registry '/a' 1)" = true ∧ isSettingLine "(registryless)" = false := by decide

/-- A line that sets no render setting, however deep it stands. -/
def SetsNothing (text : String) : Prop :=
  ∀ indentation : String, (∀ c ∈ indentation.toList, isIndentation c = true) →
    isSettingLine (indentation ++ text) = false

namespace SetsNothing

theorem of_not_opening {text : String}
    (h : ∀ indentation : String, (∀ c ∈ indentation.toList, isIndentation c = true) →
      ¬settingOpening <+: (indentation ++ text).toList.dropWhile isIndentation) : SetsNothing text := by
  intro indentation hindentation
  rw [isSettingLine, ← Bool.not_eq_true, List.isPrefixOf_iff_prefix]
  exact h indentation hindentation

theorem of_start {text : String} (start : List Char) (hstart : start <+: text.toList)
    (hfirst : start.head?.any isIndentation = false)
    (hother : ¬start <+: settingOpening ∧ ¬settingOpening <+: start) : SetsNothing text :=
  of_not_opening fun _ hindentation => not_opening_of_start hindentation start hstart hfirst hother

theorem of_noParenthesis {text : String} (hparenthesis : '(' ∉ text.toList) : SetsNothing text :=
  of_not_opening fun _ hindentation =>
    not_opening_of_noParenthesis (by decide) hindentation hparenthesis

theorem shown {text : String} (h : SetsNothing text) (indent : Indent) (depth : Nat) :
    isSettingLine (Line.shown indent ⟨depth, text⟩) = false :=
  h _ fun _ hc => isIndentation_of_mem_text hc

/-- No line of a fragment sets a render setting, whatever its names are. -/
theorem law : LineLaw (fun _ => True) (fun _ => True) SetsNothing where
  plainName _ := trivial
  plain _ := trivial
  append _ _ := trivial
  quoted _ := trivial
  enclosed _ := trivial
  listed _ := trivial
  property _ := .of_start [':'] (by simp) rfl (by decide)
  form word hword s _ := by
    have hother : ∀ word ∈ formWords, ¬('(' :: word.toList) <+: settingOpening ∧
        ¬settingOpening <+: ('(' :: word.toList) := by decide
    exact .of_start ('(' :: word.toList) (by simp) rfl (hother word hword)
  number v := .of_noParenthesis (Binary32.not_mem_literal (by simp [IsNumeric]))
  word _ := .of_start ['\''] (by simp [singleQuoted]) rfl (by decide)

end SetsNothing

namespace Entry

theorem isSettingLine_of_isSetting {e : Entry Float32} (he : e.isSetting = true) (indent : Indent) (d : Nat) :
    ∀ l ∈ e.block.lines d, isSettingLine (l.shown indent) = true := by
  cases e with
  | setting key value =>
    intro l hl
    rw [List.mem_singleton.1 hl, isSettingLine, List.isPrefixOf_iff_prefix]
    simp only [Line.shown, String.toList_append, List.append_assoc]
    rw [List.dropWhile_append_of_pos fun c hc => isIndentation_of_mem_text hc]
    exact ⟨_, rfl⟩
  | include_ | activeCamera | fragment => cases he

theorem setsNothing {e : Entry Float32} (he : e.isSetting = false) (d : Nat) :
    ∀ l ∈ e.block.lines d, SetsNothing l.text := by
  cases e with
  | setting key value => cases he
  | include_ p =>
    intro l hl
    rw [List.mem_singleton.1 hl]
    exact .of_start "(include '".toList (by simp [singleQuoted]) rfl (by decide)
  | activeCamera => exact SetsNothing.law.activeCamera.lines d
  | fragment f =>
    refine SetsNothing.law.block ⟨trivial, fun _ _ => trivial, fun _ _ => trivial⟩ ?_ ?_ d
    · refine .of_start ('(' :: f.word.toList) (by simp) rfl ?_
      cases f <;> (simp only [Fragment.word]; decide)
    · exact .of_noParenthesis (by decide)

end Entry

/-! ## Texts -/

theorem shownLines_cons (indent : Indent) (d : Nat) (e : Entry Float32) (es : List (Entry Float32)) :
    shownLines indent d (e :: es) = (e.block.lines d).map (Line.shown indent) ++ shownLines indent d es := by
  rw [shownLines, entryLines_cons, List.map_append, ← shownLines]

/-- Leaving out the lines of render settings is leaving out the render settings. -/
theorem filter_shownLines (indent : Indent) (d : Nat) (es : List (Entry Float32)) :
    (shownLines indent d es).filter (fun l => !isSettingLine l) =
      shownLines indent d (es.filter fun e => !e.isSetting) := by
  induction es with
  | nil => rfl
  | cons e es ih =>
    rw [shownLines_cons, List.filter_append, ih]
    cases he : e.isSetting with
    | true =>
      have hnone : ((e.block.lines d).map (Line.shown indent)).filter (fun l => !isSettingLine l) = [] := by
        refine List.filter_eq_nil_iff.2 fun line hline => ?_
        obtain ⟨l, hl, rfl⟩ := List.mem_map.1 hline
        simp [Entry.isSettingLine_of_isSetting he indent d l hl]
      rw [hnone, List.filter_cons_of_neg (by simp [he]), List.nil_append]
    | false =>
      have hall : ((e.block.lines d).map (Line.shown indent)).filter (fun l => !isSettingLine l) =
          (e.block.lines d).map (Line.shown indent) := by
        refine List.filter_eq_self.2 fun line hline => ?_
        obtain ⟨l, hl, rfl⟩ := List.mem_map.1 hline
        simp [(Entry.setsNothing he d l hl).shown indent l.depth]
      rw [hall, List.filter_cons_of_pos (by simp [he]), shownLines_cons]

/-- The lines of a file, `wrapped` saying whether the form of a scene stands around these. -/
def sceneLines (wrapped : Bool) (ls : List String) : List String :=
  if wrapped then ["(scene"] ++ ls ++ [")"] else ls

/-- How deep the entries of a file stand in its text. -/
def entryDepth (wrapped : Bool) : Nat := if wrapped then 1 else 0

theorem fileText_eq (indent : Indent) (wrapped : Bool) (es : List (Entry Float32)) :
    fileText indent wrapped es = ofLines (sceneLines wrapped (shownLines indent (entryDepth wrapped) es)) := by
  have hflush (text : String) : Line.shown indent ⟨0, text⟩ = text := by
    cases indent <;> simp [Line.shown, Indent.text]
  cases wrapped with
  | false => exact fileText_bare indent es
  | true =>
    rw [fileText_wrapped, hflush, hflush]
    rfl

/-- Texts with the same lines, but for the render settings of the first one. -/
def Unset (text text' : String) : Prop :=
  ∃ ls : List String, (∀ l ∈ ls, Unbroken l) ∧ text = ofLines ls ∧
    text' = ofLines (ls.filter fun l => !isSettingLine l)

/-- Texts with the same lines, but for the render settings of the first one, the form of a scene around
it, and the indentation that this brings. -/
def Unwrapped (indent : Indent) (text text' : String) : Prop :=
  ∃ ls : List String, (∀ l ∈ ls, Unbroken l) ∧
    text = ofLines (sceneLines true (ls.map (indent.text 1 ++ ·))) ∧
    text' = ofLines (ls.filter fun l => !isSettingLine l)

/-- Entries, and the same ones with a camera behind them if there is one. -/
def CameraBehind {α : Type} (es es' : List (Entry α)) : Prop :=
  es' = es ∨ ∃ k aspect, es' = es ++ [.activeCamera, .fragment (.camera k aspect)]

/-- Texts with the same lines, none of which is for a camera, but for the line and the form of a camera at
the end of the scene in the first one, if it has a camera. -/
def Uncamera (indent : Indent) (wrapped : Bool) (text text' : String) : Prop :=
  ∃ es behind : List (Entry Float32), (∀ e ∈ es, e.isCamera = false) ∧ CameraBehind [] behind ∧
    ∃ ls, ls = shownLines indent (entryDepth wrapped) es ∧ (∀ l ∈ ls, Unbroken l) ∧
      text = ofLines (sceneLines wrapped (ls ++ shownLines indent (entryDepth wrapped) behind)) ∧
      text' = ofLines (sceneLines wrapped ls)

section

variable {es : List (Entry Float32)} (h : ∀ e ∈ es, e.Spelled Unbroken) (indent : Indent)

include h

theorem unset_fileText :
    Unset (fileText indent false es) (fileText indent false (es.filter fun e => !e.isSetting)) := by
  refine ⟨shownLines indent 0 es, unbroken_shownLines h indent 0, fileText_eq indent false es, ?_⟩
  rw [filter_shownLines, fileText_bare]

theorem unwrapped_fileText :
    Unwrapped indent (fileText indent true es) (fileText indent false (es.filter fun e => !e.isSetting)) := by
  refine ⟨shownLines indent 0 es, unbroken_shownLines h indent 0, ?_, ?_⟩
  · rw [← shownLines_add indent 1 0 es]
    exact fileText_eq indent true es
  · rw [filter_shownLines, fileText_bare]

theorem uncamera_fileText (wrapped : Bool) (hother : ∀ e ∈ es, e.isCamera = false)
    {es' : List (Entry Float32)} (hbehind : CameraBehind es es') :
    Uncamera indent wrapped (fileText indent wrapped es') (fileText indent wrapped es) := by
  obtain ⟨behind, hcamera, rfl⟩ : ∃ behind, CameraBehind [] behind ∧ es' = es ++ behind := by
    rcases hbehind with rfl | ⟨k, aspect, rfl⟩
    · exact ⟨[], .inl rfl, (List.append_nil _).symm⟩
    · exact ⟨_, .inr ⟨k, aspect, rfl⟩, rfl⟩
  refine ⟨es, behind, hother, hcamera, _, rfl, unbroken_shownLines h indent _, ?_,
    fileText_eq indent wrapped es⟩
  rw [fileText_eq, shownLines, entryLines_append, List.map_append]
  rfl

end

end SceneConvert
