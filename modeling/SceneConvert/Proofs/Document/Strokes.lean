import SceneConvert.Conversion.Result
import SceneConvert.Proofs.Document.EntryLines

/-!
# SceneConvert.Proofs.Document.Strokes

Texts as they are written stroke by stroke, where every form is opened and closed by a stroke of its own.

* `Stroke`, `Sheet.draw?`: the strokes, and a sheet behind some of them. Closing a form is refused at
  depth zero.
* `Sheet.draw?_strokes`: the strokes of a block are never refused, and write the block.
* `Stroke.Whole`, `Entry.whole_strokes`: an entry is one line, or one form that has only lines in it.
* `Drawn`, `Drawn.append`: behind entries the sheet stands at the depth where it stood before them.
* `exists_sheet_fileText`: the text of a file, whose sheet ends at depth zero.
-/

namespace SceneConvert

/-- A step in writing a text. -/
inductive Stroke where
  | put (text : String)
  | open_ (head : String)
  | close

namespace Sheet

def stroke? (s : Sheet) : Stroke → Option Sheet
  | .put text => some (s.put text)
  | .open_ head => some (s.open_ head)
  | .close => s.close?

def draw? (s : Sheet) (ks : List Stroke) : Option Sheet := ks.foldlM stroke? s

@[simp] theorem draw?_nil (s : Sheet) : s.draw? [] = some s := rfl

theorem draw?_cons (s : Sheet) (k : Stroke) (ks : List Stroke) :
    s.draw? (k :: ks) = (s.stroke? k).bind fun t => t.draw? ks := rfl

theorem draw?_append (s : Sheet) (ks ks' : List Stroke) :
    s.draw? (ks ++ ks') = (s.draw? ks).bind fun t => t.draw? ks' := List.foldlM_append

end Sheet

namespace Block

def strokes : Block → List Stroke
  | line text => [.put text]
  | form head body => .open_ head :: strokesOf body ++ [.close]
where
  strokesOf : List Block → List Stroke
    | [] => []
    | b :: bs => b.strokes ++ strokesOf bs

end Block

mutual

/-- The strokes of a block are never refused. -/
theorem Sheet.draw?_strokes (s : Sheet) (b : Block) : s.draw? b.strokes = some (s.putBlock b) := by
  cases b with
  | line text => simp [Block.strokes, draw?_cons, stroke?, put, putBlock, Block.lines]
  | form head body =>
    rw [Block.strokes, draw?_append, draw?_cons, stroke?, Option.bind_some,
      draw?_strokesOf (s.open_ head) body, Option.bind_some, draw?_cons, stroke?, close?_foldl_open,
      Option.bind_some, draw?_nil]

theorem Sheet.draw?_strokesOf (s : Sheet) (bs : List Block) :
    s.draw? (Block.strokes.strokesOf bs) = some (bs.foldl putBlock s) := by
  cases bs with
  | nil => rfl
  | cons b bs =>
    rw [Block.strokes.strokesOf, draw?_append, draw?_strokes s b, Option.bind_some,
      draw?_strokesOf (s.putBlock b) bs, List.foldl_cons]

end

/-! ## Entries -/

def Entry.strokes (e : Entry Float32) : List Stroke := e.block.strokes

/-- One line, or one form other than that of the scene, which has only lines in it. -/
inductive Stroke.Whole : List Stroke → Prop
  | line (text : String) : Whole [.put text]
  | form (head : String) (texts : List String) :
    head ≠ "scene" → Whole (.open_ head :: texts.map .put ++ [.close])

theorem LineLaw.trivial : LineLaw (fun _ => True) (fun _ => True) (fun _ => True) := by
  constructor <;> intros <;> exact True.intro

theorem strokesOf_lines {bs : List Block} {line : String → Prop} (h : ∀ b ∈ bs, b.IsLine line) :
    ∃ texts : List String, Block.strokes.strokesOf bs = texts.map .put := by
  induction bs with
  | nil => exact ⟨[], rfl⟩
  | cons b bs ih =>
    obtain ⟨text, rfl, -⟩ := h b List.mem_cons_self
    obtain ⟨texts, htexts⟩ := ih fun b hb => h b (List.mem_cons_of_mem _ hb)
    exact ⟨text :: texts, by rw [Block.strokes.strokesOf, htexts]; rfl⟩

/-- Nothing is written while the form of a fragment is open but its own lines. -/
theorem Entry.whole_strokes (e : Entry Float32) : Stroke.Whole e.strokes := by
  cases e with
  | fragment f =>
    have hspelled : f.Spelled fun _ => True := ⟨True.intro, fun _ _ => True.intro, fun _ _ => True.intro⟩
    obtain ⟨texts, htexts⟩ := strokesOf_lines (LineLaw.trivial.body hspelled)
    have hhead : f.word ≠ "scene" := by cases f <;> (simp only [Fragment.word]; decide)
    rw [strokes, block, Fragment.block, Block.strokes, htexts]
    exact .form _ _ hhead
  | setting | include_ | activeCamera => exact .line _

/-- The strokes with which a page of depth `d` begins. -/
def openings (d : Nat) : List Stroke := List.replicate d (.open_ "scene")

def closings (d : Nat) : List Stroke := List.replicate d .close

/-- The sheet of a page of depth `d` behind some entries. -/
structure Drawn (d : Nat) (es : List (Entry Float32)) (sheet : Sheet) : Prop where
  draws : Sheet.empty.draw? (openings d ++ es.flatMap Entry.strokes) = some sheet
  depth : sheet.depth = d

theorem Sheet.draw?_entries (s : Sheet) (es : List (Entry Float32)) :
    s.draw? (es.flatMap Entry.strokes) = some ((es.map Entry.block).foldl putBlock s) := by
  induction es generalizing s with
  | nil => rfl
  | cons e es ih =>
    rw [List.flatMap_cons, draw?_append, Entry.strokes, draw?_strokes, Option.bind_some, ih]
    rfl

theorem Sheet.exists_draw?_openings (d : Nat) (s : Sheet) :
    ∃ t, s.draw? (openings d) = some t ∧ t.depth = s.depth + d := by
  induction d generalizing s with
  | zero => exact ⟨s, rfl, rfl⟩
  | succ d ih =>
    obtain ⟨t, ht, hdepth⟩ := ih (s.open_ "scene")
    refine ⟨t, ht, hdepth.trans ?_⟩
    simp only [open_, put, enter]
    omega

theorem exists_drawn (d : Nat) (es : List (Entry Float32)) : ∃ sheet, Drawn d es sheet := by
  obtain ⟨t, ht, hdepth⟩ := Sheet.exists_draw?_openings d Sheet.empty
  refine ⟨(es.map Entry.block).foldl Sheet.putBlock t, ?_, ?_⟩
  · rw [Sheet.draw?_append, ht, Option.bind_some, Sheet.draw?_entries]
  · rw [Sheet.foldl_putBlock, hdepth]
    exact Nat.zero_add d

theorem Drawn.append {d : Nat} {es : List (Entry Float32)} {sheet : Sheet} (h : Drawn d es sheet)
    (fs : List (Entry Float32)) :
    ∃ sheet', sheet.draw? (fs.flatMap Entry.strokes) = some sheet' ∧ Drawn d (es ++ fs) sheet' := by
  obtain ⟨sheet', h'⟩ := exists_drawn d (es ++ fs)
  have hdraws := h'.draws
  rw [List.flatMap_append, ← List.append_assoc, Sheet.draw?_append, h.draws, Option.bind_some] at hdraws
  exact ⟨sheet', hdraws, h'⟩

/-- The text of a file is that of a sheet which ends at depth zero, no stroke being refused. -/
theorem exists_sheet_fileText (indent : Indent) (wrapped : Bool) (es : List (Entry Float32)) :
    ∃ sheet, Sheet.empty.draw? (openings wrapped.toNat ++ es.flatMap Entry.strokes ++
        closings wrapped.toNat) = some sheet ∧
      sheet.depth = 0 ∧ sheet.render indent = fileText indent wrapped es := by
  cases wrapped with
  | false =>
    refine ⟨(es.map Entry.block).foldl Sheet.putBlock Sheet.empty, ?_, ?_, ?_⟩
    · change Sheet.empty.draw? (es.flatMap Entry.strokes ++ []) = _
      rw [List.append_nil, Sheet.draw?_entries]
    · rw [Sheet.foldl_putBlock]
      rfl
    · rw [Sheet.foldl_putBlock]
      simp [Sheet.render, Sheet.empty, fileText, fileLines]
  | true =>
    refine ⟨Sheet.empty.putBlock (.form "scene" (es.map Entry.block)), ?_, rfl, ?_⟩
    · change Sheet.empty.draw? (.open_ "scene" :: es.flatMap Entry.strokes ++ [.close]) = _
      rw [Sheet.draw?_append, Sheet.draw?_cons, Sheet.stroke?, Option.bind_some, Sheet.draw?_entries,
        Option.bind_some, Sheet.draw?_cons, Sheet.stroke?, Sheet.close?_foldl_open]
      rfl
    · simp [Sheet.render, Sheet.putBlock, Sheet.empty, fileText, fileLines, Block.lines.linesOf]

end SceneConvert
