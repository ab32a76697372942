import Mathlib.Data.List.Basic
import SceneConvert.Proofs.Text.Avoids

/-!
# SceneConvert.Proofs.Text.Nesting

Brackets of a text. What stands between single quotes counts as an atom.

* `Nesting`, `Nesting.read`: reading a text while keeping account of the brackets that are open.
* `Bracketed`: a text that closes all brackets that it opens, each with its own kind, and no others.
* `Neutral`: a text that can stand anywhere in a bracketed text, outside quotes.
-/

namespace SceneConvert

/-- What a reader of brackets knows in the middle of a text. -/
structure Nesting where
  /-- The brackets that close what is open, the innermost first. -/
  awaited : List Char
  /-- Whether the reader is between single quotes. -/
  quoted : Bool
  deriving DecidableEq

namespace Nesting

def start : Nesting := ⟨[], false⟩

/-- One more character. A closing bracket has to be the one that is awaited first. -/
def step (n : Nesting) (c : Char) : Option Nesting :=
  if c = '\'' then some { n with quoted := !n.quoted }
  else if n.quoted then some n
  else match c, n.awaited with
    | '(', _ => some { n with awaited := ')' :: n.awaited }
    | '[', _ => some { n with awaited := ']' :: n.awaited }
    | ')', ')' :: outer => some { n with awaited := outer }
    | ']', ']' :: outer => some { n with awaited := outer }
    | ')', _ | ']', _ => none
    | _, _ => some n

def read (n : Nesting) (cs : List Char) : Option Nesting := cs.foldlM step n

theorem read_cons (n : Nesting) (c : Char) (cs : List Char) :
    n.read (c :: cs) = (n.step c).bind fun m => m.read cs := rfl

theorem read_append (n : Nesting) (cs ds : List Char) :
    n.read (cs ++ ds) = (n.read cs).bind fun m => m.read ds := List.foldlM_append

/-- A character that is neither a bracket nor a quote. -/
def isNeutral (c : Char) : Bool := c ∉ ['\'', '(', ')', '[', ']']

theorem step_of_isNeutral {c : Char} (h : isNeutral c = true) (n : Nesting) : n.step c = some n := by
  simp only [isNeutral, List.mem_cons, List.not_mem_nil, or_false, not_or, decide_eq_true_eq] at h
  obtain ⟨hquote, hopen, hclose, hopen', hclose'⟩ := h
  unfold step
  rw [if_neg hquote]
  split
  · rfl
  · split <;> first | contradiction | rfl

theorem read_of_isNeutral {cs : List Char} (h : cs.all isNeutral = true) (n : Nesting) :
    n.read cs = some n := by
  induction cs with
  | nil => rfl
  | cons c cs ih =>
    simp only [List.all_cons, Bool.and_eq_true] at h
    rw [read_cons, step_of_isNeutral h.1, Option.bind_some, ih h.2]

theorem step_quoted {c : Char} (h : c ≠ '\'') (awaited : List Char) :
    step ⟨awaited, true⟩ c = some ⟨awaited, true⟩ := by
  unfold step
  rw [if_neg h, if_pos rfl]

theorem read_quoted {cs : List Char} (h : '\'' ∉ cs) (awaited : List Char) :
    read ⟨awaited, true⟩ cs = some ⟨awaited, true⟩ := by
  induction cs with
  | nil => rfl
  | cons c cs ih =>
    obtain ⟨hc, hcs⟩ := not_or.1 (List.mem_cons.not.1 h)
    rw [read_cons, step_quoted (Ne.symm hc), Option.bind_some, ih hcs]

end Nesting

/-- All brackets of the text are closed, and no others. -/
def Bracketed (s : String) : Prop := Nesting.start.read s.toList = some Nesting.start

instance (s : String) : Decidable (Bracketed s) :=
  inferInstanceAs (Decidable (Nesting.start.read s.toList = some Nesting.start))

/-- Outside quotes, the text leaves every reader as it was. -/
def Neutral (s : String) : Prop :=
  ∀ awaited, Nesting.read ⟨awaited, false⟩ s.toList = some ⟨awaited, false⟩

namespace Neutral

variable {s t : String}

theorem isBracketed (h : Neutral s) : Bracketed s := h []

theorem of_isNeutral (h : s.toList.all Nesting.isNeutral = true) : Neutral s :=
  fun _ => Nesting.read_of_isNeutral h _

theorem append (hs : Neutral s) (ht : Neutral t) : Neutral (s ++ t) := by
  intro awaited
  rw [String.toList_append, Nesting.read_append, hs awaited, Option.bind_some, ht awaited]

theorem join {ts : List String} (h : ∀ t ∈ ts, Neutral t) : Neutral (String.join ts) := by
  induction ts with
  | nil => exact fun _ => rfl
  | cons t ts ih =>
    rw [String.join_cons]
    exact (h t List.mem_cons_self).append (ih fun t ht => h t (List.mem_cons_of_mem _ ht))

/-- Between an opening and a closing text, in the middle of which `s` changes nothing. -/
theorem enclosed {opening closing : String}
    (h : ∀ awaited, ∃ n, Nesting.read ⟨awaited, false⟩ opening.toList = some n ∧
      n.read s.toList = some n ∧ n.read closing.toList = some ⟨awaited, false⟩) :
    Neutral (opening ++ s ++ closing) := by
  intro awaited
  obtain ⟨n, hopening, hs, hclosing⟩ := h awaited
  rw [String.toList_append, String.toList_append, Nesting.read_append, Nesting.read_append, hopening,
    Option.bind_some, hs, Option.bind_some, hclosing]

theorem parenthesized (h : Neutral s) : Neutral ("(" ++ s ++ ")") :=
  enclosed fun awaited => ⟨⟨')' :: awaited, false⟩, rfl, h _, rfl⟩

theorem bracketed (h : Neutral s) : Neutral ("[" ++ s ++ "]") :=
  enclosed fun awaited => ⟨⟨']' :: awaited, false⟩, rfl, h _, rfl⟩

theorem quoted (h : Avoids '\'' s) : Neutral ("'" ++ s ++ "'") :=
  enclosed fun awaited => ⟨⟨awaited, true⟩, rfl, Nesting.read_quoted h awaited, rfl⟩

end Neutral

/-- A bracket inside quotes is no bracket; a bracket of the other kind closes nothing. -/
example : Bracketed "(a [1,2] ':)')" ∧ ¬Bracketed "(a [1,2) ']'" := by decide

end SceneConvert
