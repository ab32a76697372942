import SceneConvert.Proofs.Statement.Spread
import SceneConvert.Proofs.Token.Append

/-!
# SceneConvert.Proofs.Statement.Resume

Whatever is wrong with the start of a text, reading is back in step at the next line that opens with
the word of a directive.

* `Lexeme.Resumes`: tokens at which no operand, list or parameter goes on.
* `Event.shift`, `Event.meet`: an event further down its text, and an event whose open bracket runs
  into further tokens.
* `Event.ofLexemes_append`: what such tokens are read as does not depend on what stands before them.
* `Event.ofText_append_line`: the same for two texts with a line break between them.
-/

namespace SceneConvert

/-! ## Lines -/

namespace Fault

def shift (n : Nat) (f : Fault) : Fault := { f with line := f.line + n }

end Fault

namespace Reading

variable {β γ : Type}

def shift (n : Nat) (r : Reading β) : Reading β :=
  ⟨r.result, r.faults.map (Fault.shift n), r.rest.map (Lexeme.shift n)⟩

theorem shift_after (n : Nat) (r : Reading β) (make : β → γ) (earlier : List Fault) :
    (r.after make earlier).shift n = (r.shift n).after make (earlier.map (Fault.shift n)) := by
  simp [shift, after]

end Reading

theorem Lexeme.ownFaults_shift (n : Nat) (x : Lexeme) :
    (x.shift n).ownFaults = x.ownFaults.map (Fault.shift n) := by
  simp [ownFaults, shift, Fault.shift]

section

variable (collapse : Bool) (n : Nat)

theorem readElements_shift (start : Nat) (xs : List Lexeme) :
    readElements (start + n) (xs.map (Lexeme.shift n)) = (readElements start xs).shift n := by
  fun_induction readElements start xs with
  | case1 => simp [readElements, Reading.shift, Fault.shift]
  | case2 x xs hclose => simp [readElements, Reading.shift, hclose]
  | case3 x xs hclose hscalar ih =>
    rw [Reading.shift_after, ← ih, ← Lexeme.ownFaults_shift]
    simp [readElements, hclose, hscalar]
  | case4 x xs hclose hscalar =>
    simp [readElements, Reading.shift, Fault.shift, hclose, hscalar]

theorem readValue?_shift (xs : List Lexeme) :
    readValue? collapse (xs.map (Lexeme.shift n)) = (readValue? collapse xs).map (Reading.shift n) := by
  cases xs with
  | nil => rfl
  | cons x xs =>
    simp only [List.map_cons, readValue?, Lexeme.token_shift, Lexeme.line_shift]
    split
    · simp [readElements_shift, Reading.shift_after]
    · simp [Reading.shift, Lexeme.ownFaults_shift]
    · split
      · simp [Reading.shift, List.takeWhile_map, List.dropWhile_map, Function.comp_def]
      · split <;> simp [Reading.shift]

theorem readParameters_shift (ps : Parameters) (xs : List Lexeme) :
    readParameters collapse ps (xs.map (Lexeme.shift n)) =
      (readParameters collapse ps xs).shift n := by
  fun_induction readParameters collapse ps xs with
  | case1 => simp [readParameters, Reading.shift]
  | case2 ps x xs key hx v hv ih =>
    have hx' : (x.shift n).token = .quoted key := hx
    have hv' : readValue? collapse (xs.map (Lexeme.shift n)) = some (v.shift n) := by
      rw [readValue?_shift, hv, Option.map_some]
    rw [List.map_cons, readParameters_some ps hx' hv', Reading.shift_after, ← ih]
    simp [Reading.shift, Lexeme.ownFaults_shift]
  | case3 ps x xs key hx hv ih =>
    have hx' : (x.shift n).token = .quoted key := hx
    have hv' : readValue? collapse (xs.map (Lexeme.shift n)) = none := by
      rw [readValue?_shift, hv, Option.map_none]
    rw [List.map_cons, readParameters_none ps hx' hv', Reading.shift_after, ← ih]
    simp [Lexeme.ownFaults_shift, Fault.shift]
  | case4 ps x xs hx =>
    have hx' : ∀ key, (x.shift n).token ≠ .quoted key := hx
    rw [List.map_cons, readParameters_stop ps hx']
    rfl

theorem readOperands_shift (xs : List Lexeme) :
    readOperands collapse (xs.map (Lexeme.shift n)) = (readOperands collapse xs).shift n := by
  unfold readOperands
  rw [readValue?_shift]
  cases readValue? true xs with
  | none => rfl
  | some v =>
    have hrest := readParameters_shift collapse n .empty v.rest
    simp only [Option.map_some, Reading.shift_after, ← hrest]
    rfl

end

/-- The statement `n` lines further down. -/
def Statement.shift (n : Nat) (st : Statement) : Statement := { st with line := st.line + n }

namespace Event

def shift (n : Nat) : Event → Event
  | fault f => fault (f.shift n)
  | statement st => statement (st.shift n)

theorem ofLexemes_shift (collapse : Bool) (n : Nat) (xs : List Lexeme) :
    ofLexemes collapse (xs.map (Lexeme.shift n)) = (ofLexemes collapse xs).map (shift n) := by
  fun_induction ofLexemes collapse xs with
  | case1 => simp [ofLexemes]
  | case2 x xs s hx haction r ih =>
    rw [hx] at haction
    rw [List.map_cons, ofLexemes, Lexeme.token_shift, hx]
    simp only [haction, ↓reduceIte, readOperands_shift, List.map_append, List.map_cons, ← ih]
    simp [Reading.shift, r, shift, Statement.shift, Function.comp_def]
  | case3 x xs s hx haction ih =>
    rw [hx] at haction
    rw [List.map_cons, ofLexemes, Lexeme.token_shift, hx]
    simp [haction, ih, shift, Fault.shift]
  | case4 x xs hx ih =>
    rw [List.map_cons, ofLexemes, Lexeme.token_shift]
    split
    · rename_i s hs
      exact absurd hs (hx s)
    · simp [ih, shift, Fault.shift, Lexeme.ownFaults_shift]

end Event

/-! ## Further tokens -/

/-- Tokens at which no operand, list or parameter goes on: there are none, or the first one names a
directive. -/
def Lexeme.Resumes (ys : List Lexeme) : Prop := ∀ y ∈ ys.head?, y.token.isAction = true

/-- No token holds a fault of a list. -/
def Lexeme.Sound (xs : List Lexeme) : Prop := ∀ x ∈ xs, .bracketUnclosed ∉ x.faults

/-- A bracket that is left open at the end of the tokens is missed at the first of those that follow. -/
def Fault.meet (ys : List Lexeme) (f : Fault) : Fault :=
  match f.problem, ys with
  | .bracketUnclosed, y :: _ => ⟨y.line, .bracketExpected y.token.display⟩
  | _, _ => f

/-- No bracket is left open at the end of the tokens. -/
def Fault.AllShut (fs : List Fault) : Prop := ∀ f ∈ fs, f.problem ≠ .bracketUnclosed

/-- The only bracket that is left open is the last thing that is wrong. -/
def Fault.OpenAtEnd (fs : List Fault) : Prop :=
  ∃ earlier line, fs = earlier ++ [⟨line, .bracketUnclosed⟩] ∧ AllShut earlier

/-- Whether a closing bracket is missing. -/
def Problem.missesBracket : Problem → Bool
  | bracketExpected _ | bracketUnclosed => true
  | _ => false

namespace Fault

variable {fs gs : List Fault}

theorem allShut_nil : AllShut [] := by simp [AllShut]

theorem allShut_append : AllShut (fs ++ gs) ↔ AllShut fs ∧ AllShut gs := by
  simp only [AllShut, List.forall_mem_append]

theorem allShut_singleton (line : Nat) {p : Problem} (h : p ≠ .bracketUnclosed) :
    AllShut [⟨line, p⟩] := by
  simpa [AllShut] using h

theorem allShut_ownFaults {x : Lexeme} (h : .bracketUnclosed ∉ x.faults) : AllShut x.ownFaults := by
  intro f hf
  obtain ⟨p, hp, rfl⟩ := List.mem_map.1 hf
  exact fun e => h (e ▸ hp)

theorem AllShut.openAtEnd (h : AllShut fs) (h' : OpenAtEnd gs) : OpenAtEnd (fs ++ gs) := by
  obtain ⟨earlier, line, rfl, hearlier⟩ := h'
  exact ⟨fs ++ earlier, line, by simp, allShut_append.2 ⟨h, hearlier⟩⟩

theorem AllShut.map_meet (h : AllShut fs) (ys : List Lexeme) : fs.map (meet ys) = fs := by
  refine (List.map_congr_left fun f hf => ?_).trans (List.map_id fs)
  have hne := h f hf
  unfold meet
  split
  · rename_i heq
    exact absurd heq hne
  · rfl

theorem missesBracket_meet (ys : List Lexeme) (line : Nat) :
    (meet ys ⟨line, .bracketUnclosed⟩).problem.missesBracket = true := by
  cases ys <;> rfl

end Fault

namespace Reading

variable {β γ : Type}

def meet (ys : List Lexeme) (r : Reading β) : Reading β :=
  ⟨r.result, r.faults.map (Fault.meet ys), r.rest ++ ys⟩

theorem meet_after (ys : List Lexeme) (r : Reading β) (make : β → γ) (earlier : List Fault) :
    (r.after make earlier).meet ys = (r.meet ys).after make (earlier.map (Fault.meet ys)) := by
  simp [meet, after]

end Reading

namespace Token

variable {t : Token}

theorem isQuoted_of_isAction (h : t.isAction = true) : t.isQuoted = false := by
  cases t <;> simp_all [isAction, isQuoted]

theorem isNumber_of_isAction (h : t.isAction = true) : t.isNumber = false := by
  cases t <;> simp_all [isAction]

theorem isTruth_of_isAction (h : t.isAction = true) : t.isTruth = false := by
  cases t <;> simp_all [isAction]

theorem isScalar_of_isAction (h : t.isAction = true) : t.isScalar = false := by
  simp [isScalar, isQuoted_of_isAction h, isNumber_of_isAction h, isTruth_of_isAction h]

end Token

namespace Lexeme

variable {x : Lexeme} {xs ys : List Lexeme}

theorem Sound.head (h : Sound (x :: xs)) : .bracketUnclosed ∉ x.faults := h x List.mem_cons_self

theorem Sound.tail (h : Sound (x :: xs)) : Sound xs := fun y hy => h y (List.mem_cons_of_mem x hy)

theorem Sound.suffix (h : Sound xs) (hys : ys <:+ xs) : Sound ys := fun y hy => h y (hys.subset hy)

theorem map_meet_ownFaults (h : .bracketUnclosed ∉ x.faults) (ys : List Lexeme) :
    x.ownFaults.map (Fault.meet ys) = x.ownFaults :=
  (Fault.allShut_ownFaults h).map_meet ys

theorem takeWhile_isNumber_append (hys : Resumes ys) (xs : List Lexeme) :
    (xs ++ ys).takeWhile (·.token.isNumber) = xs.takeWhile (·.token.isNumber) := by
  cases ys with
  | nil => rw [List.append_nil]
  | cons y ys =>
    exact takeWhile_append_cons_of_neg (·.token.isNumber)
      (Token.isNumber_of_isAction (hys y rfl)) xs ys

theorem dropWhile_isNumber_append (hys : Resumes ys) (xs : List Lexeme) :
    (xs ++ ys).dropWhile (·.token.isNumber) = xs.dropWhile (·.token.isNumber) ++ ys := by
  cases ys with
  | nil => rw [List.append_nil, List.append_nil]
  | cons y ys =>
    exact dropWhile_append_cons_of_neg (·.token.isNumber)
      (Token.isNumber_of_isAction (hys y rfl)) xs ys

end Lexeme

/-! ### What is left of the tokens -/

theorem suffix_rest_readElements (start : Nat) (xs : List Lexeme) :
    (readElements start xs).rest <:+ xs := by
  fun_induction readElements start xs with
  | case1 => exact List.suffix_rfl
  | case2 x xs _ => exact List.suffix_cons x xs
  | case3 x xs _ _ ih => exact ih.trans (List.suffix_cons x xs)
  | case4 => exact List.suffix_rfl

theorem suffix_rest_readValue? {collapse : Bool} {xs : List Lexeme} {r : Reading Value}
    (h : readValue? collapse xs = some r) : r.rest <:+ xs := by
  cases xs with
  | nil => cases h
  | cons x xs =>
    refine List.IsSuffix.trans ?_ (List.suffix_cons x xs)
    simp only [readValue?] at h
    split at h
    · cases h
      exact suffix_rest_readElements x.line xs
    · cases h
      exact List.suffix_rfl
    · split at h
      · cases h
        exact List.dropWhile_suffix _
      · split at h
        · cases h
          exact List.suffix_rfl
        · cases h

theorem suffix_rest_readParameters (collapse : Bool) (ps : Parameters) (xs : List Lexeme) :
    (readParameters collapse ps xs).rest <:+ xs := by
  fun_induction readParameters collapse ps xs with
  | case1 => exact List.suffix_rfl
  | case2 ps x xs key hx v hv ih =>
    exact (ih.trans (suffix_rest_readValue? hv)).trans (List.suffix_cons x xs)
  | case3 ps x xs key hx hv ih => exact ih.trans (List.suffix_cons x xs)
  | case4 => exact List.suffix_rfl

theorem suffix_rest_readOperands (collapse : Bool) (xs : List Lexeme) :
    (readOperands collapse xs).rest <:+ xs := by
  unfold readOperands
  split
  · exact List.suffix_rfl
  · rename_i v hv
    exact (suffix_rest_readParameters collapse .empty v.rest).trans (suffix_rest_readValue? hv)

/-! ### Reading into further tokens -/

section

variable {ys : List Lexeme} {collapse : Bool}

theorem readElements_append (hys : Lexeme.Resumes ys) (start : Nat) {xs : List Lexeme}
    (hxs : Lexeme.Sound xs) :
    readElements start (xs ++ ys) = (readElements start xs).meet ys := by
  fun_induction readElements start xs with
  | case1 =>
    cases ys with
    | nil => rfl
    | cons y ys =>
      have haction := hys y rfl
      have hclose : y.token ≠ .closeBracket := fun e => by simp [e, Token.isAction] at haction
      simp [readElements, hclose, Token.isScalar_of_isAction haction, Reading.meet, Fault.meet]
  | case2 x xs hclose => simp [readElements, hclose, Reading.meet]
  | case3 x xs hclose hscalar ih =>
    rw [Reading.meet_after, ← ih hxs.tail, Lexeme.map_meet_ownFaults hxs.head]
    simp [readElements, hclose, hscalar]
  | case4 x xs hclose hscalar => simp [readElements, hclose, hscalar, Reading.meet, Fault.meet]

theorem readValue?_append (hys : Lexeme.Resumes ys) {xs : List Lexeme} (hxs : Lexeme.Sound xs) :
    readValue? collapse (xs ++ ys) = (readValue? collapse xs).map (Reading.meet ys) := by
  cases xs with
  | nil =>
    cases ys with
    | nil => rfl
    | cons y ys =>
      have haction := hys y rfl
      cases ht : y.token with
      | word s =>
        rw [ht] at haction
        simp [readValue?, ht, Token.isNumber_of_isAction haction, Token.isTruth_of_isAction haction]
      | quoted s | openBracket | closeBracket => simp [ht, Token.isAction] at haction
  | cons x xs =>
    simp only [List.cons_append, readValue?]
    split
    · simp [readElements_append hys x.line hxs.tail, Reading.meet_after]
    · simp [Reading.meet, Lexeme.map_meet_ownFaults hxs.head]
    · split
      · simp [Reading.meet, Lexeme.takeWhile_isNumber_append hys,
          Lexeme.dropWhile_isNumber_append hys]
      · split <;> simp [Reading.meet]

theorem readParameters_append (collapse : Bool) (ps : Parameters) (hys : Lexeme.Resumes ys)
    {xs : List Lexeme} (hxs : Lexeme.Sound xs) :
    readParameters collapse ps (xs ++ ys) = (readParameters collapse ps xs).meet ys := by
  fun_induction readParameters collapse ps xs with
  | case1 ps =>
    cases ys with
    | nil => simp [readParameters, Reading.meet]
    | cons y ys =>
      have hquoted := Token.isQuoted_of_isAction (hys y rfl)
      have hy : ∀ key, y.token ≠ .quoted key := fun key e => by simp [e, Token.isQuoted] at hquoted
      rw [List.nil_append, readParameters_stop ps hy]
      rfl
  | case2 ps x xs key hx v hv ih =>
    have hv' : readValue? collapse (xs ++ ys) = some (v.meet ys) := by
      rw [readValue?_append hys hxs.tail, hv, Option.map_some]
    have hrest := hxs.tail.suffix (suffix_rest_readValue? hv)
    rw [List.cons_append, readParameters_some ps hx hv', Reading.meet_after, ← ih hrest]
    simp [Reading.meet, Lexeme.map_meet_ownFaults hxs.head]
  | case3 ps x xs key hx hv ih =>
    have hv' : readValue? collapse (xs ++ ys) = none := by
      rw [readValue?_append hys hxs.tail, hv, Option.map_none]
    rw [List.cons_append, readParameters_none ps hx hv', Reading.meet_after, ← ih hxs.tail]
    simp [Lexeme.map_meet_ownFaults hxs.head, Fault.meet]
  | case4 ps x xs hx =>
    rw [List.cons_append, readParameters_stop ps hx]
    rfl

theorem readOperands_append (hys : Lexeme.Resumes ys) {xs : List Lexeme} (hxs : Lexeme.Sound xs) :
    readOperands collapse (xs ++ ys) = (readOperands collapse xs).meet ys := by
  unfold readOperands
  rw [readValue?_append hys hxs]
  cases hv : readValue? true xs with
  | none => rfl
  | some v =>
    have hrest := readParameters_append collapse .empty hys (hxs.suffix (suffix_rest_readValue? hv))
    simp only [Option.map_some, Reading.meet_after, ← hrest]
    rfl

end

namespace Event

/-- The event when the tokens it was read off are followed by others. -/
def meet (ys : List Lexeme) : Event → Event
  | fault f => fault (f.meet ys)
  | statement st => statement st

theorem statements_shift (n : Nat) (es : List Event) :
    (es.map (shift n)).filterMap statement? = (es.filterMap statement?).map (Statement.shift n) := by
  rw [List.filterMap_map, List.map_filterMap]
  exact congrArg (List.filterMap · es) (funext fun e => by cases e <;> rfl)

theorem faults_shift (n : Nat) (es : List Event) :
    (es.map (shift n)).filterMap fault? = (es.filterMap fault?).map (Fault.shift n) := by
  rw [List.filterMap_map, List.map_filterMap]
  exact congrArg (List.filterMap · es) (funext fun e => by cases e <;> rfl)

theorem statements_meet (ys : List Lexeme) (es : List Event) :
    (es.map (meet ys)).filterMap statement? = es.filterMap statement? := by
  rw [List.filterMap_map]
  exact congrArg (List.filterMap · es) (funext fun e => by cases e <;> rfl)

theorem faults_meet (ys : List Lexeme) (es : List Event) :
    (es.map (meet ys)).filterMap fault? = (es.filterMap fault?).map (Fault.meet ys) := by
  rw [List.filterMap_map, List.map_filterMap]
  exact congrArg (List.filterMap · es) (funext fun e => by cases e <;> rfl)

theorem ofLexemes_append {collapse : Bool} {xs ys : List Lexeme} (hxs : Lexeme.Sound xs)
    (hys : Lexeme.Resumes ys) :
    ofLexemes collapse (xs ++ ys) = (ofLexemes collapse xs).map (meet ys) ++ ofLexemes collapse ys := by
  fun_induction ofLexemes collapse xs with
  | case1 => simp
  | case2 x xs s hx haction r ih =>
    have hrest := ih (hxs.tail.suffix (suffix_rest_readOperands collapse xs))
    rw [hx] at haction
    rw [List.cons_append, ofLexemes, hx]
    simp only [haction, ↓reduceIte, readOperands_append hys hxs.tail]
    simp only [Reading.meet, hrest, r]
    simp [meet, Function.comp_def]
  | case3 x xs s hx haction ih =>
    rw [hx] at haction
    rw [List.cons_append, ofLexemes, hx]
    simp [haction, ih hxs.tail, meet, Fault.meet]
  | case4 x xs hx ih =>
    have hown : (x.ownFaults.map fault).map (meet ys) = x.ownFaults.map fault := by
      rw [List.map_map, show meet ys ∘ fault = fault ∘ Fault.meet ys from rfl, ← List.map_map,
        Lexeme.map_meet_ownFaults hxs.head]
    rw [List.cons_append, ofLexemes]
    split
    · rename_i s hs
      exact absurd hs (hx s)
    · rw [ih hxs.tail, List.map_append, hown]
      simp [meet, Fault.meet]

/-- What a text holds from its second part on does not depend on the first, if the second part
starts a directive on a line of its own. -/
theorem ofText_append_line {collapse : Bool} {a b : String}
    (hb : Lexeme.Resumes (Lexeme.ofText b)) :
    ofText collapse (a ++ "\n" ++ b) =
      (ofText collapse a).map
          (meet ((Lexeme.ofText b).map (Lexeme.shift (a.toList.count '\n' + 1)))) ++
        (ofText collapse b).map (shift (a.toList.count '\n' + 1)) := by
  have hscan : Lexeme.ofText (a ++ "\n" ++ b) =
      Lexeme.ofText a ++ (Lexeme.ofText b).map (Lexeme.shift (a.toList.count '\n' + 1)) := by
    have htext : (a ++ "\n" ++ b).toList = a.toList ++ '\n' :: b.toList := by simp
    rw [Lexeme.ofText, htext, Lexeme.scan_append_line, Lexeme.scan_add]
    rfl
  have hsound : Lexeme.Sound (Lexeme.ofText a) :=
    fun x hx => Lexeme.bracketUnclosed_not_mem_faults hx
  have hresumes : Lexeme.Resumes
      ((Lexeme.ofText b).map (Lexeme.shift (a.toList.count '\n' + 1))) := by
    intro y hy
    rw [List.head?_map, Option.mem_def, Option.map_eq_some_iff] at hy
    obtain ⟨x, hx, rfl⟩ := hy
    exact hb x hx
  rw [ofText, hscan, ofLexemes_append hsound hresumes, ofLexemes_shift]
  rfl

end Event

/-! ## An open bracket -/

namespace Reading

variable {β γ : Type} {r : Reading β}

/-- If a bracket is left open, then at the end of the tokens. -/
def Stops (r : Reading β) : Prop :=
  Fault.AllShut r.faults ∨ Fault.OpenAtEnd r.faults ∧ r.rest = []

theorem Stops.after (h : r.Stops) (make : β → γ) {earlier : List Fault}
    (hearlier : Fault.AllShut earlier) : (r.after make earlier).Stops := by
  rcases h with h | ⟨h, hrest⟩
  · exact .inl (Fault.allShut_append.2 ⟨hearlier, h⟩)
  · exact .inr ⟨hearlier.openAtEnd h, hrest⟩

end Reading

theorem stops_readElements (start : Nat) {xs : List Lexeme} (hxs : Lexeme.Sound xs) :
    (readElements start xs).Stops := by
  fun_induction readElements start xs with
  | case1 => exact .inr ⟨⟨[], start, rfl, Fault.allShut_nil⟩, rfl⟩
  | case2 x xs _ => exact .inl Fault.allShut_nil
  | case3 x xs _ _ ih => exact (ih hxs.tail).after _ (Fault.allShut_ownFaults hxs.head)
  | case4 x xs _ _ => exact .inl (Fault.allShut_singleton _ (by simp))

theorem stops_readValue? {collapse : Bool} {xs : List Lexeme} (hxs : Lexeme.Sound xs)
    {r : Reading Value} (h : readValue? collapse xs = some r) : r.Stops := by
  cases xs with
  | nil => cases h
  | cons x xs =>
    simp only [readValue?] at h
    split at h
    · cases h
      exact (stops_readElements x.line hxs.tail).after _ Fault.allShut_nil
    · cases h
      exact .inl (Fault.allShut_ownFaults hxs.head)
    · split at h
      · cases h
        exact .inl Fault.allShut_nil
      · split at h
        · cases h
          exact .inl Fault.allShut_nil
        · cases h

theorem Reading.Stops.readParameters {β : Type} {v : Reading β} (hv : v.Stops) {collapse : Bool}
    {ps : Parameters} (earlier : List Fault) (hearlier : Fault.AllShut earlier)
    (h : (readParameters collapse ps v.rest).Stops) {γ : Type} (make : Parameters → γ) :
    ((SceneConvert.readParameters collapse ps v.rest).after make (earlier ++ v.faults)).Stops := by
  rcases hv with hv | ⟨hv, hrest⟩
  · exact h.after make (Fault.allShut_append.2 ⟨hearlier, hv⟩)
  · right
    rw [hrest, SceneConvert.readParameters, Reading.after, List.append_nil]
    exact ⟨hearlier.openAtEnd hv, rfl⟩

theorem stops_readParameters {collapse : Bool} {ps : Parameters} {xs : List Lexeme}
    (hxs : Lexeme.Sound xs) : (readParameters collapse ps xs).Stops := by
  fun_induction readParameters collapse ps xs with
  | case1 => exact .inl Fault.allShut_nil
  | case2 ps x xs key hx v hv ih =>
    have hrest := ih (hxs.tail.suffix (suffix_rest_readValue? hv))
    exact (stops_readValue? hxs.tail hv).readParameters _ (Fault.allShut_ownFaults hxs.head) hrest id
  | case3 ps x xs key hx hv ih =>
    refine (ih hxs.tail).after id (Fault.allShut_append.2 ⟨Fault.allShut_ownFaults hxs.head, ?_⟩)
    exact Fault.allShut_singleton _ (by simp)
  | case4 => exact .inl Fault.allShut_nil

theorem stops_readOperands (collapse : Bool) {xs : List Lexeme} (hxs : Lexeme.Sound xs) :
    (readOperands collapse xs).Stops := by
  unfold readOperands
  split
  · exact .inl Fault.allShut_nil
  · rename_i v hv
    have hrest := hxs.suffix (suffix_rest_readValue? hv)
    exact (stops_readValue? hxs hv).readParameters [] Fault.allShut_nil (stops_readParameters hrest) _

namespace Event

def statements (collapse : Bool) (text : String) : List Statement :=
  (ofText collapse text).filterMap statement?

def faults (collapse : Bool) (text : String) : List Fault := (ofText collapse text).filterMap fault?

theorem stops_ofLexemes (collapse : Bool) {xs : List Lexeme} (hxs : Lexeme.Sound xs) :
    Fault.AllShut ((ofLexemes collapse xs).filterMap fault?) ∨
      Fault.OpenAtEnd ((ofLexemes collapse xs).filterMap fault?) := by
  have hlater {fs gs : List Fault} (hfs : Fault.AllShut fs)
      (h : Fault.AllShut gs ∨ Fault.OpenAtEnd gs) :
      Fault.AllShut (fs ++ gs) ∨ Fault.OpenAtEnd (fs ++ gs) :=
    h.imp (fun h => Fault.allShut_append.2 ⟨hfs, h⟩) hfs.openAtEnd
  fun_induction ofLexemes collapse xs with
  | case1 => exact .inl Fault.allShut_nil
  | case2 x xs s hx haction r ih =>
    have hrest := ih (hxs.tail.suffix (suffix_rest_readOperands collapse xs))
    have hmap : (r.faults.map fault).filterMap fault? = r.faults := by
      simp [List.filterMap_map, Function.comp_def, fault?]
    rw [List.filterMap_append, hmap, List.filterMap_cons_none (by rfl)]
    rcases stops_readOperands collapse hxs.tail with h | ⟨h, hend⟩
    · exact hlater h hrest
    · right
      have hnil : ofLexemes collapse r.rest = [] := by rw [hend, ofLexemes]
      simpa [hnil] using h
  | case3 x xs s hx haction ih =>
    have hstray : Problem.strayToken x.token.display ≠ .bracketUnclosed := by simp
    exact hlater (Fault.allShut_singleton x.line hstray) (ih hxs.tail)
  | case4 x xs hx ih =>
    have hmap : (x.ownFaults.map fault).filterMap fault? = x.ownFaults := by
      simp [List.filterMap_map, Function.comp_def, fault?]
    rw [List.filterMap_append, hmap]
    refine hlater (Fault.allShut_ownFaults hxs.head) ?_
    have hstray : Problem.strayToken x.token.display ≠ .bracketUnclosed := by simp
    exact hlater (Fault.allShut_singleton x.line hstray) (ih hxs.tail)

/-- However malformed `a` is, the statements of `a` and `b` on lines of their own are those of `a` and
those of `b`, and so are their faults, except that a bracket left open at the end of `a` may be missed
at another place. -/
theorem statements_and_faults_append_line {collapse : Bool} {a b : String}
    (hb : Lexeme.Resumes (Lexeme.ofText b)) :
    statements collapse (a ++ "\n" ++ b) =
        statements collapse a ++
          (statements collapse b).map (Statement.shift (a.toList.count '\n' + 1)) ∧
      ∃ met, faults collapse (a ++ "\n" ++ b) =
          met ++ (faults collapse b).map (Fault.shift (a.toList.count '\n' + 1)) ∧
        (met = faults collapse a ∨
          ∃ earlier line f, faults collapse a = earlier ++ [⟨line, .bracketUnclosed⟩] ∧
            met = earlier ++ [f] ∧ f.problem.missesBracket = true) := by
  have hsound : Lexeme.Sound (Lexeme.ofText a) :=
    fun x hx => Lexeme.bracketUnclosed_not_mem_faults hx
  unfold statements faults
  rw [ofText_append_line hb, List.filterMap_append, List.filterMap_append, statements_meet,
    statements_shift, faults_meet, faults_shift]
  generalize (Lexeme.ofText b).map (Lexeme.shift (a.toList.count '\n' + 1)) = ys
  refine ⟨rfl, _, rfl, ?_⟩
  rcases stops_ofLexemes collapse hsound with h | ⟨earlier, line, h, hearlier⟩
  · exact .inl (h.map_meet ys)
  · right
    refine ⟨earlier, line, _, h, ?_, Fault.missesBracket_meet ys line⟩
    rw [ofText, h, List.map_append, hearlier.map_meet, List.map_singleton]

/-- A list runs into the end of the first text, and so does a string in it. -/
theorem statements_and_faults_append_line_worldBegin :
    Lexeme.Resumes (Lexeme.ofText "WorldBegin") ∧
      statements true ("Shape \"sphere\" \"float radius\" [2 \"x" ++ "\n" ++ "WorldBegin") =
        statements true "Shape \"sphere\" \"float radius\" [2 \"x" ++
          (statements true "WorldBegin").map (Statement.shift 1) ∧
      ∃ met, faults true ("Shape \"sphere\" \"float radius\" [2 \"x" ++ "\n" ++ "WorldBegin") =
          met ++ (faults true "WorldBegin").map (Fault.shift 1) ∧
        (met = faults true "Shape \"sphere\" \"float radius\" [2 \"x" ∨
          ∃ earlier line f,
            faults true "Shape \"sphere\" \"float radius\" [2 \"x" =
              earlier ++ [⟨line, .bracketUnclosed⟩] ∧
            met = earlier ++ [f] ∧ f.problem.missesBracket = true) := by
  have hb : Lexeme.Resumes (Lexeme.ofText "WorldBegin") := by
    intro y hy
    have hread : Lexeme.ofText "WorldBegin" = [⟨1, .word "WorldBegin", []⟩] := by cbv
    rw [hread] at hy
    cases hy
    decide +kernel
  exact ⟨hb, statements_and_faults_append_line hb⟩

end Event

end SceneConvert
