import SceneConvert.Statement.Reader

/-!
# SceneConvert.Proofs.Statement.Spread

Values with every single element written as a list of one. Two values that spread to the same one
mean the same: no accessor tells a value from its spread.

* `Value.spread`, `Parameters.spread`, `Event.spread`: the spread of a value, of all parameters, of a
  statement.
* `get_spread`, `look_spread`, `texture?_spread`: look-ups commute with spreading.
* `Event.map_spread_ofText`: up to spreading, a text is read the same way with and without collapsed
  lists.
-/

namespace SceneConvert

namespace Value

/-- The value as the list of its elements. -/
def spread (v : Value) : Value := .list v.elements

theorem elements_ofWord (s : String) : (ofWord s).elements = [ofWord s] := by
  unfold ofWord
  split
  · rfl
  · split <;> rfl

theorem elements_ofToken (t : Token) : (ofToken t).elements = [ofToken t] := by
  cases t with
  | word s => exact elements_ofWord s
  | _ => rfl

theorem spread_ofList {collapse : Bool} {vs : List Value} (h : ∀ v ∈ vs, v.elements = [v]) :
    (ofList collapse vs).spread = .list vs := by
  unfold ofList
  split
  · rw [spread, h _ (List.mem_singleton_self _)]
  · rfl

end Value

namespace Parameter

def spread (p : Parameter) : Parameter := { p with value := p.value.spread }

@[simp] theorem spread_value (p : Parameter) : p.spread.value = p.value.spread := rfl

theorem spread_declare (key : String) (v : Value) : (declare key v).spread = declare key v.spread := by
  unfold declare
  split <;> rfl

theorem declare_name (key : String) (v w : Value) : (declare key v).name = (declare key w).name := by
  unfold declare
  split <;> rfl

@[simp] theorem declare_value (key : String) (v : Value) : (declare key v).value = v := by
  unfold declare
  split <;> rfl

end Parameter

namespace Parameters

def spread (ps : Parameters) : Parameters := ⟨ps.entries.map Parameter.spread⟩

@[simp] theorem find?_spread (ps : Parameters) (name : String) :
    ps.spread.find? name = (ps.find? name).map Parameter.spread := by
  simp only [find?, spread, List.find?_map]
  rfl

@[simp] theorem contains_spread (ps : Parameters) (name : String) :
    ps.spread.contains name = ps.contains name := by
  simp only [contains, spread, List.any_map]
  rfl

@[simp] theorem unused_spread (ps : Parameters) : ps.spread.unused = ps.unused := by
  simp only [unused, spread, List.filter_map, List.map_map]
  rfl

/-- Marking commutes with spreading when the choice does not depend on the spelling of values. -/
theorem mark_spread (ps : Parameters) (which : Parameter → Bool)
    (h : ∀ p, which p.spread = which p) : ps.spread.mark which = (ps.mark which).spread := by
  have go (entries : List Parameter) :
      mark.go which (entries.map Parameter.spread) = (mark.go which entries).map Parameter.spread := by
    induction entries with
    | nil => rfl
    | cons p entries ih =>
      simp only [List.map_cons, mark.go, h]
      split
      · rfl
      · rw [ih, List.map_cons]
  exact congrArg Parameters.mk (go ps.entries)

theorem get_spread (ps : Parameters) (name : String) :
    ps.spread.get name = ((ps.get name).1.map Parameter.spread, (ps.get name).2.spread) := by
  have hmark := ps.mark_spread (fun p => p.name == name) fun _ => rfl
  rw [get, find?_spread, hmark]
  rfl

theorem look_spread {β : Type} (ps : Parameters) (name : String) {read : Value → Option β}
    (h : ∀ v, read v.spread = read v) :
    ps.spread.look name read = ((ps.look name read).1, (ps.look name read).2.spread) := by
  simp only [look, get_spread, Option.bind_map, Function.comp_def, Parameter.spread_value, h]

theorem find?_entries_spread (ps : Parameters) (which : Parameter → Bool)
    (h : ∀ p, which p.spread = which p) :
    ps.spread.entries.find? which = (ps.entries.find? which).map Parameter.spread := by
  have hwhich : which ∘ Parameter.spread = which := funext h
  rw [spread, List.find?_map, hwhich]

theorem texture?_spread (ps : Parameters) (name : String) :
    ps.spread.texture? name = ((ps.texture? name).1, (ps.texture? name).2.spread) := by
  let which (p : Parameter) : Bool := p.name == name && p.tag == some "texture"
  have hfind := ps.find?_entries_spread which fun _ => rfl
  have hmark := ps.mark_spread which fun _ => rfl
  refine Prod.ext ?_ hmark
  change (ps.spread.entries.find? which).bind (fun p => p.value.word?) = _
  rw [hfind, Option.bind_map]
  rfl

theorem untagged_spread (ps : Parameters) :
    ps.spread.untagged = (ps.untagged.1.map Parameter.spread, ps.untagged.2.spread) := by
  let which (p : Parameter) : Bool := p.tag.isNone
  have hfind := ps.find?_entries_spread which fun _ => rfl
  have hmark := ps.mark_spread which fun _ => rfl
  exact Prod.ext hfind hmark

theorem spread_add (ps : Parameters) (key : String) (v : Value) :
    (ps.add key v).spread = ps.spread.add key v.spread := by
  simp only [add, erase, spread, List.map_append, List.map_cons, List.map_nil,
    Parameter.spread_declare, List.eraseP_map, Parameter.declare_name key v.spread v]
  rfl

end Parameters

/-! ## Reading -/

theorem elements_of_mem_readElements {start : Nat} {xs : List Lexeme} {v : Value}
    (h : v ∈ (readElements start xs).result) : v.elements = [v] := by
  fun_induction readElements start xs with
  | case1 | case2 | case4 => cases h
  | case3 x xs _ _ ih =>
    rcases List.mem_cons.1 h with rfl | h
    · exact Value.elements_ofToken x.token
    · exact ih h

theorem readValue?_spread (c c' : Bool) (xs : List Lexeme) :
    (readValue? c xs).map (·.after Value.spread []) =
      (readValue? c' xs).map (·.after Value.spread []) := by
  cases xs with
  | nil => rfl
  | cons x xs =>
    have flat : ∀ v ∈ (readElements x.line xs).result, v.elements = [v] :=
      fun _ => elements_of_mem_readElements
    simp only [readValue?]
    split
    · simp only [Option.map_some, Reading.after, Value.spread_ofList flat]
    · rfl
    · rfl

/-- The two readings at the start of the same tokens, if there are any. -/
theorem readValue?_cases (c c' : Bool) (xs : List Lexeme) :
    (readValue? c xs = none ∧ readValue? c' xs = none) ∨
    ∃ v v', readValue? c xs = some v ∧ readValue? c' xs = some v' ∧
      v.result.spread = v'.result.spread ∧ v.faults = v'.faults ∧ v.rest = v'.rest := by
  have h := readValue?_spread c c' xs
  cases hv : readValue? c xs with
  | none =>
    rw [hv] at h
    exact .inl ⟨rfl, by simpa using h.symm⟩
  | some v =>
    cases hv' : readValue? c' xs with
    | none => rw [hv, hv'] at h; cases h
    | some v' =>
      rw [hv, hv'] at h
      simp only [Option.map_some, Reading.after, List.nil_append, Option.some.injEq,
        Reading.mk.injEq] at h
      exact .inr ⟨v, v', rfl, rfl, h.1, h.2.1, h.2.2⟩

section

variable {c : Bool} {x : Lexeme} {xs : List Lexeme} {key : String}

theorem readParameters_some {v : Reading Value} (ps : Parameters) (hx : x.token = .quoted key)
    (hv : readValue? c xs = some v) :
    readParameters c ps (x :: xs) =
      (readParameters c (ps.add key v.result) v.rest).after id (x.ownFaults ++ v.faults) := by
  rw [readParameters]
  split
  · rename_i key' hx'
    obtain rfl : key = key' := by simpa using hx.symm.trans hx'
    split
    · rename_i v' hv'
      obtain rfl : v = v' := by simpa using hv.symm.trans hv'
      rfl
    · rename_i hv'
      rw [hv] at hv'; cases hv'
  · rename_i hx'
    exact absurd hx (hx' key)

theorem readParameters_none (ps : Parameters) (hx : x.token = .quoted key)
    (hv : readValue? c xs = none) :
    readParameters c ps (x :: xs) =
      (readParameters c ps xs).after id (x.ownFaults ++ [⟨x.line, .valueMissing key⟩]) := by
  rw [readParameters]
  split
  · rename_i key' hx'
    obtain rfl : key = key' := by simpa using hx.symm.trans hx'
    split
    · rename_i v' hv'
      rw [hv] at hv'; cases hv'
    · rfl
  · rename_i hx'
    exact absurd hx (hx' key)

theorem readParameters_stop (ps : Parameters) (hx : ∀ key, x.token ≠ .quoted key) :
    readParameters c ps (x :: xs) = ⟨ps, [], x :: xs⟩ := by
  rw [readParameters]
  split
  · rename_i key hx'
    exact absurd hx' (hx key)
  · rfl

end

theorem readParameters_spread (c c' : Bool) {ps ps' : Parameters} (hps : ps.spread = ps'.spread)
    (xs : List Lexeme) :
    (readParameters c ps xs).after Parameters.spread [] =
      (readParameters c' ps' xs).after Parameters.spread [] := by
  fun_induction readParameters c ps xs generalizing ps' with
  | case1 ps => simp only [readParameters, Reading.after, hps]
  | case2 ps x xs key hx v hv ih =>
    rcases readValue?_cases c c' xs with ⟨h, _⟩ | ⟨w, w', hw, hw', hresult, hfaults, hrest⟩
    · rw [hv] at h; cases h
    · obtain rfl : v = w := by simpa using hv.symm.trans hw
      have hadd : (ps.add key v.result).spread = (ps'.add key w'.result).spread := by
        rw [Parameters.spread_add, Parameters.spread_add, hps, hresult]
      have tail := ih hadd
      rw [readParameters_some ps' hx hw', ← hfaults, ← hrest]
      simp only [Reading.after, List.nil_append, Reading.mk.injEq, id] at tail ⊢
      exact ⟨tail.1, by rw [tail.2.1], tail.2.2⟩
  | case3 ps x xs key hx hv ih =>
    rcases readValue?_cases c c' xs with ⟨_, h⟩ | ⟨w, _, hw, _⟩
    · have tail := ih hps
      rw [readParameters_none ps' hx h]
      simp only [Reading.after, List.nil_append, Reading.mk.injEq, id] at tail ⊢
      exact ⟨tail.1, by rw [tail.2.1], tail.2.2⟩
    · rw [hv] at hw; cases hw
  | case4 ps x xs hx =>
    rw [readParameters_stop ps' hx]
    simp only [Reading.after, hps]

theorem readOperands_spread (c c' : Bool) (xs : List Lexeme) :
    (readOperands c xs).result.1 = (readOperands c' xs).result.1 ∧
    (readOperands c xs).result.2.spread = (readOperands c' xs).result.2.spread ∧
    (readOperands c xs).faults = (readOperands c' xs).faults ∧
    (readOperands c xs).rest = (readOperands c' xs).rest := by
  unfold readOperands
  split
  · exact ⟨rfl, rfl, rfl, rfl⟩
  · rename_i v _
    have hempty : Parameters.empty.spread = Parameters.empty.spread := rfl
    have h := readParameters_spread c c' hempty v.rest
    simp only [Reading.after, List.nil_append, Reading.mk.injEq] at h
    exact ⟨rfl, h.1, congrArg (v.faults ++ ·) h.2.1, h.2.2⟩

def Statement.spread (st : Statement) : Statement := { st with parameters := st.parameters.spread }

theorem Statement.head_eq_of_spread {st st' : Statement} (h : st'.spread = st.spread) :
    st'.line = st.line ∧ st'.word = st.word := by
  simp only [spread, mk.injEq] at h
  exact ⟨h.1, h.2.1⟩

namespace Event

def spread : Event → Event
  | fault f => .fault f
  | statement st => .statement st.spread

theorem eq_fault_of_spread {e : Event} {f : Fault} (h : e.spread = (fault f).spread) :
    e = .fault f := by
  cases e with
  | fault f' => exact h
  | statement st => cases h

theorem eq_statement_of_spread {e : Event} {st : Statement}
    (h : e.spread = (statement st).spread) : ∃ st', e = .statement st' ∧ st'.spread = st.spread := by
  cases e with
  | fault f => cases h
  | statement st' => exact ⟨st', rfl, by simpa only [spread, statement.injEq] using h⟩

theorem map_spread_ofLexemes (c c' : Bool) (xs : List Lexeme) :
    (ofLexemes c xs).map spread = (ofLexemes c' xs).map spread := by
  fun_induction ofLexemes c xs with
  | case1 => rw [ofLexemes]
  | case2 x xs s hx haction r ih =>
    obtain ⟨hoperand, hparameters, hfaults, hrest⟩ := readOperands_spread c c' xs
    rw [hx] at haction
    rw [ofLexemes, hx]
    simp only [haction, ↓reduceIte, List.map_append, List.map_cons, List.map_map]
    rw [ih]
    simp only [r, hfaults, hrest, spread, Statement.spread, hoperand, hparameters]
  | case3 x xs s hx haction ih =>
    rw [hx] at haction
    rw [ofLexemes, hx]
    simp only [haction, Bool.false_eq_true, ↓reduceIte, List.map_cons, ih]
  | case4 x xs hx ih =>
    rw [ofLexemes]
    split
    · rename_i s hs
      exact absurd hs (hx s)
    · simp only [List.map_append, List.map_cons, ih]

theorem map_spread_ofText (c c' : Bool) (text : String) :
    (ofText c text).map spread = (ofText c' text).map spread :=
  map_spread_ofLexemes c c' (Lexeme.ofText text)

end Event

end SceneConvert
