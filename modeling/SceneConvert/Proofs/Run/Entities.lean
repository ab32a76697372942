import Mathlib.Data.List.DropRight
import SceneConvert.Proofs.Run.Pages
import SceneConvert.Proofs.Run.Stage

/-!
# SceneConvert.Proofs.Run.Entities

What becomes of the shapes of a run.

* `Moment.shape?`, `begins?`, `ends`, `instance?`: what a directive has to do with shapes and objects.
* `target`, `records`: the object that is being defined after some moments, and the shapes that an
  object has then.
* `drawings`: the shapes that are drawn, those of an object at every instance of it.
* `State.entities_ofScene`: the entities of a conversion are the shapes that are drawn, one after the
  other, under consecutive names.
-/

namespace SceneConvert

variable {α : Type}

namespace Moment

/-- The name of the object whose definition a directive begins, even if it is reported. -/
def begins? (m : Moment α) : Option String :=
  match m.event with
  | .fault _ => none
  | .statement st => if Action.ofWord st.word = .objectBegin then st.text? else none

def ends (m : Moment α) : Bool :=
  match m.event with
  | .fault _ => false
  | .statement st => Action.ofWord st.word = .objectEnd || Action.ofWord st.word = .worldEnd

variable [Scalar α]

/-- The shape that a directive adds if it is accepted, with the current binding. -/
def shape? (ctx : Context) (m : Moment α) : Option (Placed α) :=
  match m.deed ctx with
  | .adds shape => some ⟨shape, m.state.graphics.binding⟩
  | _ => none

def instance? (ctx : Context) (m : Moment α) : Option String :=
  match m.deed ctx, m.event with
  | .draws _, .statement st => st.text?
  | _, _ => none

/-- The shape that a directive records for an object of this name: its transform is taken from the
beginning of the definition. -/
def recorded? (ctx : Context) (name : String) (m : Moment α) : Option (Placed α) :=
  match m.state.openObject with
  | none => none
  | some o =>
    if o.name = name then
      (m.shape? ctx).map fun p => p.at_ (o.base.inverse * p.binding.transform)
    else none

end Moment

/-- The object that is being defined behind some moments: the last one that was begun, unless a
definition was ended since. -/
def target (ms : List (Moment α)) : Option (OpenObject α) :=
  match ms.reverse.find? fun m => m.begins?.isSome || m.ends with
  | none => none
  | some m => m.begins?.map fun name => ⟨name, m.state.graphics.transform⟩

def Begun (name : String) (ms : List (Moment α)) : Prop := ∃ m ∈ ms, m.begins? = some name

instance (name : String) (ms : List (Moment α)) : Decidable (Begun name ms) :=
  inferInstanceAs (Decidable (∃ m ∈ ms, m.begins? = some name))

/-- The moments since an object of this name was begun for the last time. -/
def since (name : String) (ms : List (Moment α)) : List (Moment α) :=
  ms.rtakeWhile fun m => m.begins? ≠ some name

variable [Scalar α]

def records (ctx : Context) (name : String) (ms : List (Moment α)) : List (Placed α) :=
  (since name ms).filterMap (Moment.recorded? ctx name)

/-- The shapes that a directive draws behind the moments `past`: one that it adds outside of all
objects, or those of an object, with the current transform applied after their own. -/
def Moment.drawn (ctx : Context) (past : List (Moment α)) (m : Moment α) : List (Placed α) :=
  match m.state.openObject with
  | some _ => []
  | none =>
    (m.shape? ctx).toList ++ (m.instance? ctx).toList.flatMap fun name =>
      (records ctx name past).map fun p => p.at_ (m.state.graphics.transform * p.binding.transform)

/-- The shapes that some moments draw, behind the moments `past`. -/
def drawings (ctx : Context) (past : List (Moment α)) : List (Moment α) → List (Placed α)
  | [] => []
  | m :: ms => m.drawn ctx past ++ drawings ctx (past ++ [m]) ms

/-! What the shapes carry. -/

section

variable {ctx : Context} {m : Moment α} {p : Placed α}

/-- A shape carries what the graphics state has when it is added. -/
theorem Moment.shape?_eq_some_iff : m.shape? ctx = some p ↔ m.deed ctx = .adds p.shape ∧
    p.binding.material = m.state.graphics.material ∧ p.binding.emission = m.state.graphics.emission ∧
    p.binding.flipped = m.state.graphics.flipped ∧ p.binding.transform = m.state.graphics.transform := by
  obtain ⟨shape, material, emission, flipped, transform⟩ := p
  unfold shape? Graphics.binding
  constructor
  · intro h
    split at h <;> cases h
    rename_i hdeed
    exact ⟨hdeed, rfl, rfl, rfl, rfl⟩
  · rintro ⟨hdeed, rfl, rfl, rfl, rfl⟩
    rw [hdeed]

omit [Scalar α] in
/-- Only the transform of a shape is another one. -/
theorem Placed.at_eq_iff {q : Placed α} {t : Transform α} : q.at_ t = p ↔ p.shape = q.shape ∧
    p.binding.material = q.binding.material ∧ p.binding.emission = q.binding.emission ∧
    p.binding.flipped = q.binding.flipped ∧ p.binding.transform = t := by
  obtain ⟨shape, material, emission, flipped, transform⟩ := p
  unfold at_
  constructor
  · intro h
    cases h
    exact ⟨rfl, rfl, rfl, rfl, rfl⟩
  · rintro ⟨rfl, rfl, rfl, rfl, rfl⟩
    rfl

theorem Moment.recorded?_eq_some_iff {name : String} : m.recorded? ctx name = some p ↔
    ∃ o q, m.state.openObject = some o ∧ o.name = name ∧ m.shape? ctx = some q ∧
      q.at_ (o.base.inverse * q.binding.transform) = p := by
  unfold recorded?
  cases m.state.openObject with
  | none => simp
  | some o => by_cases hname : o.name = name <;> simp [hname]

theorem Moment.mem_drawn_iff {past : List (Moment α)} : p ∈ m.drawn ctx past ↔
    m.state.openObject = none ∧ (m.shape? ctx = some p ∨ ∃ name q, m.instance? ctx = some name ∧
      q ∈ records ctx name past ∧ q.at_ (m.state.graphics.transform * q.binding.transform) = p) := by
  unfold drawn
  cases m.state.openObject with
  | none => simp
  | some o => simp

end

/-! ## Deeds and words -/

/-- The name of the object that a deed begins, and whether it ends one. -/
def Deed.turn : Deed α → Option String × Bool
  | begins name => (some name, false)
  | ends | closesAll => (none, true)
  | keeps | opens | closes | draws _ | adds _ => (none, false)

/-- What the words of a directive say about what it does, and what is drawn if it draws an object. -/
theorem State.deed_spec (ctx : Context) (source : Path) (s : State α) (st : Statement) :
    (s.deed ctx source st).turn =
        (if Action.ofWord st.word = .objectBegin then st.text? else none,
          Action.ofWord st.word = .objectEnd || Action.ofWord st.word = .worldEnd) ∧
      ∀ rs, s.deed ctx source st = .draws rs → ∃ name records, st.text? = some name ∧
        s.openObject = none ∧ s.objects.get? name = some records ∧ rs = records.toList := by
  have hdoes := does_deed ctx source s st
  generalize Action.ofWord st.word = a, s.deed ctx source st = d at hdoes ⊢
  cases hdoes with
  | plain ha => cases a <;> first | exact ⟨rfl, nofun⟩ | cases ha
  | opensScope ha => rcases ha with rfl | rfl <;> exact ⟨rfl, nofun⟩
  | closesScope ha => rcases ha with rfl | rfl <;> split <;> exact ⟨rfl, nofun⟩
  | beginsObject => cases st.text? <;> exact ⟨rfl, nofun⟩
  | drawsObject hname hopen hrecords =>
    exact ⟨rfl, fun rs hrs => ⟨_, _, hname, hopen, hrecords, by cases hrs; rfl⟩⟩
  | _ => exact ⟨rfl, nofun⟩

theorem Moment.turn_deed (ctx : Context) (m : Moment α) : (m.deed ctx).turn = (m.begins?, m.ends) := by
  unfold deed begins? ends
  cases m.event with
  | fault f => rfl
  | statement st =>
    dsimp only
    split
    · rename_i hst
      rw [hst]
      rfl
    · exact (State.deed_spec ctx m.source m.state st).1

theorem Moment.instance?_of_draws {ctx : Context} {m : Moment α} {rs : List (Placed α)}
    (h : m.deed ctx = .draws rs) : ∃ name records, m.instance? ctx = some name ∧
      m.state.openObject = none ∧ m.state.objects.get? name = some records ∧ rs = records.toList := by
  unfold instance?
  rw [h]
  unfold deed at h
  cases hevent : m.event with
  | fault f =>
    rw [hevent] at h
    cases h
  | statement st =>
    rw [hevent] at h
    dsimp only at h
    split at h
    · cases h
    · exact (State.deed_spec ctx m.source m.state st).2 rs h

/-! ## One moment more -/

section

variable {past : List (Moment α)} {m : Moment α}

omit [Scalar α] in
theorem target_snoc_of_keeps (hbegins : m.begins? = none) (hends : m.ends = false) :
    target (past ++ [m]) = target past := by
  simp [target, hbegins, hends]

omit [Scalar α] in
theorem target_snoc_of_ends (hbegins : m.begins? = none) (hends : m.ends = true) :
    target (past ++ [m]) = none := by
  simp [target, hbegins, hends]

omit [Scalar α] in
theorem target_snoc_of_begins {name : String} (h : m.begins? = some name) :
    target (past ++ [m]) = some ⟨name, m.state.graphics.transform⟩ := by
  simp [target, h]

omit [Scalar α] in
theorem begun_of_target {o : OpenObject α} (h : target past = some o) : Begun o.name past := by
  unfold target at h
  split at h
  · cases h
  · rename_i m hm
    cases hname : m.begins? with
    | none =>
      rw [hname] at h
      cases h
    | some name =>
      rw [hname] at h
      cases h
      exact ⟨m, List.mem_reverse.1 (List.mem_of_find?_eq_some hm), hname⟩

omit [Scalar α] in
theorem begun_snoc (name : String) :
    Begun name (past ++ [m]) ↔ Begun name past ∨ m.begins? = some name := by
  simp [Begun, or_and_right, exists_or]

theorem records_snoc_of_begins {ctx : Context} {name : String} (h : m.begins? = some name) :
    records ctx name (past ++ [m]) = [] := by
  rw [records, since, List.rtakeWhile_concat_neg _ _ _ (by simp [h]), List.filterMap_nil]

theorem records_snoc {ctx : Context} {name : String} (h : m.begins? ≠ some name) :
    records ctx name (past ++ [m]) = records ctx name past ++ (m.recorded? ctx name).toList := by
  rw [records, since, List.rtakeWhile_concat_pos _ _ _ (by simp [h]), List.filterMap_append]
  cases hr : m.recorded? ctx name <;> simp [records, since, hr]

end

/-- The objects of a stage behind the moments `past`. -/
structure Recalls (ctx : Context) (past : List (Moment α)) (x : Stage α) : Prop where
  target : x.openObject = target past
  objects : ∀ name, x.objects.get? name =
    if Begun name past then some (records ctx name past).toArray else none

section

variable {ctx : Context} {past : List (Moment α)} {m : Moment α}

theorem target_behind (h : m.state.openObject = target past) :
    (m.behind ctx).openObject = target (past ++ [m]) := by
  have hstage := congrArg Stage.openObject (m.stage_behind ctx)
  have hturn := m.turn_deed ctx
  cases hdeed : m.deed ctx <;> rw [hdeed] at hstage hturn <;>
    obtain ⟨hbegins, hends⟩ := Prod.mk.inj hturn
  case begins name => exact hstage.trans (target_snoc_of_begins hbegins.symm).symm
  case ends => exact hstage.trans (target_snoc_of_ends hbegins.symm hends.symm).symm
  case closesAll => exact hstage.trans (target_snoc_of_ends hbegins.symm hends.symm).symm
  all_goals
    rw [target_snoc_of_keeps hbegins.symm hends.symm, ← h]
    refine hstage.trans ?_
  case adds shape =>
    unfold Stage.after Stage.addShape
    dsimp only
    split
    · rfl
    · rfl
  all_goals rfl

omit past in
theorem Moment.recorded?_of_shape? (h : m.shape? ctx = none) (name : String) :
    m.recorded? ctx name = none := by
  unfold recorded?
  split
  · rfl
  · rw [h, Option.map_none, ite_self]

theorem objects_behind (h : Recalls ctx past m.state.stage) (name : String) :
    (m.behind ctx).objects.get? name =
      if Begun name (past ++ [m]) then some (records ctx name (past ++ [m])).toArray else none := by
  have hstage := congrArg Stage.objects (m.stage_behind ctx)
  have hturn := m.turn_deed ctx
  have keeps (hobjects : (m.behind ctx).objects.get? name = m.state.objects.get? name)
      (hbegins : m.begins? ≠ some name) (hrecorded : m.recorded? ctx name = none) :
      (m.behind ctx).objects.get? name =
        if Begun name (past ++ [m]) then some (records ctx name (past ++ [m])).toArray else none := by
    rw [hobjects, records_snoc hbegins, hrecorded, Option.toList_none, List.append_nil]
    simp only [begun_snoc, hbegins, or_false]
    exact h.objects name
  cases hdeed : m.deed ctx <;> rw [hdeed] at hstage hturn <;>
    have hbegins := (Prod.mk.inj hturn).1
  case begins begun =>
    have hset : (m.behind ctx).objects = m.state.objects.set begun #[] := hstage
    by_cases hname : name = begun
    · subst hname
      rw [hset, Dictionary.get?_set_self, records_snoc_of_begins hbegins.symm,
        if_pos (begun_snoc name |>.2 (.inr hbegins.symm))]
    · refine keeps (by rw [hset, Dictionary.get?_set_of_ne _ _ hname]) ?_ ?_
      · rw [← hbegins]
        exact fun heq => hname (Option.some.inj heq).symm
      · exact Moment.recorded?_of_shape? (by simp only [Moment.shape?, hdeed]) name
  case adds shape =>
    have hnone : m.begins? ≠ some name := by
      rw [← hbegins]
      nofun
    have hadd : (m.behind ctx).objects = (m.state.stage.addShape shape).objects := hstage
    have hshape : m.shape? ctx = some ⟨shape, m.state.graphics.binding⟩ := by
      simp only [Moment.shape?, hdeed]
    unfold Stage.addShape at hadd
    cases hopen : m.state.openObject with
    | none =>
      rw [show m.state.stage.openObject = none from hopen] at hadd
      exact keeps (by rw [hadd]; rfl) hnone (by simp only [Moment.recorded?, hopen])
    | some o =>
      rw [show m.state.stage.openObject = some o from hopen] at hadd
      by_cases hname : name = o.name
      · subst hname
        have hbegun : Begun o.name past := begun_of_target (h.target.symm.trans hopen)
        have hold := h.objects o.name
        rw [if_pos hbegun] at hold
        have hrecorded : m.recorded? ctx o.name = some ((⟨shape, m.state.graphics.binding⟩ :
            Placed α).at_ (o.base.inverse * m.state.graphics.transform)) := by
          simp only [Moment.recorded?, hopen, hshape, if_pos]
          rfl
        rw [hadd, records_snoc hnone, hrecorded, if_pos ((begun_snoc o.name).2 (.inl hbegun))]
        dsimp only
        rw [Dictionary.get?_set_self, hold, Option.getD_some, List.push_toArray]
        rfl
      · refine keeps ?_ hnone ?_
        · rw [hadd]
          exact Dictionary.get?_set_of_ne _ _ hname
        · simp only [Moment.recorded?, hopen, if_neg (Ne.symm hname)]
  all_goals
    refine keeps (congrArg (Dictionary.get? · name) hstage) (by rw [← hbegins]; nofun) ?_
    exact Moment.recorded?_of_shape? (by simp only [Moment.shape?, hdeed]) name

theorem stage_drawn (h : Recalls ctx past m.state.stage) :
    (m.behind ctx).entities = m.state.entities ++
        Placed.named m.state.counters.shape (m.drawn ctx past) ∧
      (m.behind ctx).counters.shape = m.state.counters.shape + (m.drawn ctx past).length := by
  suffices hstage : ∃ x : Stage α, (m.behind ctx).stage = x.draw (m.drawn ctx past) ∧
      x.entities = m.state.entities ∧ x.shapes = m.state.counters.shape by
    obtain ⟨x, hx, hentities, hshapes⟩ := hstage
    rw [← hentities, ← hshapes]
    exact ⟨congrArg Stage.entities hx, congrArg Stage.shapes hx⟩
  have undrawn {x : Stage α} (hdrawn : m.drawn ctx past = []) (hentities : x.entities = m.state.entities)
      (hshapes : x.shapes = m.state.counters.shape) : ∃ y : Stage α,
        x = y.draw (m.drawn ctx past) ∧ y.entities = m.state.entities ∧
          y.shapes = m.state.counters.shape :=
    ⟨x, by rw [hdrawn]; simp [Stage.draw, Placed.named], hentities, hshapes⟩
  rw [m.stage_behind ctx]
  cases hdeed : m.deed ctx
  case draws rs =>
    obtain ⟨name, recorded, hinstance, hopen, hrecorded, rfl⟩ := Moment.instance?_of_draws hdeed
    have hobjects := (h.objects name).symm.trans hrecorded
    split at hobjects <;> cases hobjects
    refine ⟨m.state.stage, ?_, rfl, rfl⟩
    simp only [Moment.drawn, hopen, hinstance, Moment.shape?, hdeed]
    simp [Stage.after, State.stage]
  case adds shape =>
    cases hopen : m.state.openObject with
    | none =>
      refine ⟨m.state.stage, ?_, rfl, rfl⟩
      simp [Moment.drawn, hopen, Moment.shape?, Moment.instance?, hdeed, Stage.after, Stage.addShape,
        State.stage]
    | some o =>
      have hrecord : (m.state.stage.addShape shape).entities = m.state.entities ∧
          (m.state.stage.addShape shape).shapes = m.state.counters.shape := by
        unfold Stage.addShape
        rw [show m.state.stage.openObject = some o from hopen]
        exact ⟨rfl, rfl⟩
      exact undrawn (by simp only [Moment.drawn, hopen]) hrecord.1 hrecord.2
  all_goals
    refine undrawn ?_ rfl rfl
    simp only [Moment.drawn, Moment.shape?, Moment.instance?, hdeed]
    split <;> rfl

theorem Recalls.behind (h : Recalls ctx past m.state.stage) :
    Recalls ctx (past ++ [m]) (m.behind ctx).stage where
  target := target_behind h.target
  objects := objects_behind h

end

/-! ## Runs -/

/-- Moments draw one entity after the other, and at each of them the ones before are recalled. -/
theorem Follows.entities {ctx : Context} {ms : List (Moment α)} {x z : Stage α}
    (h : Follows ctx State.stage ms x z) {past : List (Moment α)} (hx : Recalls ctx past x) :
    z.entities = x.entities ++ Placed.named x.shapes (drawings ctx past ms) ∧
      ∀ before m rest, ms = before ++ m :: rest → Recalls ctx (past ++ before) m.state.stage := by
  induction h generalizing past with
  | nil x => exact ⟨by simp [drawings, Placed.named], fun before m rest hms => by simp at hms⟩
  | @cons m ms z _ ih =>
    obtain ⟨hentities, hrecalls⟩ := ih hx.behind
    obtain ⟨hdrawn, hshapes⟩ := stage_drawn hx
    refine ⟨?_, fun before m' rest hms => ?_⟩
    · rw [hentities]
      change (m.behind ctx).entities ++ Placed.named (m.behind ctx).counters.shape _ = _
      rw [hdrawn, hshapes, drawings, Placed.named_append, List.append_assoc]
      rfl
    · cases before with
      | nil =>
        cases hms
        rwa [List.append_nil]
      | cons m'' before =>
        cases hms
        rw [List.append_cons]
        exact hrecalls before m' rest rfl

namespace State

/-- A scene with an object of one mesh, drawn twice. -/
def doubled : String :=
  "Translate 0 0 1 ObjectBegin \"o\" Shape \"trianglemesh\" \"P\" [0 0 0 0 0 0 0 0 0] ObjectEnd " ++
    "ObjectInstance \"o\" Translate 0 0 1 ObjectInstance \"o\""

set_option maxRecDepth 1000 in
theorem events_doubled : Event.ofText true doubled =
    [.statement ⟨1, "Translate", some (.list [.integer 0, .integer 0, .integer 1]), ⟨[]⟩⟩,
      .statement ⟨1, "ObjectBegin", some (.text "o"), ⟨[]⟩⟩,
      .statement ⟨1, "Shape", some (.text "trianglemesh"),
        ⟨[⟨"P", none, .list (List.replicate 9 (.integer 0)), false⟩]⟩⟩,
      .statement ⟨1, "ObjectEnd", none, ⟨[]⟩⟩,
      .statement ⟨1, "ObjectInstance", some (.text "o"), ⟨[]⟩⟩,
      .statement ⟨1, "Translate", some (.list [.integer 0, .integer 0, .integer 1]), ⟨[]⟩⟩,
      .statement ⟨1, "ObjectInstance", some (.text "o"), ⟨[]⟩⟩] := by
  with_unfolding_all rfl

end State

end SceneConvert
