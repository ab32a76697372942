import SceneConvert.Proofs.Run.History

/-!
# SceneConvert.Proofs.Run.Entrances

The files that a run enters, and what holds at every moment of a run, given the moments before it.

* `Entrance`: a directive that enters a file. `Entrance.inner`, `Entrance.behind`: the states at the end
  of the file and behind the directive.
* `entrances`: those among some moments, in order.
* `Runs.suffix_stack`: a run leaves none of the files that are being converted when it starts.
* `Invariant`: something that is kept when an event enters no file, when a file is entered and when it is
  left. `Runs.invariant`: it holds at every moment of a run and at its end.
-/

namespace SceneConvert

/-- An include directive and the file that it enters. -/
structure Entrance (α : Type) where
  /-- The state before the directive. -/
  state : State α
  source : Path
  stack : List Path
  directive : Statement
  file : IncludedFile

namespace Entrance

variable {α : Type} (x : Entrance α)

def moment : Moment α := ⟨x.state, x.source, x.stack, .statement x.directive⟩

def before : State α := x.state.moveTo x.source x.directive.line

variable [Scalar α] (ctx : Context)

/-- The directive does enter the file. -/
structure Happens : Prop where
  includes : Action.ofWord x.directive.word = .include_
  enters : Inclusion.ofStatement ctx x.stack x.before x.source x.directive = .ok (.enter x.file)

/-- The output file, unless the file goes into the one that includes it. -/
def output : Option Path := (x.before.enterFile ctx x.file).1

def events : List Event := Event.ofText ctx.options.collapseLists x.file.text

def inner : State α :=
  (x.before.enterFile ctx x.file).2.run ctx x.file.path (x.file.key :: x.stack) (x.events ctx)

def behind : State α := (x.inner ctx).leaveFile x.before x.file (x.output ctx)

end Entrance

variable {α : Type} {ctx : Context}

/-- The file that the event of a moment enters. -/
def Moment.entrance? (ctx : Context) (m : Moment α) : Option (Entrance α) :=
  match m.event with
  | .fault _ => none
  | .statement st =>
    if Action.ofWord st.word = .include_ then
      match Inclusion.ofStatement ctx m.stack (m.state.moveTo m.source st.line) m.source st with
      | .ok (.enter file) => some ⟨m.state, m.source, m.stack, st, file⟩
      | .ok (.repeated ..) | .error _ => none
    else none

theorem Moment.entrance?_eq_some {m : Moment α} {x : Entrance α} :
    m.entrance? ctx = some x ↔ x.moment = m ∧ x.Happens ctx := by
  constructor
  · intro h
    unfold entrance? at h
    split at h
    · cases h
    · rename_i st hevent
      split at h
      · rename_i hst
        split at h
        · rename_i file hi
          cases h
          exact ⟨by rw [Entrance.moment, ← hevent], hst, hi⟩
        all_goals cases h
      · cases h
  · rintro ⟨rfl, hst, hi⟩
    have hi' : Inclusion.ofStatement ctx x.stack (x.state.moveTo x.source x.directive.line) x.source
      x.directive = _ := hi
    simp only [entrance?, Entrance.moment, if_pos hst, hi']

/-- The files that are entered at some moments. -/
def entrances (ctx : Context) (ms : List (Moment α)) : List (Entrance α) :=
  ms.filterMap (Moment.entrance? ctx)

theorem mem_entrances {x : Entrance α} {ms : List (Moment α)} :
    x ∈ entrances ctx ms ↔ x.moment ∈ ms ∧ x.Happens ctx := by
  simp only [entrances, List.mem_filterMap, Moment.entrance?_eq_some]
  exact ⟨by rintro ⟨m, hm, rfl, hx⟩; exact ⟨hm, hx⟩, fun h => ⟨_, h.1, rfl, h.2⟩⟩

theorem entrances_append (ms ms' : List (Moment α)) :
    entrances ctx (ms ++ ms') = entrances ctx ms ++ entrances ctx ms' := List.filterMap_append

theorem Entrance.Happens.entrances {x : Entrance α} (h : x.Happens ctx) :
    entrances ctx [x.moment] = [x] := by
  rw [SceneConvert.entrances, List.filterMap_cons, Moment.entrance?_eq_some.2 ⟨rfl, h⟩]
  rfl

variable [Scalar α]

theorem Tick.entrance? {source : Path} {stack : List Path} {event : Event} {s t : State α}
    (h : Tick ctx source stack event s t) :
    (⟨s, source, stack, event⟩ : Moment α).entrance? ctx = none := by
  cases h with
  | fault f => rfl
  | refused hst hi | repeated hst hi => simp only [Moment.entrance?, if_pos hst, hi]
  | directive hst => simp only [Moment.entrance?, if_neg hst]

theorem Tick.entrances {source : Path} {stack : List Path} {event : Event} {s t : State α}
    (h : Tick ctx source stack event s t) :
    entrances ctx [(⟨s, source, stack, event⟩ : Moment α)] = [] := by
  rw [SceneConvert.entrances, List.filterMap_cons, h.entrance?]
  rfl

theorem Runs.suffix_stack {source : Path} {stack : List Path} {events : List Event} {s t : State α}
    {ms : List (Moment α)} (h : Runs ctx source stack events s ms t) : ∀ m ∈ ms, stack <:+ m.stack := by
  induction h with
  | nil | halted => exact List.forall_mem_nil _
  | tick _ _ _ ih => exact List.forall_mem_cons.2 ⟨List.suffix_rfl, ih⟩
  | enter _ _ _ _ _ ihwithin ih =>
    refine List.forall_mem_cons.2 ⟨List.suffix_rfl, List.forall_mem_append.2 ⟨fun m hm => ?_, ih⟩⟩
    exact (List.suffix_cons _ _).trans (ihwithin m hm)

/-! ## Invariants -/

/-- `I past source stack events s` can hold of the state `s` in front of some events of the file
`source`, behind the moments `past`, and goes on to hold as these become more. -/
structure Invariant (ctx : Context)
    (I : List (Moment α) → Path → List Path → List Event → State α → Prop) : Prop where
  tick : ∀ {past source stack event events s t}, I past source stack (event :: events) s →
    Tick ctx source stack event s t → I (past ++ [⟨s, source, stack, event⟩]) source stack events t
  enter : ∀ {past events} {x : Entrance α},
    I past x.source x.stack (.statement x.directive :: events) x.state → x.Happens ctx →
    I (past ++ [x.moment]) x.file.path (x.file.key :: x.stack) (x.events ctx)
      (x.before.enterFile ctx x.file).2
  leave : ∀ {past within events rest} {x : Entrance α},
    I past x.source x.stack (.statement x.directive :: events) x.state → x.Happens ctx →
    Runs ctx x.file.path (x.file.key :: x.stack) (x.events ctx) (x.before.enterFile ctx x.file).2 within
      (x.inner ctx) →
    I (past ++ x.moment :: within) x.file.path (x.file.key :: x.stack) rest (x.inner ctx) →
    I (past ++ x.moment :: within) x.source x.stack events (x.behind ctx)

/-- An invariant holds at the end of a run, whatever events are left there, and at each of its moments. -/
theorem Runs.invariant {I : List (Moment α) → Path → List Path → List Event → State α → Prop}
    (hI : Invariant ctx I) {source : Path} {stack : List Path} {events : List Event} {s t : State α}
    {ms : List (Moment α)} (h : Runs ctx source stack events s ms t) {past : List (Moment α)}
    (hs : I past source stack events s) :
    (∃ rest, I (past ++ ms) source stack rest t) ∧
      ∀ earlier m later, ms = earlier ++ m :: later →
        ∃ rest, I (past ++ earlier) m.source m.stack (m.event :: rest) m.state := by
  induction h generalizing past with
  | nil | halted => exact ⟨⟨_, by rwa [List.append_nil]⟩, fun earlier m later h => by simp at h⟩
  | @tick source stack event events s t u ms _ htick _ ih =>
    obtain ⟨⟨rest, hu⟩, hms⟩ := ih (hI.tick hs htick)
    rw [List.append_assoc] at hu
    refine ⟨⟨rest, hu⟩, fun earlier m later h => ?_⟩
    rcases List.cons_eq_append_iff.1 h with ⟨rfl, h⟩ | ⟨earlier, rfl, rfl⟩
    · cases h
      exact ⟨events, by rwa [List.append_nil]⟩
    · rw [List.append_cons]
      exact hms earlier m later rfl
  | @enter source stack st events s inner u file within ms _ hst hi hwithin _ ihwithin ih =>
    let x : Entrance α := ⟨s, source, stack, st, file⟩
    have hx : x.Happens ctx := ⟨hst, hi⟩
    obtain rfl : inner = x.inner ctx := hwithin.eq_run
    have hs' : I past x.source x.stack (.statement x.directive :: events) x.state := hs
    obtain ⟨⟨rest, hinner⟩, hwithins⟩ := ihwithin (hI.enter hs' hx)
    rw [List.append_assoc, List.singleton_append] at hinner
    obtain ⟨⟨rest', hu⟩, hms⟩ := ih (hI.leave hs' hx hwithin hinner)
    rw [List.append_assoc] at hu
    refine ⟨⟨rest', hu⟩, fun earlier m later h => ?_⟩
    rw [List.cons_append] at h
    rcases List.cons_eq_append_iff.1 h with ⟨rfl, h⟩ | ⟨earlier, rfl, hrest⟩
    · cases h
      exact ⟨events, by rwa [List.append_nil]⟩
    · rcases List.append_eq_append_iff.1 hrest with ⟨between, rfl, hlater⟩ | ⟨between, rfl, hlater⟩
      · have := hms between m later hlater
        rwa [List.append_assoc, List.cons_append] at this
      · rcases List.cons_eq_append_iff.1 hlater with ⟨rfl, hfirst⟩ | ⟨between, rfl, -⟩
        · have := hms [] m later hfirst
          rwa [List.append_nil, List.append_nil] at this
        · rw [List.append_cons]
          exact hwithins earlier m between rfl

end SceneConvert
