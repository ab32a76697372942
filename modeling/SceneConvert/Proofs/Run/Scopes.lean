import SceneConvert.Proofs.Run.Stage

/-!
# SceneConvert.Proofs.Run.Scopes

The graphics state and the saved ones.

* `ScopeRole`: whether a directive opens a scope, closes one or closes all.
* `saved_behind`, `graphics_behind`: what that makes of the saved states and of the current one, be the
  directive rejected or not.
* `Nested`, `Balanced`: moments that close no scope which was open before, and leave none open.
* `Runs.restores_scopes`: what is balanced restores the saved states, and the current one too unless it
  is changed outside of the scopes. A scope too many is never closed.
-/

namespace SceneConvert

/-- What a directive asks for as to scopes. -/
inductive ScopeRole where
  | opens
  | closes
  | closesAll
  | keeps
  deriving Repr, DecidableEq

/-- The definition of an object without a name is rejected, and opens no scope. -/
def Statement.scopeRole (st : Statement) : ScopeRole :=
  match Action.ofWord st.word with
  | .attributeBegin | .transformBegin => .opens
  | .objectBegin => if st.text?.isSome then .opens else .keeps
  | .attributeEnd | .transformEnd | .objectEnd => .closes
  | .worldEnd => .closesAll
  | _ => .keeps

variable {α : Type}

namespace ScopeRole

/-- The saved graphics states behind a directive: `g` is the current one, `gs` are the saved ones. -/
def saved (g : Graphics α) (gs : List (Graphics α)) : ScopeRole → List (Graphics α)
  | opens => g :: gs
  | closes => gs.tail
  | closesAll => []
  | keeps => gs

/-- The graphics state behind a directive that has to do with scopes. -/
def restored (g : Graphics α) (gs : List (Graphics α)) : ScopeRole → Graphics α
  | opens | keeps => g
  | closes => gs.headD g
  | closesAll => gs.getLast?.getD g

end ScopeRole

namespace Deed

def scopeRole : Deed α → ScopeRole
  | opens | begins _ => .opens
  | closes | ends => .closes
  | closesAll => .closesAll
  | keeps | draws _ | adds _ => .keeps

end Deed

namespace Stage

variable [Scalar α]

theorem saved_after (x : Stage α) (g : Graphics α) (d : Deed α) :
    (x.after g d).saved = d.scopeRole.saved x.graphics x.saved := by
  cases d with
  | adds shape =>
    unfold after addShape
    dsimp only
    split <;> rfl
  | _ => rfl

theorem graphics_after (x : Stage α) (g : Graphics α) {d : Deed α} (h : d.scopeRole ≠ .keeps) :
    (x.after g d).graphics = d.scopeRole.restored x.graphics x.saved := by
  cases d with
  | keeps | draws records | adds shape => exact absurd rfl h
  | _ => rfl

end Stage

/-! ## Directives -/

theorem Statement.word_of_objectEnd {st : Statement} (h : Action.ofWord st.word = .objectEnd) :
    st.word = "ObjectEnd" := by
  have only : ∀ e ∈ Action.words, e.2 = .objectEnd → e.1 = "ObjectEnd" := by decide
  unfold Action.ofWord at h
  cases hlookup : Action.words.lookup st.word with
  | none =>
    rw [hlookup] at h
    cases h
  | some a =>
    rw [hlookup] at h
    obtain ⟨before, after, hwords, -⟩ := List.lookup_eq_some_iff.1 hlookup
    exact only (st.word, a) (hwords ▸ List.mem_append_right _ List.mem_cons_self) h

namespace State

/-- The reports about scopes. -/
def stackReports (s : State α) : List Diagnostic := s.diagnostics.filter fun d => d.kind = .stack

theorem stackReports_of_stack (s : State α) {p : Problem} (h : p.kind = .stack) :
    (s.reportProblem p).stackReports = s.stackReports ++ [p.diagnostic s.location.1 s.location.2] := by
  rw [stackReports, reportProblem, diagnostics_note, List.filter_append]
  simp [Note.diagnostic?, Problem.diagnostic, h, stackReports]

theorem stackReports_of_other (s : State α) {p : Problem} (h : p.kind ≠ .stack) :
    (s.reportProblem p).stackReports = s.stackReports := by
  rw [stackReports, reportProblem, diagnostics_note, List.filter_append]
  simp [Note.diagnostic?, Problem.diagnostic, h, stackReports]

variable [Scalar α] {ctx : Context} {source : Path} {s : State α} {st : Statement}

theorem scopeRole_deed (h : st.scopeRole = .closes → s.saved ≠ []) :
    (s.deed ctx source st).scopeRole = st.scopeRole := by
  unfold Statement.scopeRole at h ⊢
  have hdoes := does_deed ctx source s st
  generalize Action.ofWord st.word = a, s.deed ctx source st = d at h hdoes ⊢
  cases hdoes with
  | plain ha => cases a <;> first | rfl | cases ha
  | opensScope ha => rcases ha with rfl | rfl <;> rfl
  | closesScope ha =>
    have hopen : s.saved.isEmpty = false := by rcases ha with rfl | rfl <;> simpa using h rfl
    rw [hopen]
    rcases ha with rfl | rfl <;> rfl
  | beginsObject => cases st.text? <;> rfl
  | _ => rfl

/-- A scope too many is not closed, which is reported once. -/
theorem apply_of_unmatched (ctx : Context) (source : Path) (h : st.scopeRole = .closes)
    (hsaved : s.saved = []) :
    (s.apply ctx source st).graphics = s.graphics ∧ (s.apply ctx source st).saved = [] ∧
      (s.apply ctx source st).stackReports =
        s.stackReports ++ [(Problem.scopeUnmatched st.word).diagnostic source st.line] := by
  have hempty : s.saved.isEmpty = true := by simp [hsaved]
  have hend : (Action.ofWord st.word = .attributeEnd ∨ Action.ofWord st.word = .transformEnd) ∨
      Action.ofWord st.word = .objectEnd := by
    unfold Statement.scopeRole at h
    split at h
    case h_3 => split at h <;> cases h
    all_goals simp_all
  rcases hend with hclose | hobject
  · have hs : s.apply ctx source st =
        (s.moveTo source st.line).reportProblem (.scopeUnmatched st.word) := by
      rw [apply_eq_conclude, survey_closeScope hclose, if_pos hempty]
      rfl
    rw [hs]
    exact ⟨rfl, hsaved, stackReports_of_stack (s.moveTo source st.line) rfl⟩
  · have hstage := stage_apply ctx source s st
    rw [deed_endObject hobject] at hstage
    have hgraphics : (s.apply ctx source st).graphics = s.saved.headD s.graphics :=
      congrArg Stage.graphics hstage
    have hrest : (s.apply ctx source st).saved = s.saved.tail := congrArg Stage.saved hstage
    rw [hsaved] at hgraphics hrest
    refine ⟨hgraphics, hrest, ?_⟩
    have hconclude (t : State α) (ht : t.saved = []) (p : Problem) :
        t.conclude ctx.options (.ok ⟨.endObject, some p, []⟩) =
          ({ t with openObject := none } : State α).reportProblem p := by
      simp only [conclude, Change.commit, pop, ht, List.foldl_nil]
    rw [apply_eq_conclude, survey_endObject hobject, if_pos hempty, Statement.word_of_objectEnd hobject]
    -- the end of no object is reported before, but not as one of a scope
    let t := s.moveTo source st.line
    cases s.openObject with
    | none =>
      have hstray := stackReports_of_other t (p := .objectEndStray) (by decide)
      refine (congrArg stackReports (hconclude (t.reportProblem .objectEndStray) hsaved _)).trans ?_
      exact (stackReports_of_stack _ rfl).trans (congrArg (· ++ _) hstray)
    | some o =>
      refine (congrArg stackReports (hconclude t hsaved _)).trans ?_
      exact stackReports_of_stack _ rfl

end State

/-! ## Moments -/

namespace Moment

def scopeRole (m : Moment α) : ScopeRole :=
  match m.event with
  | .fault _ => .keeps
  | .statement st => st.scopeRole

variable [Scalar α]

theorem scopeRole_deed (ctx : Context) {m : Moment α} (h : m.scopeRole = .closes → m.state.saved ≠ []) :
    (m.deed ctx).scopeRole = m.scopeRole := by
  unfold scopeRole at h ⊢
  unfold deed
  cases hevent : m.event with
  | fault f => rfl
  | statement st =>
    rw [hevent] at h
    by_cases hst : Action.ofWord st.word = .include_
    · simp only [Statement.scopeRole, hst]
      rfl
    · simp only [if_neg hst]
      exact State.scopeRole_deed h

theorem behind_of_unmatched (ctx : Context) {m : Moment α} (h : m.scopeRole = .closes)
    (hsaved : m.state.saved = []) :
    (m.behind ctx).graphics = m.state.graphics ∧ (m.behind ctx).saved = [] ∧
      ∃ d : Diagnostic, d.kind = .stack ∧
        (m.behind ctx).stackReports = m.state.stackReports ++ [d] := by
  unfold scopeRole at h
  cases hevent : m.event with
  | fault f => rw [hevent] at h; cases h
  | statement st =>
    rw [hevent] at h
    have hst : Action.ofWord st.word ≠ .include_ := by
      intro hst
      simp only [Statement.scopeRole, hst] at h
      cases h
    simp only [behind, hevent, if_neg hst]
    obtain ⟨hgraphics, hrest, hreports⟩ := State.apply_of_unmatched ctx m.source h hsaved
    exact ⟨hgraphics, hrest, _, rfl, hreports⟩

theorem saved_behind (ctx : Context) (m : Moment α) :
    (m.behind ctx).saved = m.scopeRole.saved m.state.graphics m.state.saved := by
  by_cases h : m.scopeRole = .closes ∧ m.state.saved = []
  · rw [(behind_of_unmatched ctx h.1 h.2).2.1, h.1, h.2]
    rfl
  · rw [← scopeRole_deed ctx fun hrole hsaved => h ⟨hrole, hsaved⟩]
    exact (congrArg Stage.saved (stage_behind ctx m)).trans (Stage.saved_after _ _ _)

theorem graphics_behind (ctx : Context) (m : Moment α) (hrole : m.scopeRole ≠ .keeps) :
    (m.behind ctx).graphics = m.scopeRole.restored m.state.graphics m.state.saved := by
  by_cases h : m.scopeRole = .closes ∧ m.state.saved = []
  · rw [(behind_of_unmatched ctx h.1 h.2).1, h.1, h.2]
    rfl
  · have hdeed := scopeRole_deed ctx fun hrole hsaved => h ⟨hrole, hsaved⟩
    rw [← hdeed] at hrole ⊢
    exact (congrArg Stage.graphics (stage_behind ctx m)).trans (Stage.graphics_after _ _ hrole)

end Moment

/-! ## Runs -/

def opened (ms : List (Moment α)) : Nat := ms.countP fun m => m.scopeRole = .opens

def closed (ms : List (Moment α)) : Nat := ms.countP fun m => m.scopeRole = .closes

theorem opened_cons (m : Moment α) (ms : List (Moment α)) :
    opened (m :: ms) = opened [m] + opened ms := by
  simp [opened, List.countP_cons, Nat.add_comm]

theorem closed_cons (m : Moment α) (ms : List (Moment α)) :
    closed (m :: ms) = closed [m] + closed ms := by
  simp [closed, List.countP_cons, Nat.add_comm]

/-- Moments that close no scope which was open before them. -/
structure Nested (ms : List (Moment α)) : Prop where
  world : ∀ m ∈ ms, m.scopeRole ≠ .closesAll
  closed_le : ∀ past, past <+: ms → closed past ≤ opened past

/-- Moments that leave no scope open either. -/
structure Balanced (ms : List (Moment α)) : Prop extends Nested ms where
  closed_eq : closed ms = opened ms

/-- It is enough to look at the beginnings, one after the other. -/
theorem balanced_of_take {ms : List (Moment α)} (hworld : ∀ m ∈ ms, m.scopeRole ≠ .closesAll)
    (hclosed : ∀ n ≤ ms.length, closed (ms.take n) ≤ opened (ms.take n))
    (heq : closed ms = opened ms) : Balanced ms where
  world := hworld
  closed_le past hpast := by
    rw [List.prefix_iff_eq_take.1 hpast]
    exact hclosed _ hpast.length_le
  closed_eq := heq

namespace State

def scopes (s : State α) : Graphics α × List (Graphics α) := (s.graphics, s.saved)

end State

variable [Scalar α] {ctx : Context}

/-- Inside of some scopes, `inner` being their saved states, a moment that closes no other one keeps the
rest of the saved states. If outside of them it keeps the graphics state as well, then the one behind
them all stays the same. -/
theorem Moment.scopes_behind (ctx : Context) {m : Moment α} {inner outer : List (Graphics α)}
    (hsaved : m.state.saved = inner ++ outer) (hworld : m.scopeRole ≠ .closesAll)
    (hclosed : closed [m] ≤ opened [m] + inner.length) :
    ∃ next, (m.behind ctx).saved = next ++ outer ∧
      next.length + closed [m] = inner.length + opened [m] ∧
      ((inner = [] → m.scopeRole = .keeps → (m.behind ctx).graphics = m.state.graphics) →
        next.getLast?.getD (m.behind ctx).graphics = inner.getLast?.getD m.state.graphics) := by
  have hbehind := m.saved_behind ctx
  cases hrole : m.scopeRole with
  | opens =>
    have hgraphics := m.graphics_behind ctx (by simp [hrole])
    rw [hrole, hsaved] at hbehind hgraphics
    refine ⟨m.state.graphics :: inner, hbehind, by simp [opened, closed, hrole], fun _ => ?_⟩
    rw [List.getLast?_cons]
    rfl
  | closes =>
    have hgraphics := m.graphics_behind ctx (by simp [hrole])
    rw [hrole, hsaved] at hbehind hgraphics
    cases inner with
    | nil => simp [opened, closed, hrole] at hclosed
    | cons g inner =>
      refine ⟨inner, hbehind, by simp [opened, closed, hrole], fun _ => ?_⟩
      rw [hgraphics, List.getLast?_cons]
      rfl
  | closesAll => exact absurd hrole hworld
  | keeps =>
    rw [hrole, hsaved] at hbehind
    refine ⟨inner, hbehind, by simp [opened, closed, hrole], fun hkeeps => ?_⟩
    cases inner with
    | nil => exact hkeeps rfl rfl
    | cons g inner => rw [List.getLast?_cons]; rfl

theorem Follows.scopes {ms : List (Moment α)} {x z : Graphics α × List (Graphics α)}
    (h : Follows ctx State.scopes ms x z) (inner outer : List (Graphics α))
    (hx : x.2 = inner ++ outer) (hworld : ∀ m ∈ ms, m.scopeRole ≠ .closesAll)
    (hclosed : ∀ past, past <+: ms → closed past ≤ opened past + inner.length) :
    ∃ last, z.2 = last ++ outer ∧ last.length + closed ms = inner.length + opened ms ∧
      ((∀ past m rest, ms = past ++ m :: rest → closed past = opened past + inner.length →
          m.scopeRole = .keeps → (m.behind ctx).graphics = m.state.graphics) →
        last.getLast?.getD z.1 = inner.getLast?.getD x.1) := by
  induction h generalizing inner with
  | nil x => exact ⟨inner, hx, by simp [opened, closed], fun _ => rfl⟩
  | @cons m ms z _ ih =>
    have hfirst := hclosed [m] (List.cons_prefix_cons.2 ⟨rfl, List.nil_prefix⟩)
    obtain ⟨next, hnext, hlength, hgraphics⟩ :=
      Moment.scopes_behind ctx hx (hworld m List.mem_cons_self) hfirst
    obtain ⟨last, hlast, hlengths, hrest⟩ := ih next hnext
      (fun m' hm' => hworld m' (List.mem_cons_of_mem m hm')) fun past hpast => by
        have hlevel := hclosed (m :: past) (List.cons_prefix_cons.2 ⟨rfl, hpast⟩)
        rw [opened_cons, closed_cons] at hlevel
        omega
    refine ⟨last, hlast, by rw [opened_cons, closed_cons]; omega, fun hkeeps => ?_⟩
    refine (hrest fun past m' rest hms hlevel hrole => ?_).trans (hgraphics fun hinner hrole => ?_)
    · refine hkeeps (m :: past) m' rest (by rw [hms]; rfl) ?_ hrole
      rw [opened_cons, closed_cons]
      omega
    · exact hkeeps [] m ms rfl (by rw [hinner]; rfl) hrole

/-- What a moment does when no scope is open, or when it closes all. -/
structure Moment.Disciplined (ctx : Context) (m : Moment α) : Prop where
  depth : 1 ≤ m.state.depth ∧ 1 ≤ (m.behind ctx).depth
  unmatched : m.scopeRole = .closes → m.state.depth = 1 →
    (m.behind ctx).scopes = m.state.scopes ∧ ∃ d : Diagnostic, d.kind = .stack ∧
      (m.behind ctx).stackReports = m.state.stackReports ++ [d]
  world : m.scopeRole = .closesAll →
    (m.behind ctx).depth = 1 ∧ (m.behind ctx).graphics = m.state.saved.getLast?.getD m.state.graphics

theorem Moment.disciplined (ctx : Context) (m : Moment α) : m.Disciplined ctx where
  depth := ⟨Nat.le_add_left _ _, Nat.le_add_left _ _⟩
  unmatched hrole hdepth := by
    have hsaved : m.state.saved = [] := List.length_eq_zero_iff.1 (Nat.succ.inj hdepth)
    obtain ⟨hgraphics, hrest, hreports⟩ := behind_of_unmatched ctx hrole hsaved
    exact ⟨Prod.ext hgraphics (hrest.trans hsaved.symm), hreports⟩
  world hrole := by
    have hsaved := m.saved_behind ctx
    have hgraphics := m.graphics_behind ctx (by simp [hrole])
    rw [hrole] at hsaved hgraphics
    exact ⟨congrArg (·.length + 1) hsaved, hgraphics⟩

/-- Scopes in a run. The moments of a run lead from one graphics state, the saved ones and the reports to
the next. Balanced ones restore the saved states, and the graphics state too if it is kept wherever no
scope of theirs is open. At every moment, a scope too many is reported but not closed, and closing all
leads to the outermost saved state: the one where the outermost open scope was opened. -/
theorem Runs.restores_scopes {source : Path} {stack : List Path} {events : List Event} {s t : State α}
    {ms : List (Moment α)} (h : Runs ctx source stack events s ms t) :
    Follows ctx (fun s => (s.scopes, s.diagnostics)) ms (s.scopes, s.diagnostics)
      (t.scopes, t.diagnostics) ∧
    (Balanced ms → t.saved = s.saved ∧
      ((∀ past m rest, ms = past ++ m :: rest → closed past = opened past → m.scopeRole = .keeps →
        (m.behind ctx).graphics = m.state.graphics) → t.graphics = s.graphics)) ∧
    (∀ m ∈ ms, m.Disciplined ctx) ∧
    (∀ before o since m rest, ms = before ++ o :: since ++ m :: rest → o.scopeRole = .opens →
      o.state.depth = 1 → Nested since → m.scopeRole = .closesAll →
      (m.behind ctx).graphics = o.state.graphics) := by
  have hfollows : Follows ctx State.scopes ms s.scopes t.scopes :=
    h.follows fun inner before file output => by cases output <;> rfl
  refine ⟨h.follows fun inner before file output => by cases output <;> rfl, fun hms => ?_,
    fun m _ => m.disciplined ctx, fun before o since m rest hms hopens hdepth hsince hworld => ?_⟩
  · obtain ⟨last, hlast, hlength, hgraphics⟩ := hfollows.scopes [] s.saved rfl
      hms.world hms.closed_le
    have hempty : last = [] := List.length_eq_zero_iff.1 (by
      have := hms.closed_eq
      simp only [List.length_nil] at hlength
      omega)
    subst hempty
    exact ⟨hlast, hgraphics⟩
  · have hsaved : o.state.saved = [] := List.length_eq_zero_iff.1 (Nat.succ.inj hdepth)
    rw [hms, List.append_assoc] at hfollows
    obtain ⟨_, -, hrest⟩ := hfollows.split
    cases hrest with
    | cons hrest =>
      obtain ⟨y, hinside, hrest⟩ := hrest.split
      cases hrest with
      | cons hrest =>
        have hopened := o.saved_behind ctx
        rw [hopens, hsaved] at hopened
        obtain ⟨last, hlast, -, -⟩ := hinside.scopes [] _ hopened hsince.world hsince.closed_le
        have houter : m.state.saved = last ++ [o.state.graphics] := hlast
        rw [((m.disciplined ctx).world hworld).2, houter]
        simp

def Statement.bare (word : String) : Statement := ⟨1, word, none, ⟨[]⟩⟩

/-- A scope around a change of orientation. -/
theorem Runs.restores_scopes_flipped :
    ∃ (t : State Float32) (ms : List (Moment Float32)),
      Runs Conversion.solitary ⟨"/main.pbrt"⟩ [⟨"/main.pbrt"⟩]
        [.statement (.bare "AttributeBegin"), .statement (.bare "ReverseOrientation"),
          .statement (.bare "AttributeEnd")] (State.opening Conversion.solitary) ms t ∧
      Balanced ms ∧ ms.map (fun m => m.state.graphics.flipped) = [false, false, true] ∧
      t.graphics = (State.opening Conversion.solitary).graphics ∧ t.saved = [] := by
  let file : Path := ⟨"/main.pbrt"⟩
  let s : State Float32 := State.opening Conversion.solitary
  let s₁ := s.apply Conversion.solitary file (.bare "AttributeBegin")
  let s₂ := s₁.apply Conversion.solitary file (.bare "ReverseOrientation")
  let s₃ := s₂.apply Conversion.solitary file (.bare "AttributeEnd")
  let ms : List (Moment Float32) :=
    [⟨s, file, [file], .statement (.bare "AttributeBegin")⟩,
      ⟨s₁, file, [file], .statement (.bare "ReverseOrientation")⟩,
      ⟨s₂, file, [file], .statement (.bare "AttributeEnd")⟩]
  have hruns : Runs Conversion.solitary file [file]
      [.statement (.bare "AttributeBegin"), .statement (.bare "ReverseOrientation"),
        .statement (.bare "AttributeEnd")] s ms s₃ :=
    .tick rfl (.directive (by decide)) (.tick rfl (.directive (by decide))
      (.tick rfl (.directive (by decide)) .nil))
  have hbalanced : Balanced ms := balanced_of_take (by decide) (by decide) (by decide)
  obtain ⟨-, hrestored, -, -⟩ := hruns.restores_scopes
  obtain ⟨hsaved, hgraphics⟩ := hrestored hbalanced
  refine ⟨s₃, ms, hruns, hbalanced, rfl, hgraphics fun past m rest hms hlevel hrole => ?_, hsaved⟩
  change [_, _, _] = _ at hms
  rcases past with _ | ⟨m₁, _ | ⟨m₂, _ | ⟨m₃, past⟩⟩⟩
  · cases hms
    cases hrole
  · cases hms
    cases hlevel
  · cases hms
    cases hlevel
  · simp at hms

/-- Moments can be balanced without any scope around them. Then the graphics state is not restored. -/
theorem not_balanced_restores :
    ¬∀ (ctx : Context) (source : Path) (stack : List Path) (events : List Event)
      (s t : State Float32) (ms : List (Moment Float32)),
      Runs ctx source stack events s ms t → Balanced ms → t.graphics = s.graphics ∧ t.saved = s.saved := by
  intro h
  let file : Path := ⟨"/main.pbrt"⟩
  let s : State Float32 := State.opening Conversion.solitary
  let ms : List (Moment Float32) := [⟨s, file, [file], .statement (.bare "ReverseOrientation")⟩]
  have hruns : Runs Conversion.solitary file [file] [.statement (.bare "ReverseOrientation")] s ms
      (s.apply Conversion.solitary file (.bare "ReverseOrientation")) :=
    .tick rfl (.directive (by decide)) .nil
  have hbalanced : Balanced ms := balanced_of_take (by decide) (by decide) (by decide)
  have hflipped := congrArg Graphics.flipped (h _ _ _ _ _ _ _ hruns hbalanced).1
  cases hflipped

end SceneConvert
