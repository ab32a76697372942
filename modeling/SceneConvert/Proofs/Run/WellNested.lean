import Mathlib
import SceneConvert.Proofs.Document.NestedText
import SceneConvert.Proofs.Run.Avoids
import SceneConvert.Proofs.Run.Levels

/-!
# SceneConvert.Proofs.Run.WellNested

Conversions go on to their end and write texts whose brackets match.

* `Action.arity?`, `Moment.InRange`: numbers that a directive looks up by their places are there.
* `OutputFile.IsDrawn`: a file that is written entry by entry, and ends at depth zero.
* `Conversion.wellNested_ofScene`: when a conversion comes to its end, how deep it stands between its
  statements, and what its files look like. A number in a mesh file that is beyond the range of counts
  stops it, and so does an indentation that no text has room for.
-/

namespace SceneConvert

/-! ## Numbers by their places -/

/-- How many numbers a directive looks up by their places. -/
def Action.arity? : Action → Option Nat
  | translate | scale => some 3
  | rotate => some 4
  | lookAt => some 9
  | transform | concatTransform => some 16
  | _ => none

/-- Why a directive of some numbers is refused before it looks at them. -/
inductive Problem.IsMiscount (st : Statement) (n : Nat) : Problem → Prop
  | none : IsMiscount st n (.numbersExpected st.word n)
  | wrong (k : Nat) : k ≠ n → IsMiscount st n (.numberCount st.word n k)

section

variable {α : Type}

theorem Statement.numbers_outcome (st : Statement) (n : Nat) :
    (∃ values, st.operand.bind Value.floats? = some values ∧ values.length = n) ∨
      ∃ p, Problem.IsMiscount st n p ∧
        ∀ f, (st.numbers n).outcome f = (.error (.problem p), f) := by
  cases hvalues : st.operand.bind Value.floats? with
  | none =>
    refine .inr ⟨_, .none, fun f => ?_⟩
    simp [numbers, hvalues, Survey.require, Survey.refuse]
  | some values =>
    by_cases hcount : values.length = n
    · exact .inl ⟨values, rfl, hcount⟩
    · refine .inr ⟨_, .wrong values.length hcount, fun f => ?_⟩
      simp [numbers, hvalues, hcount, Survey.require, Survey.refuse]

variable [Scalar α]

/-- The places at which a directive looks for numbers are there, or it is rejected before. -/
def Moment.InRange (ctx : Context) (m : Moment α) : Prop :=
  ∀ st n, m.event = .statement st → (Action.ofWord st.word).arity? = some n →
    (∃ values, st.operand.bind Value.floats? = some values ∧ values.length = n) ∨
      ∃ p, m.state.problem? ctx m.source m.stack st = some p ∧ Problem.IsMiscount st n p

theorem Moment.inRange (ctx : Context) (m : Moment α) : m.InRange ctx := by
  intro st n _ harity
  refine (st.numbers_outcome n).imp_right ?_
  rintro ⟨p, hp, hnumbers⟩
  refine ⟨p, ?_, hp⟩
  have hbind {β : Type} (k : List Float32 → Survey β) (f : Findings) :
      (st.numbers n >>= k).outcome f = (.error (.problem p), f) := by
    rw [Survey.outcome_bind, hnumbers f]
  -- whatever such a directive does with its numbers, it reads them first
  have hsurvey : (m.state.survey ctx m.source st).1 = .error (.problem p) := by
    unfold State.survey Verdict.ofStatement
    cases haction : Action.ofWord st.word <;> rw [haction] at harity <;> cases harity
    · exact congrArg Prod.fst (hbind _ _)
    · exact congrArg Prod.fst (hbind _ _)
    · exact congrArg Prod.fst (hbind _ _)
    · exact congrArg Prod.fst (hbind _ _)
    · simp only [Verdict.matrix, bind_assoc, hbind]
    · simp only [Verdict.matrix, bind_assoc, hbind]
  have hplain : Action.ofWord st.word ≠ .include_ := by
    intro h
    rw [h] at harity
    cases harity
  rw [State.problem?, if_neg hplain, hsurvey]

end

/-! ## Files -/

/-- A file that is written entry by entry at the depth `d` and ends at depth zero. Each entry begins and
ends at the depth `d`, and no form is opened inside its own. -/
def OutputFile.IsDrawn (indent : Indent) (d : Nat) (file : OutputFile) : Prop :=
  ∃ (es : List (Entry Float32)) (sheet : Sheet),
    Sheet.empty.draw? (openings d ++ es.flatMap Entry.strokes ++ closings d) = some sheet ∧
    sheet.depth = 0 ∧ sheet.render indent = file.text ∧
    ∀ before e after, es = before ++ e :: after → Stroke.Whole e.strokes ∧
      ∃ sheet sheet', Drawn d before sheet ∧ sheet.draw? e.strokes = some sheet' ∧
        Drawn d (before ++ [e]) sheet'

theorem OutputFile.isDrawn (indent : Indent) (wrapped : Bool) (p : Path) (es : List (Entry Float32)) :
    OutputFile.IsDrawn indent wrapped.toNat ⟨p, fileText indent wrapped es⟩ := by
  obtain ⟨sheet, hdraws, hdepth, hrender⟩ := exists_sheet_fileText indent wrapped es
  refine ⟨es, sheet, hdraws, hdepth, hrender, fun before e _ _ => ⟨e.whole_strokes, ?_⟩⟩
  obtain ⟨sheet, hbefore⟩ := exists_drawn wrapped.toNat before
  obtain ⟨sheet', hentry, hbehind⟩ := hbefore.append [e]
  rw [List.flatMap_singleton] at hentry
  exact ⟨sheet, sheet', hbefore, hentry, hbehind⟩

namespace Conversion

variable {ctx : Context} {scene : Scene} {s : State Float32}

theorem isDrawn_ofState (ctx : Context) (s : State Float32) :
    ∃ main rest, (ofState ctx s).files = main :: rest ∧ main.IsDrawn ctx.options.indent ctx.mainDepth ∧
      ∀ file ∈ rest, file.IsDrawn ctx.options.indent 0 := by
  refine ⟨_, _, rfl, ?_, List.forall_mem_map.2 fun page _ => OutputFile.isDrawn _ false page.file _⟩
  have hdepth : ctx.mainDepth = (!ctx.options.skipWorld).toNat := by
    unfold Context.mainDepth
    cases ctx.options.skipWorld <;> rfl
  rw [hdepth]
  exact OutputFile.isDrawn _ _ _ _

theorem bracketed_ofState (hs : State.ofScene ctx scene = .ok s) (hctx : ctx.PathsAvoid '\'')
    (htexts : ∀ text ∈ scene.texts ctx, StringsAvoid '\'' text) :
    ∀ file ∈ (ofState ctx s).files, Bracketed file.text := by
  have hspelled := State.avoids_ofScene (by decide) hctx htexts hs
  refine List.forall_mem_cons.2 ⟨?_, List.forall_mem_map.2 fun page hpage => ?_⟩
  · exact bracketed_fileText (hspelled _ List.mem_cons_self) _ _
  · exact bracketed_fileText (hspelled page (List.mem_cons_of_mem _ hpage)) _ _

theorem ofScene_of_runs {text : String} (hcontent : scene.content ctx = .ok text)
    {ms : List (Moment Float32)} {t : State Float32}
    (hruns : Runs ctx ctx.input [ctx.files.absolute ctx.input]
      (Event.ofText ctx.options.collapseLists text) (scene.opening ctx) ms t) :
    State.ofScene ctx scene = .ok t.finish ∧ ofScene ctx scene = .ok (ending ctx t.finish) := by
  have hs : State.ofScene ctx scene = .ok t.finish := by
    rw [State.ofScene_eq, hcontent, hruns.eq_run]
    rfl
  exact ⟨hs, by rw [ofScene, hs, Except.map]⟩

theorem runs_single {text : String} {st : Statement}
    (hevents : Event.ofText ctx.options.collapseLists text = [.statement st])
    (hst : Action.ofWord st.word ≠ .include_) :
    Runs ctx ctx.input [ctx.files.absolute ctx.input] (Event.ofText ctx.options.collapseLists text)
      ((Scene.text text).opening ctx : State Float32)
      [⟨State.opening ctx, ctx.input, [ctx.files.absolute ctx.input], .statement st⟩]
      ((State.opening ctx).apply ctx ctx.input st) := by
  rw [hevents]
  exact .tick rfl (.directive hst) .nil

/-- A conversion of a scene that has been read comes to its end unless it meets a mesh file with a number
beyond the range of counts, or has to indent a line for which no text has room. On the way, no directive
looks for numbers at places where there are none, and between the events the writer stands at the depth
of the file. Its output files are written entry by entry and end at depth zero, and their texts are
bracketed where no string and no path has a single quote in it. -/
theorem wellNested_ofScene {text : String} (hcontent : scene.content ctx = .ok text)
    {ms : List (Moment Float32)} {t : State Float32}
    (hruns : Runs ctx ctx.input [ctx.files.absolute ctx.input]
      (Event.ofText ctx.options.collapseLists text) (scene.opening ctx) ms t) :
    ((∃ c, ofScene ctx scene = .ok (.ok c)) ↔
      (Indent.maxWidth < ctx.options.indent.width → ∀ w ∈ t.finish.written, w.isIndented = false) ∧
        ∀ m ∈ ms, ¬m.Overflows ctx) ∧
    (∀ m ∈ ms, (m.Overflows ctx → m.NamesOverflow ctx) ∧ m.InRange ctx ∧ m.IsLevel ctx) ∧
    ∀ c, ofScene ctx scene = .ok (.ok c) →
      (∃ main rest, c.files = main :: rest ∧ main.IsDrawn ctx.options.indent ctx.mainDepth ∧
        ∀ file ∈ rest, file.IsDrawn ctx.options.indent 0) ∧
      (ctx.PathsAvoid '\'' → (∀ text ∈ scene.texts ctx, StringsAvoid '\'' text) →
        ∀ file ∈ c.files, Bracketed file.text) := by
  obtain ⟨hs, hending⟩ := ofScene_of_runs hcontent hruns
  have hopening : (scene.opening ctx : State Float32).halted = false ∧
      (scene.opening ctx : State Float32).pageDepth =
        ctx.baseDepth [ctx.files.absolute ctx.input] := by
    cases scene <;> simp [Scene.opening, State.opening, State.initial, State.remark, State.note,
      Context.baseDepth]
  refine ⟨?_, fun m hm => ⟨Moment.Overflows.namesOverflow, m.inRange ctx, ?_⟩, fun c hc => ?_⟩
  · have hhalted : t.finish.halted = false ↔ ∀ m ∈ ms, ¬m.Overflows ctx := by
      rw [State.halted_finish, ← Bool.not_eq_true, hruns.halted_iff]
      simp [hopening.1]
    rw [← hhalted, ← stopped?_eq_none, hending, ending]
    cases stopped? ctx t.finish <;> simp
  · exact Moment.isLevel (hruns.pageDepth (List.cons_ne_nil _ _) hopening.2 m hm)
  · obtain rfl : ofState ctx t.finish = c := by
      rw [hending, ending] at hc
      split at hc <;> cases hc
      rfl
    exact ⟨isDrawn_ofState ctx t.finish, bracketed_ofState hs⟩

/-- A name that is a closing parenthesis does not close the form around it. -/
theorem wellNested_ofScene_smiling :
    ∃ ms t c, Runs solitary solitary.input [solitary.files.absolute solitary.input]
        (Event.ofText true "Material \"matte\" \"texture Kd\" \":)\"") (State.opening solitary) ms t ∧
      ofScene solitary (.text "Material \"matte\" \"texture Kd\" \":)\"") = .ok (.ok c) ∧
      c.files.map OutputFile.text =
        ["(scene\n\t(material\n\t\t:name 'material_0'\n\t\t:type 'diffuse'\n" ++
          "\t\t:albedo (texture ':)')\n\t)\n)\n"] ∧
      ms.length = 1 ∧ (∀ m ∈ ms, m.IsLevel solitary) ∧
      ∀ file ∈ c.files, Bracketed file.text := by
  let text := "Material \"matte\" \"texture Kd\" \":)\""
  let st : Statement :=
    ⟨1, "Material", some (.text "matte"), ⟨[⟨"Kd", some "texture", .text ":)", false⟩]⟩⟩
  let s₁ : State Float32 := (State.opening solitary).apply solitary solitary.input st
  have hlexemes : (Lexeme.ofText text).map Lexeme.token =
      [.word "Material", .quoted "matte", .quoted "texture Kd", .quoted ":)"] := by cbv
  have hevents : Event.ofText solitary.options.collapseLists text = [.statement st] := by
    rw [show solitary.options.collapseLists = true from rfl]
    cbv
  have hplain : Action.ofWord st.word ≠ .include_ := by decide
  have hruns := runs_single hevents hplain
  obtain ⟨hends, hmoments, hfiles⟩ := @wellNested_ofScene solitary (.text text) text rfl _ _ hruns
  have hnarrow : ¬Indent.maxWidth < solitary.options.indent.width := by decide
  have hhalted : s₁.halted = false := by decide +kernel
  obtain ⟨c, hc⟩ := hends.2 ⟨fun hwide => absurd hwide hnarrow, fun m hm hoverflow => by
    have hstop := hruns.halted_iff.2 (.inr ⟨m, hm, hoverflow⟩)
    exact Bool.false_ne_true (hhalted.symm.trans hstop)⟩
  have hstate : ofState solitary s₁.finish = c := by
    have hstopped : stopped? solitary s₁.finish = none :=
      stopped?_eq_none.2 ⟨fun hwide => absurd hwide hnarrow, (State.halted_finish s₁).trans hhalted⟩
    rw [(ofScene_of_runs rfl hruns).2, ending, hstopped] at hc
    cases hc
    rfl
  have htexts : ∀ t ∈ Scene.texts solitary (.text text), StringsAvoid '\'' t := by
    have hnone : (State.opening solitary : State Float32).entered solitary solitary.input
        [solitary.files.absolute solitary.input] [.statement st] = [] :=
      State.entered_eq_nil (by simp [hplain])
    have hscene : Scene.texts solitary (.text text) = [text] := by
      simp only [Scene.texts, Scene.content, Scene.opening, hevents, hnone, List.map_nil]
    rw [hscene]
    intro t ht x hx w hw
    obtain rfl := List.mem_singleton.1 ht
    have hmem : Token.quoted w ∈ (Lexeme.ofText text).map Lexeme.token :=
      List.mem_map.2 ⟨x, hx, hw⟩
    rw [hlexemes] at hmem
    simp only [List.mem_cons, List.not_mem_nil, or_false, reduceCtorEq, false_or,
      Token.quoted.injEq] at hmem
    rcases hmem with rfl | rfl | rfl <;> decide
  have hbracketed := (hfiles c hc).2 ⟨by decide, by decide, by decide⟩ htexts
  refine ⟨_, s₁, c, hruns, hc, ?_, rfl, fun m hm => (hmoments m hm).2.2, hbracketed⟩
  rw [← hstate]
  decide +kernel

/-- A mesh file with one vertex more than can be counted. -/
def uncountable : Context :=
  { solitary with
    files := ⟨[(["a.ply"],
      .file "ply\nformat ascii 1.0\nelement vertex 18446744073709551616\nend_header\n".toUTF8)], []⟩ }

/-- A conversion that meets it does not come to its end. -/
theorem stopped_by_uncountable :
    ¬∃ c, ofScene uncountable (.text "Shape \"plymesh\" \"string filename\" \"a.ply\"") =
      .ok (.ok c) := by
  let text := "Shape \"plymesh\" \"string filename\" \"a.ply\""
  let st : Statement :=
    ⟨1, "Shape", some (.text "plymesh"), ⟨[⟨"filename", some "string", .text "a.ply", false⟩]⟩⟩
  have hevents : Event.ofText uncountable.options.collapseLists text = [.statement st] := by
    rw [show uncountable.options.collapseLists = true from rfl]
    cbv
  have hruns := runs_single hevents (by decide)
  have hhalted : ((State.opening uncountable : State Float32).apply uncountable uncountable.input
      st).finish.halted = true := by decide +kernel
  rintro ⟨c, hc⟩
  rw [(ofScene_of_runs rfl hruns).2, ending, stopped?, if_neg (by decide), hhalted] at hc
  cases hc

end Conversion

end SceneConvert
