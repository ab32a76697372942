import SceneConvert.Proofs.Run.Inclusion
import SceneConvert.Proofs.Run.Output
import SceneConvert.Proofs.Run.Scene

/-!
# SceneConvert.Proofs.Run.Merge

A run that puts included files in their places, next to the same run with a file for each of them.

* `Inlined`: entries, with the entries of the included files in place of the inclusions.
* `Merges`: of one state the two runs make the same, but for the output; the entries that the one
  writes are what the other writes, inlined.
* `merges_run`, `merges_ofScene`: this holds for the statements of a file and for whole scenes.
-/

namespace SceneConvert

variable {α : Type}

/-- The same conversion, with included files in their places or in files of their own. -/
def Context.merging (ctx : Context) (merge : Bool) : Context :=
  { ctx with options := { ctx.options with singleFile := merge } }

/-- The second entries are the first ones, each inclusion of a page being replaced by the entries of the
page, inlined. A page includes only pages before it. -/
inductive Inlined : List (Page α) → List (Entry α) → List (Entry α) → Prop
  | nil {pages : List (Page α)} : Inlined pages [] []
  | keep {pages : List (Page α)} {e : Entry α} {es fs : List (Entry α)} :
    e.included? = none → Inlined pages es fs → Inlined pages (e :: es) (e :: fs)
  | open_ {before after : List (Page α)} {page : Page α} {gs es fs : List (Entry α)} :
    Inlined before page.entries gs → Inlined (before ++ page :: after) es fs →
    Inlined (before ++ page :: after) (.include_ page.file :: es) (gs ++ fs)

namespace Inlined

theorem refl (pages : List (Page α)) {es : List (Entry α)} (h : ∀ e ∈ es, e.included? = none) :
    Inlined pages es es := by
  induction es with
  | nil => exact .nil
  | cons e es ih =>
    exact .keep (h e List.mem_cons_self) (ih fun e he => h e (List.mem_cons_of_mem _ he))

theorem append {pages : List (Page α)} {es fs es' fs' : List (Entry α)} (h : Inlined pages es fs)
    (h' : Inlined pages es' fs') : Inlined pages (es ++ es') (fs ++ fs') := by
  induction h with
  | nil => exact h'
  | keep he _ ih => exact .keep he (ih h')
  | open_ hpage _ _ ih =>
    rw [List.append_assoc]
    exact .open_ hpage (ih h')

theorem eq_nil {pages : List (Page α)} {fs : List (Entry α)} (h : Inlined pages [] fs) : fs = [] := by
  cases h
  rfl

theorem more {pages : List (Page α)} {es fs : List (Entry α)} (h : Inlined pages es fs)
    (pages' : List (Page α)) : Inlined (pages ++ pages') es fs := by
  induction h with
  | nil => exact .nil
  | keep he _ ih => exact .keep he ih
  | open_ hpage _ _ ih =>
    rw [List.append_assoc, List.cons_append] at ih ⊢
    exact .open_ hpage ih

theorem mem_of_mem {pages : List (Page α)} {es fs : List (Entry α)} (h : Inlined pages es fs)
    {e : Entry α} (he : e ∈ fs) : e ∈ es ∨ ∃ page ∈ pages, e ∈ page.entries := by
  induction h with
  | nil => cases he
  | keep _ _ ih =>
    rcases List.mem_cons.1 he with rfl | he
    · exact .inl List.mem_cons_self
    · exact (ih he).imp_left (List.mem_cons_of_mem _)
  | @open_ before after page _ _ _ _ _ ihpage ih =>
    rcases List.mem_append.1 he with he | he
    · rcases ihpage he with he | ⟨page', hpage', he⟩
      · exact .inr ⟨page, by simp, he⟩
      · exact .inr ⟨page', List.mem_append_left _ hpage', he⟩
    · exact (ih he).imp_left (List.mem_cons_of_mem _)

end Inlined

namespace State

theorem Output.writeAll_included (o : Output α) (ws : List (Entry α × Nat))
    (included : Dictionary Path (Option Path)) :
    ({ o with included } : Output α).writeAll ws = { o.writeAll ws with included } := by
  rw [Output.writeAll_eq, Output.writeAll_eq]

/-- The operation makes `t` of `s`, but for the output. What it writes are the entries that `t` has
more than `s`, inlined. -/
def Merges (op : State α → State α) (s t : State α) : Prop :=
  ∃ ws own pages,
    (∀ o, ∃ included, op (s.onto o) = t.onto { o.writeAll ws with included }) ∧
    t.page.toList = s.page.toList ++ own ∧ t.finished.toList = s.finished.toList ++ pages ∧
    Inlined t.finished.toList own (ws.map Prod.fst)

theorem merges_of_writesAt {op : State α → State α} {s : State α} (h : WritesAt op s) :
    Merges op s (op s) := by
  obtain ⟨ws, hplain, hws⟩ := h
  have houtput : (op s).output = s.output.writeAll ws := congrArg State.output (hws s.output)
  rw [Output.writeAll_eq] at houtput
  have hpage : (op s).page = s.page ++ (ws.map Prod.fst).toArray := congrArg Output.page houtput
  have hfinished : (op s).finished = s.finished := congrArg Output.finished houtput
  refine ⟨ws, ws.map Prod.fst, [], fun o => ⟨(o.writeAll ws).included, hws o⟩, by simp [hpage],
    by simp [hfinished], .refl _ fun e he => ?_⟩
  obtain ⟨w, hw, rfl⟩ := List.mem_map.1 he
  exact hplain w hw

theorem merges_refl (s : State α) : Merges id s s :=
  merges_of_writesAt (.of_nothing fun _ => rfl)

theorem Merges.congr {f g : State α → State α} {s t : State α} (h : Merges f s t)
    (heq : ∀ o, g (s.onto o) = f (s.onto o)) : Merges g s t := by
  obtain ⟨ws, own, pages, hop, hrest⟩ := h
  exact ⟨ws, own, pages, fun o => by rw [heq]; exact hop o, hrest⟩

theorem Merges.comp {f g : State α → State α} {s t u : State α} (hf : Merges f s t)
    (hg : Merges g t u) : Merges (fun s => g (f s)) s u := by
  obtain ⟨ws, own, pages, hf, hpage, hfinished, hinlined⟩ := hf
  obtain ⟨ws', own', pages', hg, hpage', hfinished', hinlined'⟩ := hg
  refine ⟨ws ++ ws', own ++ own', pages ++ pages', fun o => ?_, ?_, ?_, ?_⟩
  · obtain ⟨included, ho⟩ := hf o
    obtain ⟨included', ho'⟩ := hg { o.writeAll ws with included }
    refine ⟨included', ?_⟩
    dsimp only
    rw [ho, ho', Output.writeAll_included, Output.writeAll_append]
  · rw [hpage', hpage, List.append_assoc]
  · rw [hfinished', hfinished, List.append_assoc]
  · rw [List.map_append]
    refine .append ?_ hinlined'
    rw [hfinished']
    exact hinlined.more pages'

/-- An included file: the one run finishes it and mentions it on the page, the other goes on. -/
theorem merges_file {ctx : Context} (hmode : ctx.options.singleFile = false) {file : IncludedFile}
    {op : State α → State α} {s inner : State α} (h : Merges op (s.enterFile ctx file).2 inner) :
    Merges (fun s => (op (s.enterFile (ctx.merging true) file).2).leaveFile s file
      (s.enterFile (ctx.merging true) file).1) s (inner.leaveFile s file (s.enterFile ctx file).1) := by
  obtain ⟨ws, own, pages, hop, hpage, hfinished, hinlined⟩ := h
  obtain ⟨output, houtput⟩ : ∃ output, (s.enterFile ctx file).1 = some output := by
    simp [enterFile, hmode]
  have hstart : (s.enterFile ctx file).2.page = #[] ∧
      (s.enterFile ctx file).2.finished = s.finished := by
    simp only [enterFile, hmode, Bool.false_eq_true, ↓reduceIte]
    exact ⟨trivial, rfl⟩
  have henter (o : Output α) :
      ((s.onto o).enterFile (ctx.merging true) file) = (none, (s.enterFile ctx file).2.onto o) := by
    simp only [enterFile, hmode, Bool.false_eq_true, ↓reduceIte]
    rfl
  rw [hstart.1] at hpage
  rw [houtput]
  refine ⟨ws, [.include_ output], pages ++ [⟨output, inner.page.toList⟩], fun o => ?_, ?_, ?_, ?_⟩
  · obtain ⟨included, ho⟩ := hop o
    refine ⟨included.set file.key none, ?_⟩
    dsimp only
    rw [henter, ho]
    rfl
  · exact Array.toList_push
  · rw [← List.append_assoc, ← hstart.2, ← hfinished]
    exact Array.toList_push
  · have hopened : Inlined (inner.finished.toList ++ ⟨output, inner.page.toList⟩ :: [])
        [.include_ output] (ws.map Prod.fst ++ []) := by
      refine .open_ ?_ .nil
      rw [show inner.page.toList = own from hpage]
      exact hinlined
    rw [List.append_nil] at hopened
    simpa [leaveFile, write] using hopened

/-- Without a look at earlier inclusions, what an include directive asks for does not depend on the
output. -/
theorem ofStatement_onto {ctx : Context} (hrepeat : ctx.options.skipRepeatedIncludes = false)
    (stack : List Path) (s : State α) (o : Output α) (source : Path) (st : Statement) :
    Inclusion.ofStatement (ctx.merging true) stack (s.onto o) source st =
      Inclusion.ofStatement ctx stack s source st := by
  have hrepeat' : (ctx.merging true).options.skipRepeatedIncludes = false := hrepeat
  simp only [Inclusion.ofStatement, hrepeat, hrepeat', Bool.false_eq_true, ↓reduceIte]
  rfl

theorem not_repeated {ctx : Context} (hrepeat : ctx.options.skipRepeatedIncludes = false)
    {stack : List Path} {s : State α} {source path : Path} {st : Statement} {output : Option Path} :
    Inclusion.ofStatement ctx stack s source st ≠ .ok (.repeated path output) := by
  intro h
  obtain ⟨-, -, hskip, -⟩ := Inclusion.found_of_repeated h
  rw [hrepeat] at hskip
  cases hskip

variable [Scalar α]

theorem merges_run {ctx : Context} (hmode : ctx.options.singleFile = false)
    (hrepeat : ctx.options.skipRepeatedIncludes = false) (source : Path) (stack : List Path)
    (events : List Event) (s : State α) :
    Merges (run (ctx.merging true) source stack events) s (run ctx source stack events s) := by
  have hmove (source : Path) (line : Nat) (s : State α) :
      Merges (·.moveTo source line) s (s.moveTo source line) :=
    merges_of_writesAt (.of_nothing fun _ => rfl)
  fun_induction run ctx source stack events s with
  | case1 source stack s => exact (merges_refl s).congr fun o => run_nil
  | case2 source stack s event events hs => exact (merges_refl s).congr fun o => run_of_halted hs
  | case3 source stack s events hs f ih =>
    have hhalted : s.halted = false := by simpa using hs
    have hnote := merges_of_writesAt (writesAt_note (.report (f.problem.diagnostic source f.line)) s)
    exact (hnote.comp ih).congr fun o => run_fault hhalted
  | case4 source stack s events hs st hst moved p hi ih =>
    have hhalted : s.halted = false := by simpa using hs
    have hreport := merges_of_writesAt (writesAt_reportProblem p moved)
    refine ((hmove source st.line s).comp (hreport.comp ih)).congr ?_
    intro o
    exact run_include_error hhalted hst ((ofStatement_onto hrepeat stack moved o source st).trans hi)
  | case5 source stack s events hs st hst moved path output hi ih =>
    exact absurd hi (not_repeated hrepeat)
  | case6 source stack s events hs st hst moved file hi output inner henter text ihinner ih =>
    have hhalted : s.halted = false := by simpa using hs
    have hfile := merges_file hmode (s := moved) (by rw [henter]; exact ihinner)
    rw [henter] at hfile
    refine ((hmove source st.line s).comp (hfile.comp ih)).congr ?_
    intro o
    exact run_include_enter hhalted hst ((ofStatement_onto hrepeat stack moved o source st).trans hi)
  | case7 source stack s events hs st hst ih =>
    have hhalted : s.halted = false := by simpa using hs
    have happly := merges_of_writesAt (writesAt_apply ctx source s st)
    exact (happly.comp ih).congr fun o => run_apply hhalted hst

/-- A scene: the state behind it is the same, but for an output that has all entries, inlined, in one
file. -/
theorem merges_ofScene {ctx : Context} (hmode : ctx.options.singleFile = false)
    (hrepeat : ctx.options.skipRepeatedIncludes = false) {scene : Scene} {s : State α}
    (h : ofScene ctx scene = .ok s) :
    ∃ o : Output α, ofScene (ctx.merging true) scene = .ok (s.onto o) ∧ o.finished = #[] ∧
      (∀ w ∈ o.written, w.depth = ctx.mainDepth ∧ w.entry ∈ o.page) ∧
      Inlined s.finished.toList s.page.toList o.page.toList := by
  obtain ⟨text, htext, rfl⟩ := exists_read_of_ofScene h
  let s₀ : State α := scene.opening ctx
  have hopening : scene.opening (ctx.merging true) = s₀ ∧ s₀.page = #[] ∧ s₀.finished = #[] ∧
      s₀.written = #[] ∧ s₀.pageDepth = ctx.mainDepth := by
    cases scene <;> exact ⟨rfl, rfl, rfl, rfl, rfl⟩
  obtain ⟨hstart, hpage₀, hfinished₀, hwritten₀, hdepth₀⟩ := hopening
  have hread : Merges (run (ctx.merging true) ctx.input [ctx.files.absolute ctx.input]
      (Event.ofText ctx.options.collapseLists text)) s₀ (s₀.read ctx ctx.input text) :=
    merges_run hmode hrepeat _ _ _ s₀
  have hfinish := merges_of_writesAt (writesAt_finish (s₀.read ctx ctx.input text))
  obtain ⟨ws, own, pages, hop, hpage, hfinished, hinlined⟩ := hread.comp hfinish
  obtain ⟨included, ho⟩ := hop s₀.output
  rw [hpage₀, List.nil_append] at hpage
  refine ⟨{ s₀.output.writeAll ws with included }, ?_, ?_, ?_, ?_⟩
  · have hcontent : scene.content (ctx.merging true) = scene.content ctx := by cases scene <;> rfl
    rw [ofScene_eq, hcontent, htext, hstart]
    exact congrArg Except.ok ho
  · rw [Output.writeAll_eq]
    exact hfinished₀
  · intro w hw
    rw [Output.writeAll_eq] at hw ⊢
    obtain ⟨v, hv, rfl⟩ : ∃ v ∈ ws, ⟨v.1, s₀.pageDepth, v.2⟩ = w := by
      simpa [output, hwritten₀] using hw
    refine ⟨hdepth₀, ?_⟩
    simp only [output, hpage₀]
    simpa using ⟨_, hv⟩
  · rw [hpage, Output.writeAll_eq]
    simpa [output, hpage₀] using hinlined

/-! ## Room for the indentation -/

/-- Between `s` and `t` the depth of the page is the same, and what was written to it stands at that
depth. -/
def Levelled (_ : List IncludedFile) (s t : State α) : Prop :=
  t.pageDepth = s.pageDepth ∧ (∀ w ∈ s.written, w ∈ t.written) ∧
    ∀ e ∈ t.page, e ∈ s.page ∨ ∃ w ∈ t.written, w.entry = e ∧ w.depth = s.pageDepth

omit [Scalar α] in
theorem levelled_trans {files files' : List IncludedFile} {s t u : State α}
    (h : Levelled files s t) (h' : Levelled files' t u) : Levelled (files ++ files') s u := by
  obtain ⟨hdepth, hwritten, hpage⟩ := h
  obtain ⟨hdepth', hwritten', hpage'⟩ := h'
  refine ⟨hdepth'.trans hdepth, fun w hw => hwritten' w (hwritten w hw), fun e he => ?_⟩
  rcases hpage' e he with he | ⟨w, hw, hwe, hwd⟩
  · exact (hpage e he).imp_right fun ⟨w, hw, hrest⟩ => ⟨w, hwritten' w hw, hrest⟩
  · exact .inr ⟨w, hw, hwe, hwd.trans hdepth⟩

omit [Scalar α] in
theorem levelled_of_output {s t : State α} {ws : List (Entry α × Nat)}
    (h : t.output = s.output.writeAll ws) : Levelled [] s t := by
  rw [Output.writeAll_eq] at h
  have hpage : t.page = s.page ++ (ws.map Prod.fst).toArray := congrArg Output.page h
  have hwritten : t.written = s.written ++ (ws.map fun w => ⟨w.1, s.pageDepth, w.2⟩).toArray :=
    congrArg Output.written h
  refine ⟨congrArg Output.pageDepth h, fun w hw => ?_, fun e he => ?_⟩
  · rw [hwritten]
    exact Array.mem_append_left _ hw
  · rw [hpage] at he
    refine (Array.mem_append.1 he).imp_right ?_
    intro he
    obtain ⟨w, hw, rfl⟩ : ∃ w ∈ ws, w.1 = e := by simpa using he
    refine ⟨⟨w.1, s.pageDepth, w.2⟩, ?_, rfl, rfl⟩
    rw [hwritten]
    exact Array.mem_append_right _ (List.mem_toArray.2 (List.mem_map.2 ⟨w, hw, rfl⟩))

omit [Scalar α] in
theorem levelled_file {ctx : Context} {file : IncludedFile} {files : List IncludedFile}
    {s inner : State α} (h : Levelled files (s.enterFile ctx file).2 inner) :
    Levelled (file :: files) s (inner.leaveFile s file (s.enterFile ctx file).1) := by
  obtain ⟨hdepth, hwritten, hpage⟩ := h
  cases hmode : ctx.options.singleFile with
  | true =>
    simp only [enterFile, hmode, ↓reduceIte] at hdepth hwritten hpage ⊢
    exact ⟨hdepth, hwritten, hpage⟩
  | false =>
    simp only [enterFile, hmode, Bool.false_eq_true, ↓reduceIte] at hwritten ⊢
    refine ⟨rfl, fun w hw => Array.mem_push.2 (.inl (hwritten w hw)), fun e he => ?_⟩
    rcases Array.mem_push.1 he with he | rfl
    · exact .inl he
    · exact .inr ⟨_, Array.mem_push.2 (.inr rfl), rfl, rfl⟩

theorem kept_levelled (ctx : Context) : Kept ctx (fun _ _ => True) (Levelled (α := α)) where
  refl _ := ⟨rfl, fun _ hw => hw, fun _ he => .inl he⟩
  trans := levelled_trans
  tick _ _ htick := htick.output.elim fun _ hws => levelled_of_output hws
  file _ _ _ h := levelled_file h

theorem levelled_ofScene {ctx : Context} {scene : Scene} {s : State α}
    (h : ofScene ctx scene = .ok s) :
    ∀ e ∈ s.page, ∃ w ∈ s.written, w.entry = e ∧ w.depth = ctx.mainDepth := by
  obtain ⟨text, -, rfl⟩ := exists_read_of_ofScene h
  let s₀ : State α := scene.opening ctx
  have hopening : s₀.page = #[] ∧ s₀.pageDepth = ctx.mainDepth := by
    cases scene <;> exact ⟨rfl, rfl⟩
  have hread : Levelled _ s₀ (s₀.read ctx ctx.input text) :=
    (kept_levelled ctx).run (fun _ _ => trivial) fun _ _ _ _ => trivial
  obtain ⟨ws, hws⟩ := (writesAt_finish (s₀.read ctx ctx.input text)).output
  intro e he
  have hlevelled := (levelled_trans hread (levelled_of_output hws)).2.2 e he
  rw [hopening.1, hopening.2] at hlevelled
  exact hlevelled.resolve_left (Array.not_mem_empty e)

end State

end SceneConvert
