import SceneConvert.Proofs.Run.Bare
import SceneConvert.Proofs.Run.SingleFile
import SceneConvert.Proofs.Token.Spelling

/-!
# SceneConvert.Proofs.Run.Splice

In a single output file, including a file is as good as pasting its text.

* `Event.bare`: an event wherever it stands, whatever is found in the place of a missing bracket.
* `State.Alike.run`: alike states stay alike when the same is read.
* `State.alike_include`: so they do when one of them enters a file and the other reads its statements
  in their place.
* `Conversion.include_spliced`: two scenes that differ only in this way.
-/

namespace SceneConvert

/-! ## Events -/

namespace Event

def bare : Event → Event
  | fault f => fault ⟨0, f.problem.bare⟩
  | statement st => statement st.lineless

@[simp] theorem bare_shift (n : Nat) (e : Event) : (e.shift n).bare = e.bare := by
  cases e <;> rfl

@[simp] theorem bare_meet (ys : List Lexeme) (e : Event) : (e.meet ys).bare = e.bare := by
  cases e with
  | statement st => rfl
  | fault f =>
    obtain ⟨line, problem⟩ := f
    cases problem <;> cases ys <;> rfl

theorem exists_parts (collapse : Bool) (a : String) {m b : String}
    (hm : Lexeme.Resumes (Lexeme.ofText m)) (hb : Lexeme.Resumes (Lexeme.ofText b)) :
    ∃ xs ys zs, ofText collapse (a ++ "\n" ++ m ++ "\n" ++ b) = xs ++ ys ++ zs ∧
      xs.map bare = (ofText collapse a).map bare ∧ ys.map bare = (ofText collapse m).map bare ∧
      zs.map bare = (ofText collapse b).map bare := by
  rw [ofText_append_line hb, ofText_append_line hm, List.map_append]
  exact ⟨_, _, _, rfl, by simp, by simp, by simp⟩

theorem eq_fault_of_bare {e : Event} {f : Fault} (h : e.bare = (fault f).bare) :
    ∃ f', e = fault f' ∧ f'.problem.bare = f.problem.bare := by
  cases e with
  | fault f' => exact ⟨f', rfl, by simpa [bare] using h⟩
  | statement st => cases h

theorem eq_statement_of_bare {e : Event} {st : Statement} (h : e.bare = (statement st).bare) :
    ∃ st', e = statement st' ∧ st'.lineless = st.lineless := by
  cases e with
  | fault f => cases h
  | statement st' => exact ⟨st', rfl, by simpa [bare] using h⟩

end Event

theorem Statement.same {β : Type} {st st' : Statement} (h : st.lineless = st'.lineless) (f : Statement → β)
    (hf : ∀ st : Statement, f st.lineless = f st) : f st = f st' := by
  rw [← hf st, h, hf]

/-! ## Runs -/

namespace State

variable {α : Type} [Scalar α]

omit [Scalar α] in
theorem enterFile_single {ctx : Context} (hmode : ctx.options.singleFile = true) (s : State α)
    (file : IncludedFile) : s.enterFile ctx file = (none, s.remark (.including file.path)) := by
  simp only [enterFile, hmode, ↓reduceIte]

namespace Alike

variable {ctx : Context} {s t : State α} {source source' : Path} {stack : List Path}

omit [Scalar α] in
theorem ofStatement_eq (hlog : ctx.log = none)
    (hrepeat : ctx.options.skipRepeatedIncludes = false) (hbeside : ctx.Beside source source')
    {st st' : Statement} (hst : st.lineless = st'.lineless) :
    Inclusion.ofStatement ctx stack s source st = Inclusion.ofStatement ctx stack t source' st' := by
  have htext : st.text? = st'.text? := Statement.same hst Statement.text? fun _ => rfl
  have hword : st.word = st'.word := Statement.same hst Statement.word fun _ => rfl
  unfold Inclusion.ofStatement
  simp only [htext, hword, FileTree.include?_congr hbeside, Context.filesFor_of_log hlog, hrepeat,
    Bool.false_eq_true, ↓reduceIte]

theorem run_flat (hlog : ctx.log = none) (hbeside : ctx.Beside source source')
    {stack' : List Path} {events events' : List Event}
    (hevents : events.map Event.bare = events'.map Event.bare)
    (hflat : ∀ st, .statement st ∈ events → Action.ofWord st.word ≠ .include_) (h : Alike s t) :
    Alike (State.run ctx source stack events s) (State.run ctx source' stack' events' t) := by
  induction events generalizing events' s t with
  | nil =>
    obtain rfl : events' = [] := by simpa using hevents.symm
    rwa [run_nil, run_nil]
  | cons e events ih =>
    obtain ⟨e', events', rfl, he, htail⟩ := List.map_eq_cons_iff.1 hevents.symm
    have hflat' st (hst : .statement st ∈ events) := hflat st (List.mem_cons_of_mem e hst)
    cases hhalted : s.halted with
    | true => rwa [run_of_halted hhalted, run_of_halted (h.halted ▸ hhalted)]
    | false =>
      have hhalted' : t.halted = false := h.halted ▸ hhalted
      cases e with
      | fault f =>
        obtain ⟨f', rfl, hf⟩ := Event.eq_fault_of_bare he
        rw [run_fault hhalted, run_fault hhalted']
        exact ih htail.symm hflat' (h.report (Problem.alike_of_bare hf.symm _ _ _ _))
      | statement st =>
        obtain ⟨st', rfl, hst⟩ := Event.eq_statement_of_bare he
        have hword := hflat st List.mem_cons_self
        have hword' : Action.ofWord st'.word ≠ .include_ := by
          rwa [Statement.same hst Statement.word fun _ => rfl]
        rw [run_apply hhalted hword, run_apply hhalted' hword']
        exact ih htail.symm hflat' (h.apply hlog hbeside hst.symm)

theorem run (hlog : ctx.log = none) (hmode : ctx.options.singleFile = true)
    (hrepeat : ctx.options.skipRepeatedIncludes = false) {events events' : List Event}
    (hevents : events.map Event.bare = events'.map Event.bare) (h : Alike s t) :
    Alike (State.run ctx source stack events s) (State.run ctx source stack events' t) := by
  fun_induction State.run ctx source stack events s generalizing events' t with
  | case1 source stack s =>
    obtain rfl : events' = [] := by simpa using hevents.symm
    rwa [run_nil]
  | case2 source stack s event events hs => rwa [run_of_halted (h.halted ▸ hs)]
  | case3 source stack s events hs f ih =>
    obtain ⟨e', events', rfl, he, htail⟩ := List.map_eq_cons_iff.1 hevents.symm
    obtain ⟨f', rfl, hf⟩ := Event.eq_fault_of_bare he
    have hhalted : t.halted = false := by rw [← h.halted]; simpa using hs
    rw [run_fault hhalted]
    exact ih htail.symm (h.report (Problem.alike_of_bare hf.symm _ _ _ _))
  | case4 source stack s events hs st hst moved p hi =>
    rename_i ih
    obtain ⟨e', events', rfl, he, htail⟩ := List.map_eq_cons_iff.1 hevents.symm
    obtain ⟨st', rfl, hst'⟩ := Event.eq_statement_of_bare he
    have hhalted : t.halted = false := by rw [← h.halted]; simpa using hs
    have hword : Action.ofWord st'.word = .include_ := by
      rwa [Statement.same hst' Statement.word fun _ => rfl]
    have hi' : Inclusion.ofStatement ctx stack (t.moveTo source st'.line) source st' = .error p :=
      (ofStatement_eq hlog hrepeat rfl hst').trans hi
    rw [run_include_error hhalted hword hi']
    exact ih htail.symm ((h.moveTo source source st.line st'.line).reportProblem p)
  | case5 source stack s events hs st hst moved path output hi =>
    exact absurd hi (not_repeated hrepeat)
  | case6 source stack s events hs st hst moved file hi output inner henter text =>
    rename_i ihinner ih
    obtain ⟨e', events', rfl, he, htail⟩ := List.map_eq_cons_iff.1 hevents.symm
    obtain ⟨st', rfl, hst'⟩ := Event.eq_statement_of_bare he
    have hhalted : t.halted = false := by rw [← h.halted]; simpa using hs
    have hword : Action.ofWord st'.word = .include_ := by
      rwa [Statement.same hst' Statement.word fun _ => rfl]
    have hi' : Inclusion.ofStatement ctx stack (t.moveTo source st'.line) source st' = .ok (.enter file) :=
      (ofStatement_eq hlog hrepeat rfl hst').trans hi
    rw [run_include_enter hhalted hword hi']
    have henter' := enterFile_single hmode (t.moveTo source st'.line) file
    obtain ⟨rfl, rfl⟩ : none = output ∧ moved.remark (.including file.path) = inner :=
      Prod.ext_iff.1 ((enterFile_single hmode moved file).symm.trans henter)
    have hinner := ihinner rfl ((h.moveTo source source st.line st'.line).remark (.including file.path)
      (.including file.path))
    rw [henter']
    exact ih htail.symm ⟨hinner.bare, hinner.diagnostics⟩
  | case7 source stack s events hs st hst ih =>
    obtain ⟨e', events', rfl, he, htail⟩ := List.map_eq_cons_iff.1 hevents.symm
    obtain ⟨st', rfl, hst'⟩ := Event.eq_statement_of_bare he
    have hhalted : t.halted = false := by rw [← h.halted]; simpa using hs
    have hword : Action.ofWord st'.word ≠ .include_ := by
      rwa [Statement.same hst' Statement.word fun _ => rfl]
    rw [run_apply hhalted hword]
    exact ih htail.symm (h.apply hlog rfl hst'.symm)

end Alike

/-- An include directive that enters a file, and the statements of the file in its place. -/
theorem alike_include {ctx : Context} (hlog : ctx.log = none) (hmode : ctx.options.singleFile = true)
    {source : Path} {stack : List Path} {st : Statement} {file : IncludedFile} {events : List Event}
    (hword : Action.ofWord st.word = .include_)
    (hfile : ∀ s : State α, Inclusion.ofStatement ctx stack s source st = .ok (.enter file))
    (hbeside : ctx.Beside file.path source)
    (hflat : ∀ st, .statement st ∈ Event.ofText ctx.options.collapseLists file.text →
      Action.ofWord st.word ≠ .include_)
    (hevents : (Event.ofText ctx.options.collapseLists file.text).map Event.bare =
      events.map Event.bare) {s t : State α} (h : Alike s t) :
    Alike (run ctx source stack [.statement st] s) (run ctx source stack events t) := by
  cases hhalted : s.halted with
  | true => rwa [run_of_halted hhalted, run_of_halted (h.halted ▸ hhalted)]
  | false =>
    let moved := s.moveTo source st.line
    have hstart : Alike (moved.remark (.including file.path)) t :=
      h.trans_eq rfl (diagnostics_remark moved _)
    have hinner : Alike (run ctx file.path (file.key :: stack)
        (Event.ofText ctx.options.collapseLists file.text) (moved.remark (.including file.path)))
        (run ctx source stack events t) :=
      hstart.run_flat hlog hbeside hevents hflat
    rw [run_include_enter hhalted hword (hfile moved), enterFile_single hmode, run_nil]
    exact ⟨hinner.bare, hinner.diagnostics⟩

end State

/-! ## Scenes -/

def includeLine (name : String) : String := "Include " ++ spellString name

theorem Lexeme.ofText_includeLine (name : String) :
    ofText (includeLine name) = [⟨1, .word "Include", []⟩, ⟨1, .quoted name, []⟩] := by
  have htext : (includeLine name).toList =
      'I' :: 'n' :: 'c' :: 'l' :: 'u' :: 'd' :: 'e' :: ' ' :: '"' ::
        (name.toList.flatMap spellChar ++ ['"']) := by
    simp [includeLine, spellString]
  rw [ofText, htext]
  simp [scan, isBlank, endsWord, readQuoted_spelled]

theorem Event.ofText_includeLine (collapse : Bool) (name : String) :
    ofText collapse (includeLine name) =
      [.statement ⟨1, "Include", some (.text name), .empty⟩] := by
  have hword : (Token.word "Include").isAction = true := by decide +kernel
  have hread : readOperands collapse [⟨1, .quoted name, []⟩] =
      ⟨(some (.text name), .empty), [], []⟩ := by
    simp [readOperands, readValue?, readParameters, Reading.after, Lexeme.ownFaults]
  rw [ofText, Lexeme.ofText_includeLine, ofLexemes]
  simp only [hword, ↓reduceIte, hread]
  simp [ofLexemes]

namespace Conversion

/-- Two conversions gave the same files and meshes, and what they reported is alike; or both stopped
before their end. -/
def Alike : Except Journal Conversion → Except Journal Conversion → Prop
  | .ok c, .ok c' =>
    c.files = c'.files ∧ c.meshes = c'.meshes ∧
      List.Forall₂ Diagnostic.Alike c.diagnostics c'.diagnostics
  | .error _, .error _ => True
  | _, _ => False

theorem alike_ending {ctx : Context} {s t : State Float32} (h : s.Alike t) :
    Alike (ending ctx s) (ending ctx t) := by
  let flat (s : State Float32) : Prop := ∀ w ∈ s.written, w.isIndented = false
  have hflat : flat s = flat t :=
    h.same flat fun s => propext (by simp [flat, State.bare, Writing.isIndented])
  have hstopped : stopped? ctx s = none ↔ stopped? ctx t = none := by
    rw [stopped?_eq_none, stopped?_eq_none, h.halted]
    exact and_congr_left' (imp_congr_right fun _ => iff_of_eq hflat)
  unfold ending
  cases hs : stopped? ctx s with
  | some j =>
    cases ht : stopped? ctx t with
    | some j' => trivial
    | none => rw [hstopped.2 ht] at hs; cases hs
  | none =>
    rw [hstopped.1 hs]
    exact ⟨h.same (fun s => (ofState ctx s).files) fun _ => rfl,
      h.same (fun s => (ofState ctx s).meshes) fun _ => rfl, h.diagnostics⟩

/-- With a single output file and without a look at earlier inclusions, including a file of the
directory is as good as pasting its text on lines of their own, whatever stands before and behind. -/
theorem include_spliced {options : Options} {files : FileTree} {input path : Path}
    {name a text b : String} (hmode : options.singleFile = true)
    (hrepeat : options.skipRepeatedIncludes = false)
    (hpath : files.include? input name (Context.of options files input).includeRoot = some path)
    (htext : files.readText path = .ok text)
    (hbeside : files.directoryOf path = files.directoryOf input)
    (hstack : files.absolute path ≠ files.absolute input)
    (hflat : ∀ st ∈ Event.statements options.collapseLists text, Action.ofWord st.word ≠ .include_)
    (hresumes : Lexeme.Resumes (Lexeme.ofText text)) (hb : Lexeme.Resumes (Lexeme.ofText b)) :
    ∃ r r',
      ofScene (Context.of options files input)
        (.text (a ++ "\n" ++ includeLine name ++ "\n" ++ b)) = .ok r ∧
      ofScene (Context.of options files input) (.text (a ++ "\n" ++ text ++ "\n" ++ b)) = .ok r' ∧
      Alike r r' := by
  let ctx := Context.of options files input
  let stack := [files.absolute input]
  have hinclude : Lexeme.Resumes (Lexeme.ofText (includeLine name)) := by
    intro x hx
    rw [Lexeme.ofText_includeLine] at hx
    cases hx
    decide +kernel
  obtain ⟨xs, ys, zs, hevents, hxs, hys, hzs⟩ :=
    Event.exists_parts options.collapseLists a hinclude hb
  obtain ⟨xs', ys', zs', hevents', hxs', hys', hzs'⟩ :=
    Event.exists_parts options.collapseLists a hresumes hb
  rw [Event.ofText_includeLine] at hys
  obtain ⟨y, rfl, hy⟩ := List.map_eq_singleton_iff.1 hys
  obtain ⟨st, rfl, hst⟩ := Event.eq_statement_of_bare hy
  have hfile (s : State Float32) : Inclusion.ofStatement ctx stack s input st =
      .ok (.enter ⟨path, files.absolute path, text⟩) := by
    have hname : st.text? = some name := Statement.same hst Statement.text? fun _ => rfl
    have hfiles (j : Journal) : ctx.filesFor j path = files := Context.filesFor_of_log rfl j path
    have hrepeat' : ctx.options.skipRepeatedIncludes = false := hrepeat
    have hpath' : ctx.files.include? input name ctx.includeRoot = some path := hpath
    simp only [Inclusion.ofStatement, hname, hpath', hfiles, htext, hrepeat', stack,
      List.mem_singleton, hstack, Bool.false_eq_true, ↓reduceIte]
  have hread (s : State Float32) :
      (s.read ctx input (a ++ "\n" ++ includeLine name ++ "\n" ++ b)).Alike
        (s.read ctx input (a ++ "\n" ++ text ++ "\n" ++ b)) := by
    unfold State.read
    rw [show ctx.options.collapseLists = options.collapseLists from rfl, hevents, hevents']
    simp only [State.run_append]
    have hbefore : (s.run ctx input stack xs).Alike (s.run ctx input stack xs') :=
      (State.Alike.refl s).run rfl hmode hrepeat (hxs.trans hxs'.symm)
    have hword : Action.ofWord st.word = .include_ := by
      rw [show st.word = "Include" from Statement.same hst Statement.word fun _ => rfl]
      decide
    have hflat' (st : Statement) (hst : .statement st ∈ Event.ofText options.collapseLists text) :
        Action.ofWord st.word ≠ .include_ :=
      hflat st (List.mem_filterMap.2 ⟨_, hst, rfl⟩)
    have hlog : ctx.log = none := rfl
    have hpasted := State.alike_include hlog hmode hword hfile hbeside hflat' hys'.symm hbefore
    exact hpasted.run rfl hmode hrepeat (hzs.trans hzs'.symm)
  refine ⟨_, _, rfl, rfl, alike_ending (State.Alike.finish ?_)⟩
  exact hread _

/-- A file that opens a scope, which is closed behind its inclusion. -/
theorem include_spliced_scope :
    ∃ r r',
      ofScene (Context.of { singleFile := true }
        ⟨[(["open.pbrt"], .file "AttributeBegin".toUTF8)], []⟩ ⟨"/main.pbrt"⟩)
        (.text ("Identity" ++ "\n" ++ includeLine "open.pbrt" ++ "\n" ++ "AttributeEnd")) = .ok r ∧
      ofScene (Context.of { singleFile := true }
        ⟨[(["open.pbrt"], .file "AttributeBegin".toUTF8)], []⟩ ⟨"/main.pbrt"⟩)
        (.text ("Identity" ++ "\n" ++ "AttributeBegin" ++ "\n" ++ "AttributeEnd")) = .ok r' ∧
      Alike r r' := by
  have hbegin : Lexeme.ofText "AttributeBegin" = [⟨1, .word "AttributeBegin", []⟩] := by cbv
  have hend : Lexeme.ofText "AttributeEnd" = [⟨1, .word "AttributeEnd", []⟩] := by cbv
  have hstatements : Event.statements true "AttributeBegin" = [⟨1, "AttributeBegin", none, .empty⟩] := by
    cbv
  have hpath : (⟨[(["open.pbrt"], .file "AttributeBegin".toUTF8)], []⟩ : FileTree).include?
      ⟨"/main.pbrt"⟩ "open.pbrt" (Context.of { singleFile := true }
        ⟨[(["open.pbrt"], .file "AttributeBegin".toUTF8)], []⟩ ⟨"/main.pbrt"⟩).includeRoot =
      some ⟨"/open.pbrt"⟩ := by decide +kernel
  refine include_spliced rfl rfl hpath ?_ ?_ ?_ ?_ ?_ ?_
  · with_unfolding_all rfl
  · decide +kernel
  · decide +kernel
  · rw [hstatements]
    decide
  · rw [hbegin]
    intro y hy
    cases hy
    decide +kernel
  · rw [hend]
    intro y hy
    cases hy
    decide +kernel

end Conversion

end SceneConvert
