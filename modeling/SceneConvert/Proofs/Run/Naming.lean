import SceneConvert.Proofs.Path.Requests
import SceneConvert.Proofs.Run.Output
import SceneConvert.Proofs.Run.Scene

/-!
# SceneConvert.Proofs.Run.Naming

The paths of the output files of a run.

* `Scene.requests`: the names that the included files of a run ask for, in order.
* `kept_named`: the files that a run finishes are, up to order, what the requests get.
* `paths_ofScene`: so are the files of a conversion behind its main file.
-/

namespace SceneConvert

open SceneConvert.Path

/-- The names that included files ask for. Files that go into the file that includes them need none. -/
def IncludedFile.requests (ctx : Context) (files : List IncludedFile) : List Path :=
  if ctx.options.singleFile then [] else files.map fun f => f.key.outputFor ctx.inputDirectory

namespace State

variable {α : Type}

/-- `outputNames` counts the requests so far. -/
def CountsRequests (s : State α) (requests : List Path) : Prop :=
  ∀ b, (s.outputNames.get? b).getD 0 = requests.count b

/-- The finished files of `t` are those of `s` and what the requests get. -/
def Named (ctx : Context) (files : List IncludedFile) (s t : State α) : Prop :=
  ∀ earlier, s.CountsRequests earlier →
    t.CountsRequests (IncludedFile.requests ctx files ++ earlier) ∧
    ∃ new, t.finished.toList.map Page.file = s.finished.toList.map Page.file ++ new ∧
      new.Perm ((requestNumbers earlier (IncludedFile.requests ctx files)).map fun r => r.1.nth r.2)

theorem requests_append (ctx : Context) (files files' : List IncludedFile) :
    IncludedFile.requests ctx (files ++ files') =
      IncludedFile.requests ctx files ++ IncludedFile.requests ctx files' := by
  unfold IncludedFile.requests
  split <;> simp

theorem named_of_output {ctx : Context} {s t : State α} (hfinished : t.finished = s.finished)
    (hnames : t.outputNames = s.outputNames) : Named ctx [] s t := by
  intro earlier hearlier
  have hnone : IncludedFile.requests ctx [] = [] := by
    unfold IncludedFile.requests
    split <;> rfl
  rw [hnone]
  refine ⟨fun b => ?_, [], by simp [hfinished], by simp [requestNumbers]⟩
  rw [hnames]
  exact hearlier b

theorem named_trans {ctx : Context} {files files' : List IncludedFile} {s t u : State α}
    (h : Named ctx files s t) (h' : Named ctx files' t u) : Named ctx (files ++ files') s u := by
  intro earlier hearlier
  obtain ⟨hcount, new, hnew, hperm⟩ := h earlier hearlier
  obtain ⟨hcount', new', hnew', hperm'⟩ := h' _ hcount
  rw [requests_append, requestNumbers_append, List.map_append]
  refine ⟨fun b => ?_, new ++ new', by rw [hnew', hnew, List.append_assoc], hperm.append hperm'⟩
  rw [hcount' b]
  simp only [List.count_append]
  omega

theorem countsRequests_set {s : State α} {earlier : List Path} (h : s.CountsRequests earlier)
    (base : Path) :
    CountsRequests { s with outputNames := s.outputNames.set base (earlier.count base + 1) }
      (base :: earlier) := by
  intro b
  by_cases hb : b = base
  · rw [hb, Dictionary.get?_set_self, Option.getD_some, List.count_cons_self]
  · rw [Dictionary.get?_set_of_ne _ _ hb, h b, List.count_cons_of_ne (Ne.symm hb)]

theorem takeOutput_eq {ctx : Context} {s : State α} {earlier : List Path}
    (h : s.CountsRequests earlier) {key base : Path} (hbase : key.outputFor ctx.inputDirectory = base) :
    s.takeOutput ctx key =
      (base.nth (earlier.count base),
        { s with outputNames := s.outputNames.set base (earlier.count base + 1) }) := by
  simp only [takeOutput, hbase, h base]
  rfl

theorem enterFile_separate {ctx : Context} {s : State α} (hmode : ctx.options.singleFile = false)
    {earlier : List Path} (h : s.CountsRequests earlier) {file : IncludedFile} {base : Path}
    (hbase : file.key.outputFor ctx.inputDirectory = base) :
    (s.enterFile ctx file).1 = some (base.nth (earlier.count base)) ∧
    (s.enterFile ctx file).2.finished = s.finished ∧
    (s.enterFile ctx file).2.CountsRequests (base :: earlier) := by
  have hremark : (s.remark (.including file.path)).CountsRequests earlier := h
  have htake := takeOutput_eq hremark hbase
  simp only [enterFile, hmode, Bool.false_eq_true, ↓reduceIte, htake]
  exact ⟨trivial, rfl, countsRequests_set h base⟩

/-- An included file asks for its name before the files that it includes, and is finished after
them. -/
theorem named_file {ctx : Context} {file : IncludedFile} {files : List IncludedFile}
    {s before inner : State α} (hfinished : before.finished = s.finished)
    (hnames : before.outputNames = s.outputNames)
    (h : Named ctx files (before.enterFile ctx file).2 inner) :
    Named ctx (file :: files) s (inner.leaveFile before file (before.enterFile ctx file).1) := by
  intro earlier hearlier
  have hbefore : before.CountsRequests earlier := by
    intro b
    rw [hnames]
    exact hearlier b
  cases hmode : ctx.options.singleFile with
  | true =>
    have hnone (fs : List IncludedFile) : IncludedFile.requests ctx fs = [] := by
      simp [IncludedFile.requests, hmode]
    have hoff : (before.enterFile ctx file).1 = none := by simp [enterFile, hmode]
    have henter : (before.enterFile ctx file).2.finished = s.finished ∧
        (before.enterFile ctx file).2.outputNames = s.outputNames := by
      simp only [enterFile, hmode, ↓reduceIte]
      exact ⟨hfinished, hnames⟩
    obtain ⟨hcount, new, hnew, hperm⟩ := h earlier (by
      intro b
      rw [henter.2]
      exact hearlier b)
    rw [hnone] at hcount hperm ⊢
    rw [hoff]
    rw [henter.1] at hnew
    exact ⟨hcount, new, hnew, hperm⟩
  | false =>
    generalize hbase : file.key.outputFor ctx.inputDirectory = base
    obtain ⟨houtput, hkept, hcounts⟩ := enterFile_separate hmode hbefore hbase
    obtain ⟨hcount, new, hnew, hperm⟩ := h _ hcounts
    have hrequests : IncludedFile.requests ctx (file :: files) =
        base :: IncludedFile.requests ctx files := by
      simp [IncludedFile.requests, hmode, hbase]
    rw [hrequests, houtput, requestNumbers]
    refine ⟨fun b => ?_, new ++ [base.nth (earlier.count base)], ?_, ?_⟩
    · have hb := hcount b
      simp only [List.count_append, List.count_cons, List.cons_append] at hb ⊢
      change (inner.outputNames.get? b).getD 0 = _
      omega
    · rw [hkept, hfinished] at hnew
      simp only [leaveFile, write, Array.toList_push, List.map_append, hnew, List.map_cons,
        List.map_nil, List.append_assoc]
    · rw [List.map_cons]
      exact (List.perm_append_singleton _ _).trans (hperm.cons _)

variable [Scalar α]

theorem kept_named (ctx : Context) : Kept ctx (fun _ _ => True) (Named ctx (α := α)) where
  refl s := named_of_output rfl rfl
  trans := named_trans
  tick := by
    intro source stack event s t _ _ htick
    obtain ⟨ws, hws⟩ := htick.output
    rw [Output.writeAll_eq] at hws
    exact named_of_output (congrArg Output.finished hws) (congrArg Output.outputNames hws)
  file := by
    intro source stack st file files s inner _ _ _ h
    exact named_file rfl rfl h

end State

/-- The names that the included files of a scene ask for. -/
def Scene.requests (ctx : Context) (scene : Scene) : List Path :=
  match scene.content ctx with
  | .error _ => []
  | .ok content =>
    IncludedFile.requests ctx ((scene.opening ctx : State Float32).entered ctx ctx.input
      [ctx.files.absolute ctx.input] (Event.ofText ctx.options.collapseLists content))

theorem State.named_read {α : Type} [Scalar α] (ctx : Context) (source : Path) (text : String)
    (s : State α) :
    Named ctx (s.entered ctx source [ctx.files.absolute ctx.input]
      (Event.ofText ctx.options.collapseLists text)) s (s.read ctx source text) :=
  (kept_named ctx).run (fun _ _ => trivial) fun _ _ _ _ => trivial

/-- The files that a scene finishes are what the requests get. -/
theorem State.finished_ofScene {ctx : Context} {scene : Scene} {s : State Float32}
    (h : ofScene ctx scene = .ok s) :
    (s.finished.toList.map Page.file).Perm (handedOut (scene.requests ctx)) := by
  obtain ⟨text, htext, rfl⟩ := exists_read_of_ofScene h
  have hopening : (scene.opening ctx : State Float32).CountsRequests [] ∧
      (scene.opening ctx : State Float32).finished = #[] := by
    cases scene <;> exact ⟨fun _ => rfl, rfl⟩
  have hread := named_read ctx ctx.input text (scene.opening ctx : State Float32) [] hopening.1
  obtain ⟨_, new, hnew, hperm⟩ := hread
  rw [finished_finish, hnew, hopening.2, Scene.requests, htext]
  exact hperm

/-- The main file of a conversion and what the requests get. -/
theorem Conversion.paths_ofScene {ctx : Context} {scene : Scene} {c : Conversion}
    (h : ofScene ctx scene = .ok (.ok c)) :
    ∃ paths, c.files.map OutputFile.path = ctx.mainOutput :: paths ∧
      paths.Perm (handedOut (scene.requests ctx)) := by
  obtain ⟨s, hs, hending⟩ := ofScene_ok h
  refine ⟨s.finished.toList.map Page.file, ?_, State.finished_ofScene hs⟩
  unfold ending at hending
  split at hending
  · cases hending
  · cases hending
    simp [ofState, Function.comp_def]

end SceneConvert
