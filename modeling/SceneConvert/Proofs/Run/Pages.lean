import SceneConvert.Proofs.Run.Output
import SceneConvert.Proofs.Run.Policy
import SceneConvert.Proofs.Run.Scene

/-!
# SceneConvert.Proofs.Run.Pages

The entries of a run and the pages that they stand on.

* `Interleaves`: a sequence of entries that takes its turns from several pages.
* `interleaves_ofScene`: the order in which a conversion writes interleaves its files.
-/

namespace SceneConvert

variable {α : Type}

/-- All entries are those of the pages, each page having its own in the same order. -/
structure Interleaves (es : List (Entry α)) (pages : List (List (Entry α))) : Prop where
  perm : pages.flatten.Perm es
  sublist : ∀ page ∈ pages, page.Sublist es

namespace State

/-- What is written between `s` and `t` stands at the end of the open page and on the pages that are
finished. -/
def Paged (_ : List IncludedFile) (s t : State α) : Prop :=
  ∃ es own pages, t.entries = s.entries ++ es ∧ t.page.toList = s.page.toList ++ own ∧
    t.finished.toList = s.finished.toList ++ pages ∧ Interleaves es (own :: pages.map Page.entries)

theorem paged_refl (s : State α) : Paged [] s s :=
  ⟨[], [], [], by simp, by simp, by simp, by simp, by simp⟩

theorem paged_trans {files files' : List IncludedFile} {s t u : State α} (h : Paged files s t)
    (h' : Paged files' t u) : Paged (files ++ files') s u := by
  obtain ⟨es, own, pages, hes, hown, hpages, hinter⟩ := h
  obtain ⟨es', own', pages', hes', hown', hpages', hinter'⟩ := h'
  refine ⟨es ++ es', own ++ own', pages ++ pages', ?_, ?_, ?_, ?_, fun page hpage => ?_⟩
  · rw [hes', hes, List.append_assoc]
  · rw [hown', hown, List.append_assoc]
  · rw [hpages', hpages, List.append_assoc]
  · have hperm := hinter.perm.append hinter'.perm
    simp only [List.flatten_cons, List.map_append, List.flatten_append, List.append_assoc] at hperm ⊢
    refine List.Perm.trans (List.Perm.append_left own ?_) hperm
    rw [← List.append_assoc, ← List.append_assoc]
    have hswap : (own' ++ (pages.map Page.entries).flatten).Perm ((pages.map Page.entries).flatten ++ own') :=
      List.perm_append_comm
    exact hswap.append_right _
  · rcases List.mem_cons.1 hpage with rfl | hpage
    · exact (hinter.sublist own List.mem_cons_self).append (hinter'.sublist own' List.mem_cons_self)
    · rw [List.map_append] at hpage
      rcases List.mem_append.1 hpage with hpage | hpage
      · exact (hinter.sublist page (List.mem_cons_of_mem _ hpage)).trans (List.sublist_append_left _ _)
      · exact (hinter'.sublist page (List.mem_cons_of_mem _ hpage)).trans (List.sublist_append_right _ _)

theorem paged_of_output {s t : State α} {ws : List (Entry α × Nat)}
    (h : t.output = s.output.writeAll ws) : Paged [] s t := by
  rw [Output.writeAll_eq] at h
  have hwritten : t.written = s.written ++ (ws.map fun w => ⟨w.1, s.pageDepth, w.2⟩).toArray :=
    congrArg Output.written h
  have hpage : t.page = s.page ++ (ws.map Prod.fst).toArray := congrArg Output.page h
  refine ⟨ws.map Prod.fst, ws.map Prod.fst, [], ?_, by simp [hpage], ?_, by simp, by simp⟩
  · simp [entries, hwritten, Function.comp_def]
  · rw [show t.finished = s.finished from congrArg Output.finished h, List.append_nil]

theorem paged_file {ctx : Context} {file : IncludedFile} {files : List IncludedFile}
    {s before inner : State α} (hentries : before.entries = s.entries) (hpage : before.page = s.page)
    (hfinished : before.finished = s.finished)
    (h : Paged files (before.enterFile ctx file).2 inner) :
    Paged (file :: files) s (inner.leaveFile before file (before.enterFile ctx file).1) := by
  obtain ⟨es, own, pages, hes, hown, hpages, hinter⟩ := h
  cases hmode : ctx.options.singleFile with
  | true =>
    simp only [enterFile, hmode, ↓reduceIte] at hes hown hpages ⊢
    refine ⟨es, own, pages, ?_, ?_, ?_, hinter⟩
    · rw [← hentries]
      exact hes
    · rw [← hpage]
      exact hown
    · rw [← hfinished]
      exact hpages
  | false =>
    simp only [enterFile, hmode, Bool.false_eq_true, ↓reduceIte] at hes hown hpages ⊢
    generalize ((before.remark (.including file.path)).takeOutput ctx file.key).1 = output
    have hnew : inner.page.toList = own := by simpa using hown
    refine ⟨es ++ [.include_ output], [.include_ output], pages ++ [⟨output, own⟩], ?_, ?_, ?_, ?_,
      fun page hmem => ?_⟩
    · rw [← List.append_assoc, ← hentries]
      exact (entries_write _ _).trans (congrArg (· ++ [_]) hes)
    · rw [← hpage]
      simp [leaveFile, write]
    · rw [← hfinished]
      simp only [leaveFile, write, Array.toList_push, hpages, hnew, List.append_assoc]
      rfl
    · have hperm := hinter.perm.append_right [Entry.include_ output]
      refine List.Perm.trans ?_ hperm
      simp only [List.flatten_cons, List.map_append, List.map_cons, List.map_nil, List.flatten_append,
        List.flatten_nil, List.append_nil]
      refine List.perm_append_comm.trans (List.Perm.append_right _ ?_)
      exact List.perm_append_comm
    · simp only [List.map_append, List.map_cons, List.map_nil, List.mem_cons, List.mem_append,
        List.not_mem_nil, or_false] at hmem
      rcases hmem with rfl | hmem | rfl
      · exact List.sublist_append_right _ _
      · exact (hinter.sublist page (List.mem_cons_of_mem _ hmem)).trans (List.sublist_append_left _ _)
      · exact (hinter.sublist _ List.mem_cons_self).trans (List.sublist_append_left _ _)

variable [Scalar α]

theorem kept_paged (ctx : Context) : Kept ctx (fun _ _ => True) (Paged (α := α)) where
  refl := paged_refl
  trans := paged_trans
  tick _ _ htick := htick.output.elim fun _ hws => paged_of_output hws
  file _ _ _ h := paged_file rfl rfl rfl h

/-- The order in which a conversion writes takes its turns from the pages of its files. -/
theorem interleaves_ofScene {ctx : Context} {scene : Scene} {s : State α}
    (h : ofScene ctx scene = .ok s) :
    Interleaves s.entries ((s.pages ctx).map Page.entries) := by
  obtain ⟨text, -, rfl⟩ := exists_read_of_ofScene h
  have hread : Paged _ (scene.opening ctx : State α) ((scene.opening ctx).read ctx ctx.input text) :=
    (kept_paged ctx).run (fun _ _ => trivial) fun _ _ _ _ => trivial
  obtain ⟨ws, hws⟩ := (writesAt_finish ((scene.opening ctx : State α).read ctx ctx.input text)).output
  obtain ⟨es, own, pages, hes, hown, hpages, hinter⟩ := paged_trans hread (paged_of_output hws)
  have hopening : (scene.opening ctx : State α).entries = [] ∧
      (scene.opening ctx : State α).page = #[] ∧ (scene.opening ctx : State α).finished = #[] := by
    cases scene <;> exact ⟨rfl, rfl, rfl⟩
  rw [hopening.1, List.nil_append] at hes
  rw [hopening.2.1] at hown
  rw [hopening.2.2] at hpages
  rw [State.pages, hes, List.map_cons, hown, hpages]
  exact hinter

end State

end SceneConvert
