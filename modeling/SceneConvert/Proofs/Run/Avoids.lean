import SceneConvert.Proofs.Document.EntryLines
import SceneConvert.Proofs.Path.Avoids
import SceneConvert.Proofs.Run.Naming
import SceneConvert.Proofs.Run.ObeysRun
import SceneConvert.Proofs.Run.Pages
import SceneConvert.Proofs.Statement.Words

/-!
# SceneConvert.Proofs.Run.Avoids

Conversions of scenes whose strings and paths do without some foreign character.

* `Context.PathsAvoid`, `Scene.texts`: what has to do without it.
* `State.avoids_entered`: then so do the paths of included files.
* `Policy.avoiding`, `State.avoids_ofScene`: and so do the names and files of all entries, and the output
  files.
* `Context.IsUnbroken`, `HasUnbrokenStrings`, `State.unbroken_ofScene`: the same for line breaks.
-/

namespace SceneConvert

/-- No path that a conversion starts from has the character in it. -/
structure Context.PathsAvoid (c : Char) (ctx : Context) : Prop where
  workingDirectory : ∀ n ∈ ctx.files.workingDirectory, Avoids c n
  includeRoot : Avoids c ctx.includeRoot.text
  input : Avoids c ctx.input.text

/-- The text of a scene and the texts of all files that it enters, in order. -/
def Scene.texts (ctx : Context) (scene : Scene) : List String :=
  match scene.content ctx with
  | .error _ => []
  | .ok content =>
    content :: ((scene.opening ctx : State Float32).entered ctx ctx.input
      [ctx.files.absolute ctx.input] (Event.ofText ctx.options.collapseLists content)).map
        IncludedFile.text

theorem Context.workingDirectory_filesFor (ctx : Context) (journal : Journal) (p : Path) :
    (ctx.filesFor journal p).workingDirectory = ctx.files.workingDirectory := by
  unfold filesFor
  split
  · split <;> rfl
  · rfl

section

variable {c : Char} (hc : IsForeign c) {ctx : Context} (hctx : ctx.PathsAvoid c)

include hc

/-! ## Included files -/

section

include hctx

theorem Inclusion.avoids_of_enter {α : Type} {stack : List Path} {s : State α} {source : Path}
    (hsource : Avoids c source.text) {st : Statement} (hwords : ∀ w ∈ st.words, Avoids c w)
    {file : IncludedFile} (h : ofStatement ctx stack s source st = .ok (.enter file)) :
    Avoids c file.path.text ∧ Avoids c file.key.text := by
  obtain ⟨⟨⟨name, hname, hpath⟩, hkey, -⟩, -, -⟩ := found_of_enter h
  have hfound : Avoids c file.path.text := FileTree.avoids_include? hc hctx.workingDirectory hsource
    (hwords name (Statement.mem_words_of_text? hname)) hctx.includeRoot hpath
  refine ⟨hfound, hkey ▸ FileTree.avoids_absolute hc ?_ hfound⟩
  rw [Context.workingDirectory_filesFor]
  exact hctx.workingDirectory

theorem State.avoids_entered {α : Type} [Scalar α] {source : Path} {stack : List Path}
    {events : List Event} {s : State α} (hsource : Avoids c source.text)
    (hevents : ∀ st, .statement st ∈ events → ∀ w ∈ st.words, Avoids c w)
    (hfiles : ∀ file ∈ s.entered ctx source stack events, StringsAvoid c file.text) :
    ∀ file ∈ s.entered ctx source stack events, Avoids c file.path.text ∧ Avoids c file.key.text := by
  fun_induction State.entered ctx source stack events s with
  | case1 | case2 => simp
  | case3 source stack s events hs f ih =>
    exact ih hsource (fun st hst => hevents st (List.mem_cons_of_mem _ hst)) hfiles
  | case4 source stack s events hs st hst _ p hi ih =>
    exact ih hsource (fun st hst => hevents st (List.mem_cons_of_mem _ hst)) hfiles
  | case5 source stack s events hs st hst _ path output hi ih =>
    exact ih hsource (fun st hst => hevents st (List.mem_cons_of_mem _ hst)) hfiles
  | case6 source stack s events hs st hst _ file hi output inner henter text behind ihinner ih =>
    have hfile := Inclusion.avoids_of_enter hc hctx hsource (hevents st List.mem_cons_self) hi
    have htext : StringsAvoid c file.text := hfiles file (by simp)
    have hinner := ihinner hfile.1 (fun st hst => avoids_of_mem_words hc htext hst)
      fun f hf => hfiles f (by simp [hf])
    have hrest := ih hsource (fun st hst => hevents st (List.mem_cons_of_mem _ hst))
      fun f hf => hfiles f (by simp [hf])
    intro f hf
    rcases List.mem_append.1 hf with hf | hf
    · rcases List.mem_cons.1 hf with rfl | hf
      · exact hfile
      · exact hinner f hf
    · exact hrest f hf
  | case7 source stack s events hs st hst ih =>
    exact ih hsource (fun st hst => hevents st (List.mem_cons_of_mem _ hst)) hfiles

end

/-! ## Entries -/

def Policy.avoiding {α : Type} : Policy α where
  holds _ r := Avoids c r.2
  word := Avoids c
  file p := Avoids c p.text
  included p := Avoids c p.text
  grows _ h := h
  defines h := h
  counted counter n := by
    have hlabel : Avoids c counter.label := hc.avoids (by cases counter <;> decide)
    have hbar : Avoids c "_" := hc.avoids (by decide)
    simp only [Counter.name, avoids_append]
    exact ⟨⟨hlabel, hbar⟩, hc.avoids_toString n⟩
  unscaled h := avoids_append.2 ⟨h, hc.avoids (by decide)⟩
  mapped h := avoids_append.2 ⟨h, hc.avoids (by decide)⟩
  separate h := avoids_append.2 ⟨avoids_append.2 ⟨hc.avoids (by decide), h⟩, hc.avoids (by decide)⟩
  camera := hc.avoids (by decide)

theorem Policy.Admits.spelled {α : Type} {es : List (Entry α)} {e : Entry α}
    (h : (Policy.avoiding hc : Policy α).Admits es e) : e.Spelled (Avoids c) := by
  cases e with
  | fragment f => exact ⟨h.word _ rfl, h.references, h.file⟩
  | include_ p => exact h.included p rfl
  | setting | activeCamera => trivial

variable {scene : Scene} (htexts : ∀ text ∈ scene.texts ctx, StringsAvoid c text)

include hctx htexts

theorem Scene.avoids_entered {content : String} (hcontent : scene.content ctx = .ok content) :
    ∀ file ∈ (scene.opening ctx : State Float32).entered ctx ctx.input [ctx.files.absolute ctx.input]
      (Event.ofText ctx.options.collapseLists content),
      StringsAvoid c file.text ∧ Avoids c file.path.text ∧ Avoids c file.key.text := by
  rw [texts, hcontent] at htexts
  obtain ⟨htext, htexts⟩ := List.forall_mem_cons.1 htexts
  have hfiles := List.forall_mem_map.1 htexts
  have hpaths := State.avoids_entered hc hctx hctx.input
    (fun st hst => avoids_of_mem_words hc htext hst) hfiles
  exact fun file hfile => ⟨hfiles file hfile, hpaths file hfile⟩

theorem Scene.permitted_avoiding : scene.Permitted (Policy.avoiding hc : Policy Float32) ctx := by
  have permits {source : Path} (hsource : Avoids c source.text) {text : String}
      (htext : StringsAvoid c text) {e : Event} (he : e ∈ Event.ofText ctx.options.collapseLists text) :
      (Policy.avoiding hc : Policy Float32).Permits ctx source e := by
    cases e with
    | fault f => trivial
    | statement st =>
      intro w hw
      have hword := avoids_of_mem_words hc htext he w hw
      exact ⟨hword, FileTree.avoids_fileFor hc hctx.workingDirectory hsource hword hctx.includeRoot⟩
  intro content hcontent
  have hentered := Scene.avoids_entered hc hctx htexts hcontent
  rw [texts, hcontent] at htexts
  obtain ⟨htext, -⟩ := List.forall_mem_cons.1 htexts
  refine ⟨fun e he => permits hctx.input htext he, fun file hfile e he => ?_⟩
  obtain ⟨htext, hpath, -⟩ := hentered file hfile
  exact permits hpath htext he

theorem State.avoids_finished {s : State Float32} (h : ofScene ctx scene = .ok s) :
    ∀ page ∈ s.finished, Avoids c page.file.text := by
  intro page hpage
  have hfile : page.file ∈ Path.handedOut (scene.requests ctx) :=
    (finished_ofScene h).mem_iff.1 (List.mem_map_of_mem (Array.mem_toList_iff.2 hpage))
  obtain ⟨base, n, hlt, hname⟩ := Path.mem_handedOut.1 hfile
  have hbase : base ∈ scene.requests ctx := List.count_pos_iff.1 (Nat.zero_lt_of_lt hlt)
  have havoids : Avoids c base.text := by
    obtain ⟨content, hcontent, -⟩ := exists_read_of_ofScene h
    rw [Scene.requests, hcontent] at hbase
    dsimp only [IncludedFile.requests] at hbase
    split at hbase
    · cases hbase
    · obtain ⟨file, hentered, rfl⟩ := List.mem_map.1 hbase
      exact Path.avoids_outputFor hc (Scene.avoids_entered hc hctx htexts hcontent file hentered).2.2 _
  rw [hname]
  unfold Path.nth
  split
  · exact havoids
  · exact Path.avoids_numbered hc havoids n

theorem State.avoids_ofScene {s : State Float32} (h : ofScene ctx scene = .ok s) :
    ∀ page ∈ s.pages ctx, ∀ e ∈ page.entries, e.Spelled (Avoids c) := by
  have hmet : (Policy.avoiding hc : Policy Float32).IsMetBy s :=
    ⟨.inl fun _ _ hr => hr, avoids_finished hc hctx htexts h⟩
  have hobeys := obeys_ofScene h (Scene.permitted_avoiding hc hctx htexts) hmet
  intro page hpage e he
  have hmem : e ∈ s.entries :=
    ((interleaves_ofScene h).sublist page.entries (List.mem_map_of_mem hpage)).subset he
  obtain ⟨before, after, hes⟩ := List.append_of_mem hmem
  exact (hobeys.entries.admits hes).spelled

end

/-! ## Line breaks -/

def Path.IsUnbroken (p : Path) : Prop := Unbroken p.text

instance (p : Path) : Decidable p.IsUnbroken := inferInstanceAs (Decidable (Unbroken p.text))

/-- No path that a conversion starts from has a line break in it. -/
structure Context.IsUnbroken (ctx : Context) : Prop where
  workingDirectory : ∀ n ∈ ctx.files.workingDirectory, Unbroken n
  includeRoot : ctx.includeRoot.IsUnbroken
  input : ctx.input.IsUnbroken

def HasUnbrokenStrings (text : String) : Prop :=
  ∀ x ∈ Lexeme.ofText text, ∀ s, x.token = .quoted s → Unbroken s

/-- No entry of an output file has a line break in its names or files. -/
theorem State.unbroken_ofScene {ctx : Context} (hctx : ctx.IsUnbroken) {scene : Scene}
    (htexts : ∀ text ∈ scene.texts ctx, HasUnbrokenStrings text) {s : State Float32}
    (h : ofScene ctx scene = .ok s) :
    ∀ page ∈ s.pages ctx, ∀ e ∈ page.entries, e.Spelled Unbroken :=
  avoids_ofScene (c := '\n') (by decide) ⟨hctx.workingDirectory, hctx.includeRoot, hctx.input⟩ htexts h

end SceneConvert
