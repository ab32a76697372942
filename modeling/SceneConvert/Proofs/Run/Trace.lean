import Mathlib.Data.List.Forall2
import SceneConvert.Proofs.Document.EntryLines
import SceneConvert.Proofs.Run.Policy
import SceneConvert.Proofs.Survey.Nearby
import SceneConvert.Proofs.Survey.Verdicts

/-!
# SceneConvert.Proofs.Run.Trace

What a conversion leaves behind, and how the traces of two conversions go together.

* `Trace`, `Mark`: what was written and said, the meshes and the camera; one more of these.
* `State.traced`: a state with another trace. No directive but a camera looks at the trace.
* `Accord`: which entries of one conversion may stand for which of another. `Accord.Agree`: traces whose
  pages go together file by file.
* `Accord.identical`, `Accord.unsetting`: the same entries; the same ones, but for render settings.
* `Accord.Concur`: two operations that do the same at a state, but leave marks that go together.
-/

namespace SceneConvert

/-- What a state leaves behind. -/
structure Trace (α : Type) where
  page : Array (Entry α)
  pageDepth : Nat
  written : Array (Writing α)
  finished : Array (Page α)
  meshes : Array SeparateMesh
  journal : Journal
  camera : Option (Camera α)

/-- One more thing on a trace. -/
inductive Mark (α : Type) where
  | write (e : Entry α)
  | mesh (x : SeparateMesh)
  | note (n : Note)
  | aim (c : Camera α)

namespace Trace

variable {α : Type}

def add (τ : Trace α) : Mark α → Trace α
  | .write e =>
    { τ with
      page := τ.page.push e
      written := τ.written.push ⟨e, τ.pageDepth, τ.journal.size⟩ }
  | .mesh x => { τ with meshes := τ.meshes.push x }
  | .note n => { τ with journal := τ.journal.push n }
  | .aim c => { τ with camera := some c }

def addAll (τ : Trace α) (xs : List (Mark α)) : Trace α := xs.foldl add τ

@[simp] theorem addAll_nil (τ : Trace α) : τ.addAll [] = τ := rfl

@[simp] theorem addAll_cons (τ : Trace α) (x : Mark α) (xs : List (Mark α)) :
    τ.addAll (x :: xs) = (τ.add x).addAll xs := rfl

@[simp] theorem addAll_append (τ : Trace α) (xs ys : List (Mark α)) :
    τ.addAll (xs ++ ys) = (τ.addAll xs).addAll ys := List.foldl_append

theorem addAll_writes (τ : Trace α) (es : List (Entry α)) :
    τ.addAll (es.map .write) =
      { τ with
        page := τ.page ++ es.toArray
        written := τ.written ++ (es.map fun e => ⟨e, τ.pageDepth, τ.journal.size⟩).toArray } := by
  induction es generalizing τ with
  | nil => simp
  | cons e es ih => simp [ih, add]

theorem meshes_addAll (τ : Trace α) (xs : List (Mark α)) :
    τ.meshes.toList ⊆ (τ.addAll xs).meshes.toList := by
  induction xs generalizing τ with
  | nil => exact List.Subset.refl _
  | cons x xs ih =>
    refine List.Subset.trans ?_ (ih (τ.add x))
    cases x <;> simp [add]

end Trace

namespace State

variable {α : Type}

def trace (s : State α) : Trace α :=
  ⟨s.page, s.pageDepth, s.written, s.finished, s.meshes, s.journal, s.camera⟩

def traced (s : State α) (τ : Trace α) : State α :=
  { s with
    page := τ.page, pageDepth := τ.pageDepth, written := τ.written, finished := τ.finished
    meshes := τ.meshes, journal := τ.journal, camera := τ.camera }

@[simp] theorem traced_trace (s : State α) : s.traced s.trace = s := rfl

@[simp] theorem trace_traced (s : State α) (τ : Trace α) : (s.traced τ).trace = τ := rfl

@[simp] theorem traced_traced (s : State α) (τ υ : Trace α) : (s.traced τ).traced υ = s.traced υ := rfl

theorem writeSettings_eq {options : Options} (h : options.skipWorld = false)
    (settings : List (SettingKey × Int)) (s : State α) :
    s.writeSettings options settings =
      s.traced (s.trace.addAll ((settings.map fun x => Entry.setting x.1 x.2).map .write)) := by
  simp only [writeSettings, h, Bool.false_eq_true, ↓reduceIte]
  induction settings generalizing s with
  | nil => rfl
  | cons setting settings ih => exact ih (s.write _)

end State

namespace Entry

variable {α : Type}

/-- An entry that is no render setting, no mesh with a file of its own and not for the camera. -/
structure IsOrdinary (e : Entry α) : Prop where
  setting : e.isSetting = false
  mesh : e.separateMesh? = none
  camera : e.isCamera = false

theorem isOrdinary_of_family {f : Fragment α} (hmesh : f.family ≠ .mesh) (hcamera : f.family ≠ .camera) :
    (fragment f).IsOrdinary where
  setting := rfl
  mesh := separateMesh?_of_family hmesh
  camera := by
    cases f with
    | camera => exact absurd rfl hcamera
    | _ => rfl

end Entry

/-- Which entries of two conversions go together, given the meshes with files of their own that each of
them has by then, and which meshes and cameras do. -/
structure Accord (α : Type) where
  entries : List SeparateMesh → List SeparateMesh → List (Entry α) → List (Entry α) → Prop
  meshes : List SeparateMesh → List SeparateMesh → Prop
  camera : Option (Camera α) → Option (Camera α) → Prop
  /-- Whether the second conversion leaves out the render settings. -/
  unset : Bool
  nil : ∀ {M M'}, entries M M' [] []
  append : ∀ {M M' es es' fs fs'}, entries M M' es es' → entries M M' fs fs' →
    entries M M' (es ++ fs) (es' ++ fs')
  mono : ∀ {M M' N N' es es'}, M ⊆ N → M' ⊆ N' → entries M M' es es' → entries N N' es es'
  ordinary : ∀ {M M'} e, e.IsOrdinary → entries M M' [e] [e]
  /-- What is written at the end where both have the same camera. -/
  aim : ∀ {M M'} k aspect, camera (some k) (some k) →
    entries M M' [.activeCamera, .fragment (.camera k aspect)]
      [.activeCamera, .fragment (.camera k aspect)]
  setting : ∀ {M M'} key value, entries M M' [.setting key value]
    (if unset then [] else [.setting key value])
  separate : ∀ {M M'} name m, ⟨meshFile name, m⟩ ∈ M → ⟨meshFile name, m⟩ ∈ M' →
    entries M M' [.fragment (.mesh name (.separate (meshFile name)))]
      [.fragment (.mesh name (.separate (meshFile name)))]
  /-- An entry of the second conversion stands for one that is as deep. -/
  origin : ∀ {M M' es es'}, entries M M' es es' → ∀ e' ∈ es', ∃ e ∈ es, e.hasBody = e'.hasBody
  mesh : ∀ {M M'} x, meshes M M' → meshes (M ++ [x]) (M' ++ [x])

namespace Accord

/-- The same entries and the same meshes. There are entries for a camera only where both may have the
same one. -/
def identical {α : Type} (camera : Option (Camera α) → Option (Camera α) → Prop) : Accord α where
  entries _ _ es es' := es' = es ∧ ((∀ k, ¬camera (some k) (some k)) → ∀ e ∈ es, e.isCamera = false)
  meshes M M' := M' = M
  camera := camera
  unset := false
  nil := ⟨rfl, fun _ => List.forall_mem_nil _⟩
  append := by
    rintro _ _ _ _ _ _ ⟨rfl, hes⟩ ⟨rfl, hfs⟩
    exact ⟨rfl, fun h => List.forall_mem_append.2 ⟨hes h, hfs h⟩⟩
  mono _ _ h := h
  ordinary e he := ⟨rfl, fun _ => by simp [he.camera]⟩
  aim k _ hk := ⟨rfl, fun h => absurd hk (h k)⟩
  setting _ _ := ⟨rfl, by simp [Entry.isCamera]⟩
  separate _ _ _ _ := ⟨rfl, by simp [Entry.isCamera]⟩
  origin := by rintro _ _ _ _ ⟨rfl, -⟩ e he; exact ⟨e, he, rfl⟩
  mesh := by rintro _ _ _ rfl; rfl

/-- The same entries without the render settings, and the same meshes and camera. -/
def unsetting {α : Type} : Accord α where
  entries _ _ es es' := es' = es.filter fun e => !e.isSetting
  meshes M M' := M' = M
  camera k k' := k' = k
  unset := true
  nil := rfl
  append := by rintro _ _ _ _ _ _ rfl rfl; exact (List.filter_append ..).symm
  mono _ _ h := h
  ordinary e he := by simp [he.setting]
  aim _ _ _ := rfl
  setting _ _ := rfl
  separate _ _ _ _ := rfl
  origin := by rintro _ _ _ _ rfl e he; exact ⟨e, List.mem_of_mem_filter he, rfl⟩
  mesh := by rintro _ _ _ rfl; rfl

variable {α : Type} (K : Accord α)

/-- The pages of two traces go together, and nothing stands deeper in the second one. -/
structure Agree (τ τ' : Trace α) : Prop where
  page : K.entries τ.meshes.toList τ'.meshes.toList τ.page.toList τ'.page.toList
  finished : List.Forall₂
    (fun p p' => p'.file = p.file ∧
      K.entries τ.meshes.toList τ'.meshes.toList p.entries p'.entries)
    τ.finished.toList τ'.finished.toList
  meshes : K.meshes τ.meshes.toList τ'.meshes.toList
  camera : K.camera τ.camera τ'.camera
  pageDepth : τ'.pageDepth ≤ τ.pageDepth
  written : ∀ w' ∈ τ'.written.toList, ∃ w ∈ τ.written.toList,
    w'.depth ≤ w.depth ∧ w.entry.hasBody = w'.entry.hasBody

/-- Marks that keep two traces together. -/
def Keeps (xs xs' : List (Mark α)) : Prop :=
  ∀ τ τ', K.Agree τ τ' → K.Agree (τ.addAll xs) (τ'.addAll xs')

variable {K}

theorem Keeps.nil : K.Keeps [] [] := fun _ _ h => h

theorem Keeps.append {xs xs' ys ys' : List (Mark α)} (h : K.Keeps xs xs') (h' : K.Keeps ys ys') :
    K.Keeps (xs ++ ys) (xs' ++ ys') := by
  intro τ τ' hagree
  rw [Trace.addAll_append, Trace.addAll_append]
  exact h' _ _ (h _ _ hagree)

theorem Keeps.notes (ns ns' : List Note) : K.Keeps (ns.map .note) (ns'.map .note) := by
  have addNotes (ns : List Note) (τ : Trace α) :
      τ.addAll (ns.map .note) = { τ with journal := τ.journal ++ ns.toArray } := by
    induction ns generalizing τ with
    | nil => simp
    | cons n ns ih => simp [ih, Trace.add]
  intro τ τ' h
  rw [addNotes, addNotes]
  exact ⟨h.page, h.finished, h.meshes, h.camera, h.pageDepth, h.written⟩

theorem Agree.writes {τ τ' : Trace α} (h : K.Agree τ τ') {es es' : List (Entry α)}
    (hes : K.entries τ.meshes.toList τ'.meshes.toList es es') :
    K.Agree (τ.addAll (es.map .write)) (τ'.addAll (es'.map .write)) := by
  rw [Trace.addAll_writes, Trace.addAll_writes]
  refine ⟨?_, h.finished, h.meshes, h.camera, h.pageDepth, ?_⟩
  · simpa using K.append h.page hes
  · intro w' hw'
    rw [Array.toList_append, List.mem_append] at hw'
    rcases hw' with hw' | hw'
    · obtain ⟨w, hw, hdeep⟩ := h.written w' hw'
      exact ⟨w, by simp [hw], hdeep⟩
    · obtain ⟨e', he', rfl⟩ := List.mem_map.1 hw'
      obtain ⟨e, he, hbody⟩ := K.origin hes e' he'
      refine ⟨⟨e, τ.pageDepth, τ.journal.size⟩, ?_, h.pageDepth, hbody⟩
      rw [Array.toList_append, List.mem_append]
      exact .inr (List.mem_map_of_mem he)

theorem Keeps.writes {es es' : List (Entry α)} (h : ∀ M M', K.entries M M' es es') :
    K.Keeps (es.map .write) (es'.map .write) := fun _ _ hagree => hagree.writes (h _ _)

theorem Keeps.write {e : Entry α} (h : e.IsOrdinary) : K.Keeps [.write e] [.write e] :=
  .writes fun _ _ => K.ordinary e h

theorem Agree.grow {τ τ' : Trace α} (h : K.Agree τ τ') (N N' : Array SeparateMesh)
    (hN : τ.meshes.toList ⊆ N.toList) (hN' : τ'.meshes.toList ⊆ N'.toList)
    (hmeshes : K.meshes N.toList N'.toList) :
    K.Agree { τ with meshes := N } { τ' with meshes := N' } where
  page := K.mono hN hN' h.page
  finished := h.finished.imp fun _ _ hp => ⟨hp.1, K.mono hN hN' hp.2⟩
  meshes := hmeshes
  camera := h.camera
  pageDepth := h.pageDepth
  written := h.written

theorem Keeps.separate (name : String) (m : TriangleMesh) :
    K.Keeps [.write (.fragment (.mesh name (.separate (meshFile name)))), .mesh ⟨meshFile name, m⟩]
      [.write (.fragment (.mesh name (.separate (meshFile name)))), .mesh ⟨meshFile name, m⟩] := by
  intro τ τ' h
  -- the order does not matter: the mesh is there first
  have hgrown := h.grow (τ.meshes.push ⟨meshFile name, m⟩) (τ'.meshes.push ⟨meshFile name, m⟩) (by simp)
    (by simp) (by simpa using K.mesh _ h.meshes)
  exact hgrown.writes (K.separate name m (by simp) (by simp))

theorem Keeps.aim {c : Camera α} (h : K.camera (some c) (some c)) : K.Keeps [.aim c] [.aim c] :=
  fun _ _ hagree =>
    ⟨hagree.page, hagree.finished, hagree.meshes, h, hagree.pageDepth, hagree.written⟩

/-! ## Operations -/

/-- Two operations that do the same at `s`, whatever its trace, but for the marks that they leave. These
keep two traces together. -/
def Concur (K : Accord α) (op op' : State α → State α) (s : State α) : Prop :=
  ∃ xs xs', K.Keeps xs xs' ∧ (∀ τ, op (s.traced τ) = (op s).traced (τ.addAll xs)) ∧
    ∀ τ, op' (s.traced τ) = (op s).traced (τ.addAll xs')

theorem Concur.of_nothing {op : State α → State α} {s : State α}
    (h : ∀ τ, op (s.traced τ) = (op s).traced τ) : K.Concur op op s :=
  ⟨[], [], .nil, h, h⟩

theorem Concur.of_marks {op : State α → State α} {s : State α} {xs : List (Mark α)}
    (hxs : K.Keeps xs xs) (h : ∀ τ, op (s.traced τ) = (op s).traced (τ.addAll xs)) :
    K.Concur op op s := ⟨xs, xs, hxs, h, h⟩

theorem Concur.of_entry {op : State α → State α} {s : State α} (e : Entry α) (he : e.IsOrdinary)
    (h : ∀ τ, op (s.traced τ) = (op s).traced (τ.add (.write e))) : K.Concur op op s :=
  .of_marks (.write he) h

/-- Operations that do the same at all traces of a state. -/
theorem Concur.congr {f f' g g' : State α → State α} {s : State α} (h : K.Concur f f' s)
    (hg : ∀ τ, g (s.traced τ) = f (s.traced τ)) (hg' : ∀ τ, g' (s.traced τ) = f' (s.traced τ)) :
    K.Concur g g' s := by
  obtain ⟨xs, xs', hkeeps, hf, hf'⟩ := h
  have hself : g s = f s := hg s.trace
  exact ⟨xs, xs', hkeeps, fun τ => by rw [hg, hself, hf], fun τ => by rw [hg', hself, hf']⟩

theorem Concur.comp {f f' g g' : State α → State α} {s : State α} (hf : K.Concur f f' s)
    (hg : K.Concur g g' (f s)) : K.Concur (fun s => g (f s)) (fun s => g' (f' s)) s := by
  obtain ⟨xs, xs', hxs, hf, hf'⟩ := hf
  obtain ⟨ys, ys', hys, hg, hg'⟩ := hg
  refine ⟨xs ++ ys, xs' ++ ys', hxs.append hys, fun τ => ?_, fun τ => ?_⟩
  · dsimp only
    rw [hf, hg, Trace.addAll_append]
  · dsimp only
    rw [hf', hg', Trace.addAll_append]

theorem Concur.foldl {β : Type} {step : State α → β → State α} (bs : List β)
    (h : ∀ s, ∀ b ∈ bs, K.Concur (step · b) (step · b) s) (s : State α) :
    K.Concur (fun s => bs.foldl step s) (fun s => bs.foldl step s) s := by
  induction bs generalizing s with
  | nil => exact .of_nothing fun _ => rfl
  | cons b bs ih =>
    exact (h s b List.mem_cons_self).comp (ih (fun s b hb => h s b (List.mem_cons_of_mem _ hb)) _)

theorem Concur.meshes_subset {op op' : State α → State α} {s : State α} (h : K.Concur op op' s) :
    s.meshes.toList ⊆ (op s).meshes.toList := by
  obtain ⟨xs, -, -, hop, -⟩ := h
  have hself : op s = (op s).traced (s.trace.addAll xs) := by rw [← hop, State.traced_trace]
  rw [hself]
  exact s.trace.meshes_addAll xs

/-! ## What a directive does -/

theorem concur_note (n : Note) (s : State α) : K.Concur (·.note n) (·.note n) s :=
  .of_marks (.notes [n] [n]) fun _ => rfl

theorem concur_reportProblem (p : Problem) (s : State α) :
    K.Concur (·.reportProblem p) (·.reportProblem p) s :=
  concur_note (.report (p.diagnostic s.location.1 s.location.2)) s

theorem concur_write {e : Entry α} (he : e.IsOrdinary) (s : State α) :
    K.Concur (·.write e) (·.write e) s := .of_entry e he fun _ => rfl

theorem concur_aim {k : Camera α} (hk : K.camera (some k) (some k)) (aspect : Float32) (s : State α) :
    K.Concur (fun s => (s.write .activeCamera).emit (.camera k aspect))
      (fun s => (s.write .activeCamera).emit (.camera k aspect)) s :=
  .of_marks (.writes fun _ _ => K.aim k aspect hk) fun _ => rfl

theorem concur_emitAll (fs : List (Fragment α)) (hfs : ∀ f ∈ fs, (Entry.fragment f).IsOrdinary)
    (s : State α) : K.Concur (·.emitAll fs) (·.emitAll fs) s :=
  .foldl fs (fun s f hf => concur_write (hfs f hf) s) s

theorem concur_drawRecords [Scalar α] (ps : List (Placed α)) (s : State α) :
    K.Concur (·.drawRecords ps) (·.drawRecords ps) s := by
  let t := s.graphics.transform
  have draw : K.Concur
      (fun s => ps.foldl (fun s p => s.drawEntity (p.at_ (t * p.binding.transform))) s)
      (fun s => ps.foldl (fun s p => s.drawEntity (p.at_ (t * p.binding.transform))) s) s :=
    .foldl ps (fun s p _ => .of_entry (.fragment (.entity (s.counters.next .shape) _)) ⟨rfl, rfl, rfl⟩
      fun _ => rfl) s
  exact draw.congr (fun _ => rfl) fun _ => rfl

theorem entries_settings (M M' : List SeparateMesh) (settings : List (SettingKey × Int)) :
    K.entries M M' (settings.map fun x => .setting x.1 x.2)
      (if K.unset then [] else settings.map fun x => .setting x.1 x.2) := by
  induction settings with
  | nil => cases K.unset <;> exact K.nil
  | cons setting settings ih =>
    have hall := K.append (K.setting setting.1 setting.2) ih
    cases hunset : K.unset <;> simpa [hunset] using hall

theorem concur_writeSettings {options options' : Options}
    (hworld : options'.skipWorld = (options.skipWorld || K.unset)) (settings : List (SettingKey × Int))
    (s : State α) :
    K.Concur (·.writeSettings options settings) (·.writeSettings options' settings) s := by
  have hskip {o : Options} (ho : o.skipWorld = true) (s : State α) : s.writeSettings o settings = s :=
    if_pos ho
  have hwrite {o : Options} (ho : o.skipWorld = false) (s : State α) :=
    State.writeSettings_eq ho settings s
  cases hoff : options.skipWorld with
  | true =>
    have hon : options'.skipWorld = true := by simp [hworld, hoff]
    refine ⟨[], [], .nil, fun τ => ?_, fun τ => ?_⟩
    · simp only [hskip hoff, Trace.addAll_nil]
    · simp only [hskip hoff, hskip hon, Trace.addAll_nil]
  | false =>
    refine ⟨_, _, .writes fun M M' => entries_settings M M' settings, fun τ => ?_, fun τ => ?_⟩
    · simp only [hwrite hoff]
      rfl
    · cases hunset : K.unset with
      | true =>
        have hon : options'.skipWorld = true := by simp [hworld, hunset]
        simp only [hwrite hoff, hskip hon]
        rfl
      | false =>
        have hon : options'.skipWorld = false := by simp [hworld, hoff, hunset]
        simp only [hwrite hoff, hwrite hon]
        rfl

theorem concur_addLight (source : LightSource α) (s : State α) :
    K.Concur (·.addLight source) (·.addLight source) s := by
  let maps : List (Fragment α) :=
    source.map.toList.map (.map (mapName (s.counters.next .light)))
  have hordinary : ∀ f ∈ maps ++ [Fragment.light (s.counters.next .light) source.light],
      (Entry.fragment f).IsOrdinary := by
    intro f hf
    rcases List.mem_append.1 hf with hf | hf
    · obtain ⟨file, -, rfl⟩ := List.mem_map.1 hf
      exact ⟨rfl, rfl, rfl⟩
    · rw [List.mem_singleton.1 hf]
      exact ⟨rfl, rfl, rfl⟩
  obtain ⟨xs, xs', h⟩ := concur_emitAll (K := K) _ hordinary (s.take .light).2
  exact ⟨xs, xs', h⟩

theorem concur_record (f : Finding) (s : State α) : K.Concur (·.record f) (·.record f) s := by
  cases f with
  | remark r => exact concur_note (.remark r) s
  | problem p => exact concur_reportProblem p s
  | spectrum p => exact .of_entry (.fragment (.spectrum p.name p.wavelengths p.values)) ⟨rfl, rfl, rfl⟩ fun _ => rfl

theorem concur_closeObject (s : State α) : K.Concur State.closeObject State.closeObject s := by
  cases h : s.openObject with
  | none =>
    refine .of_nothing fun τ => ?_
    have hτ : (s.traced τ).openObject = none := h
    simp only [State.closeObject, h, hτ]
  | some object =>
    refine .of_marks (.notes [.report ((Problem.objectOpen object.name).diagnostic s.location.1
      s.location.2)] _) fun τ => ?_
    have hτ : (s.traced τ).openObject = some object := h
    simp only [State.closeObject, h, hτ]
    rfl

variable [Scalar α]

theorem concur_addShape (shape : Shape) (s : State α) :
    K.Concur (·.addShape shape) (·.addShape shape) s := by
  cases h : s.openObject with
  | none =>
    refine .of_entry (.fragment (.entity (s.counters.next .shape) ⟨shape, s.graphics.binding⟩))
      ⟨rfl, rfl, rfl⟩ fun τ => ?_
    have hτ : (s.traced τ).openObject = none := h
    simp only [State.addShape, h, hτ]
    rfl
  | some object =>
    refine .of_nothing fun τ => ?_
    have hτ : (s.traced τ).openObject = some object := h
    simp only [State.addShape, h, hτ]
    rfl

theorem concur_addPlan_of_keeps {plan plan' : ShapePlan} {s : State α} {xs xs' : List (Mark α)}
    (hxs : K.Keeps xs xs')
    (hplan : ∀ τ, (s.traced τ).addPlan plan = (((s.take .mesh).2.traced (τ.addAll xs)).addShape
      (.mesh (s.counters.next .mesh))))
    (hplan' : ∀ τ, (s.traced τ).addPlan plan' = (((s.take .mesh).2.traced (τ.addAll xs')).addShape
      (.mesh (s.counters.next .mesh)))) :
    K.Concur (·.addPlan plan) (·.addPlan plan') s := by
  obtain ⟨ys, ys', hys, hshape, hshape'⟩ :=
    concur_addShape (K := K) (.mesh (s.counters.next .mesh)) (s.take .mesh).2
  dsimp only at hshape hshape'
  have hself : s.addPlan plan =
      ((s.take .mesh).2.addShape (.mesh (s.counters.next .mesh))).traced
        ((s.trace.addAll xs).addAll ys) := by
    rw [← hshape, ← hplan, State.traced_trace]
  refine ⟨xs ++ ys, xs' ++ ys', hxs.append hys, fun τ => ?_, fun τ => ?_⟩
  · dsimp only
    rw [hself, hplan, hshape, State.traced_traced, Trace.addAll_append]
  · dsimp only
    rw [hself, hplan', hshape', State.traced_traced, Trace.addAll_append]

theorem concur_addPlan (plan : ShapePlan) (s : State α) :
    K.Concur (·.addPlan plan) (·.addPlan plan) s := by
  cases plan with
  | sphere radius => exact concur_addShape (.sphere radius) s
  | inline m =>
    have hwrite : (Entry.fragment (.mesh (s.counters.next .mesh) (.inline m)) : Entry α).IsOrdinary :=
      ⟨rfl, rfl, rfl⟩
    exact concur_addPlan_of_keeps (.write hwrite) (fun _ => rfl) fun _ => rfl
  | existing file =>
    have hwrite : (Entry.fragment (.mesh (s.counters.next .mesh) (.existing file)) : Entry α).IsOrdinary :=
      ⟨rfl, rfl, rfl⟩
    exact concur_addPlan_of_keeps (.write hwrite) (fun _ => rfl) fun _ => rfl
  | separate m =>
    exact concur_addPlan_of_keeps (.separate (s.counters.next .mesh) m) (fun _ => rfl) fun _ => rfl

/-- A change that both conversions can make: the fragments of a texture are no meshes, and a camera is
one for both. -/
structure Admits (K : Accord α) (c : Change α) : Prop where
  camera : ∀ k, c = .camera (some k) → K.camera (some k) (some k)
  texture : ∀ name fs, c = .texture name fs → ∀ f ∈ fs, (Entry.fragment f).IsOrdinary

theorem admits_survey {ctx : Context} {source : Path} {s : State α} {st : Statement}
    (hcamera : ∀ k, Survey.change (s.survey ctx source st).1 = .camera (some k) →
      K.camera (some k) (some k)) :
    K.Admits (Survey.change (s.survey ctx source st).1) where
  camera := hcamera
  texture name fs hfs f hf := by
    have hdeclared := State.declaredBy_change ctx source s st
    rw [hfs] at hdeclared
    have hfamily : f.family = .texture := by
      simpa using List.all_eq_true.1 hdeclared.2.2.all_family f hf
    exact Entry.isOrdinary_of_family (by simp [hfamily]) (by simp [hfamily])

theorem concur_commit {options options' : Options}
    (hworld : options'.skipWorld = (options.skipWorld || K.unset)) {c : Change α} (hc : K.Admits c)
    (s : State α) : K.Concur (c.commit options) (c.commit options') s := by
  cases c with
  | camera k =>
    cases k with
    | none => exact .of_nothing fun _ => rfl
    | some k => exact .of_marks (.aim (hc.camera k rfl)) fun _ => rfl
  | film width height =>
    obtain ⟨xs, xs', h⟩ := concur_writeSettings hworld [(.filmWidth, width), (.filmHeight, height)]
      { s with filmAspect := some (Binary32.ofInt width / Binary32.ofInt height) }
    exact ⟨xs, xs', h⟩
  | setting key value => exact concur_writeSettings hworld _ s
  | drawObject records => exact concur_drawRecords records.toList s
  | freshMaterial m =>
    cases m with
    | none => exact .of_nothing fun _ => rfl
    | some m =>
      exact .of_entry (.fragment (.material (s.counters.next .material) m)) ⟨rfl, rfl, rfl⟩ fun _ => rfl
  | namedMaterial name m => exact .of_entry (.fragment (.material name m)) ⟨rfl, rfl, rfl⟩ fun _ => rfl
  | texture name fragments =>
    have declares (s' : State α) : K.Concur (·.declareTexture name) (·.declareTexture name) s' :=
      .of_nothing fun _ => rfl
    exact (concur_emitAll fragments (hc.texture name fragments rfl) s).comp (declares _)
  | light source => exact concur_addLight source s
  | emission radiance =>
    cases radiance with
    | none => exact .of_nothing fun _ => rfl
    | some c =>
      exact .of_entry (.fragment (.emission (s.counters.next .emission) c)) ⟨rfl, rfl, rfl⟩ fun _ => rfl
  | shape plan => exact concur_addPlan plan s
  | closeScope =>
    cases h : s.saved <;>
      exact .of_nothing fun τ => by simp [Change.commit, State.pop, State.traced, h]
  | endObject =>
    cases h : s.saved <;>
      exact .of_nothing fun τ => by simp [Change.commit, State.pop, State.traced, h]
  | _ => exact .of_nothing fun _ => rfl

theorem concur_conclude {options options' : Options}
    (hworld : options'.skipWorld = (options.skipWorld || K.unset))
    {result : Except Refusal (Verdict α)} (hresult : K.Admits (Survey.change result)) (s : State α) :
    K.Concur (·.conclude options result) (·.conclude options' result) s := by
  match result with
  | .error (.problem p) => exact concur_reportProblem p s
  | .error .overflow => exact .of_nothing fun _ => rfl
  | .ok v =>
    have remarks := (concur_commit hworld hresult s).comp
      (.foldl v.afterwards (fun s r _ => concur_note (.remark r) s) _)
    cases h : v.problem with
    | none =>
      refine remarks.congr (fun τ => ?_) fun τ => ?_ <;>
        simp only [State.conclude, h] <;> rfl
    | some p =>
      refine (remarks.comp (concur_reportProblem p _)).congr (fun τ => ?_) fun τ => ?_ <;>
        simp only [State.conclude, h] <;> rfl

end Accord

end SceneConvert
