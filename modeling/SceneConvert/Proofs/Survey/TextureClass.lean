import SceneConvert.Proofs.Run.Passage
import SceneConvert.Proofs.Statement.Grammar
import SceneConvert.Proofs.Survey.Colorless

/-!
# SceneConvert.Proofs.Survey.TextureClass

Which parameter says what a texture is. Class and kind come first and have no tag. They are kept among
the other parameters, by the name of the class, so that a later parameter of this name takes their place,
whatever its tag.

* `Event.exists_lastOfEach`: which parameters a directive has.
* `Survey.textureAs`, `Verdict.textureAs`: a texture of known class and kind.
* `Survey.Spares`: no refusal for a problem.
* `State.texture_classed`: with tagged parameters only behind them, class and kind are taken as they are
  given, unless one of these has the name of the class; then they are missing.
* `Conversion.texture_unclassed`: a texture whose class and kind are given, and reported as missing.
-/

namespace SceneConvert

/-! ## Parameters without a tag -/

theorem Parameters.mark_of_forall_not {ps : Parameters} {which : Parameter → Bool}
    (h : ∀ p ∈ ps.entries, which p = false) : ps.mark which = ps := by
  obtain ⟨entries⟩ := ps
  rw [mark, mk.injEq]
  induction entries with
  | nil => rfl
  | cons p entries ih =>
    obtain ⟨hp, hentries⟩ := List.forall_mem_cons.1 h
    rw [mark.go, hp, if_neg Bool.false_ne_true, ih hentries]

theorem Parameters.untagged_of_tagged {ps : Parameters} (h : ∀ p ∈ ps.entries, p.tag.isSome = true) :
    ps.untagged = (none, ps) := by
  have hnone : ∀ p ∈ ps.entries, p.tag.isNone = false := fun p hp => by
    rw [Option.isNone_eq_false_iff, h p hp]
  have hfind : ps.entries.find? (fun p => p.tag.isNone) = none :=
    List.find?_eq_none.2 fun p hp => Bool.not_eq_true _ ▸ hnone p hp
  exact Prod.ext hfind (mark_of_forall_not hnone)

namespace Parameter

variable {p : Parameter} {ps : List Parameter}

theorem lastOfEach_cons_replaced (h : ∃ q ∈ ps, q.name = p.name) : lastOfEach (p :: ps) = lastOfEach ps :=
  if_pos (List.any_eq_true.2 (by simpa using h))

theorem lastOfEach_cons_kept (h : ∀ q ∈ ps, q.name ≠ p.name) :
    lastOfEach (p :: ps) = p :: lastOfEach ps :=
  if_neg (by simpa using h)

end Parameter

theorem readParameters_eq_foldl (collapse : Bool) (ps : Parameters) (xs : List Lexeme) :
    ∃ pairs : List (String × Value), (readParameters collapse ps xs).result =
      (pairs.map fun p => .declare p.1 p.2).foldl Parameters.put ps := by
  fun_induction readParameters collapse ps xs with
  | case1 ps | case4 ps => exact ⟨[], rfl⟩
  | case2 ps x xs key hx v hv ih =>
    obtain ⟨pairs, hresult⟩ := ih
    exact ⟨(key, v.result) :: pairs, hresult⟩
  | case3 ps x xs key hx hv ih => exact ih

/-- Of the parameters that a text gives a directive, whatever is wrong with the text, the last of each name
is kept. -/
theorem Event.exists_lastOfEach {collapse : Bool} {xs : List Lexeme} {st : Statement}
    (h : .statement st ∈ ofLexemes collapse xs) :
    ∃ pairs : List (String × Value),
      st.parameters = ⟨Parameter.lastOfEach (pairs.map fun p => .declare p.1 p.2)⟩ := by
  fun_induction ofLexemes collapse xs with
  | case1 => cases h
  | case2 x xs s hx haction r ih =>
    rcases List.mem_append.1 h with h | h
    · obtain ⟨f, -, hf⟩ := List.mem_map.1 h
      cases hf
    · rcases List.mem_cons.1 h with h | h
      · cases h
        dsimp only [r]
        unfold readOperands
        split
        · exact ⟨[], rfl⟩
        · obtain ⟨pairs, hresult⟩ := readParameters_eq_foldl collapse .empty _
          exact ⟨pairs, hresult.trans (Parameter.foldl_put _)⟩
      · exact ih h
  | case3 x xs s hx haction ih => exact ih ((List.mem_cons.1 h).resolve_left Event.noConfusion)
  | case4 x xs hx ih =>
    rcases List.mem_append.1 h with h | h
    · obtain ⟨f, -, hf⟩ := List.mem_map.1 h
      cases hf
    · exact ih ((List.mem_cons.1 h).resolve_left Event.noConfusion)

namespace Parameter

/-- The word of a class is a key without a tag. -/
theorem declare_class {word : String} {class_ : TextureClass} (h : TextureClass.ofWord? word = some class_)
    (value : Value) : declare word value = ⟨word, none, value, false⟩ := by
  have hword : blankSeparated word = [word] := by
    unfold TextureClass.ofWord? at h
    split at h
    · decide +kernel
    · decide +kernel
    · decide +kernel
    · decide +kernel
    · cases h
  rw [declare, hword]

end Parameter

/-! ## Textures of known class and kind -/

namespace Survey

variable {α β γ : Type} {ctx : Context} {s : State α} {source : Path} {name kind : String}
  {class_ : TextureClass}

/-- The fragments of a texture of this class and kind. -/
def textureAs (ctx : Context) (s : State α) (source : Path) (name : String) (class_ : TextureClass)
    (kind : String) : Survey (List (Fragment α)) := do
  let node (spec : Survey Node.Spec) : Survey (List (Fragment α)) := do
    return [.node name (← spec)]
  match kind with
  | "constant" => node (constantNode s class_)
  | "scale" => node (productNode s class_)
  | "mix" => node (blendNode s class_)
  | "imagemap" =>
    let (image, factor) ← image ctx source class_ name
    return imageFragments class_ name image factor
  | "checkerboard" => node (checkerboardNode s class_)
  | _ => refuse (.textureUnknown kind name)

theorem texture_eq : texture ctx s source name =
    textureClass name >>= fun c => textureAs ctx s source name c.1 c.2 := rfl

theorem outcome_textureClass {f : Findings} {p : Parameter} (h : f.parameters.untagged.1 = some p)
    (hkind : p.value.word? = some kind) (hclass : TextureClass.ofWord? p.name = some class_) :
    (textureClass name).outcome f =
      (.ok (class_, kind), { f with parameters := f.parameters.untagged.2 }) := by
  rw [textureClass, outcome_bind, outcome_parameters, h]
  simp only [hkind, hclass, require, pure_bind, outcome_pure]

theorem outcome_textureClass_of_tagged {f : Findings}
    (h : ∀ p ∈ f.parameters.entries, p.tag.isSome = true) :
    (textureClass name).outcome f = (.error (.problem (.textureKindMissing name)), f) := by
  rw [textureClass, outcome_bind, outcome_parameters, Parameters.untagged_of_tagged h]
  rfl

/-! ## Why a texture is refused -/

/-- The survey is not refused for the problem. -/
structure Spares (m : Survey β) (p : Problem) : Prop where
  spares : ∀ f g, m.outcome f ≠ (.error (.problem p), g)

theorem Sure.spares {m : Survey β} (h : Sure m) {p : Problem} : Spares m p := by
  refine ⟨fun f g hrefused => ?_⟩
  obtain ⟨b, g', hb⟩ := h.ends f
  rw [hb] at hrefused
  cases hrefused

theorem spares_refuse {p q : Problem} (h : q ≠ p) : Spares (refuse q : Survey β) p := by
  refine ⟨fun f g hrefused => ?_⟩
  cases hrefused
  exact h rfl

theorem spares_bind {m : Survey β} {k : β → Survey γ} {p : Problem} (hm : Spares m p)
    (hk : ∀ b, Spares (k b) p) : Spares (m >>= k) p := by
  refine ⟨fun f g hrefused => ?_⟩
  rw [outcome_bind] at hrefused
  rcases hb : m.outcome f with ⟨r | b, f'⟩ <;> rw [hb] at hrefused
  · cases hrefused
    exact hm.spares f g hb
  · exact (hk b).spares f' g hrefused

theorem spares_if {c : Prop} {_ : Decidable c} {m n : Survey β} {p : Problem} (hm : Spares m p)
    (hn : Spares n p) : Spares (if c then m else n) p := by
  split
  · exact hm
  · exact hn

section

variable {other : String}

theorem spares_checkerboardNode : Spares (checkerboardNode s class_) (.textureKindMissing other) := by
  have input (name : String) (default : Int) : Sure (input s class_ name default) :=
    sure_of_leads (.bare s []) fun _ _ => Site.leads_input
  have amount (name : String) (default : Float32) : Sure (amount s name default) :=
    sure_of_leads (.bare s []) fun _ _ => Site.leads_amount
  refine spares_bind (sure_of_leads (.bare s []) fun _ _ => Site.leads_integer).spares fun dimension => ?_
  refine spares_if (spares_refuse nofun) (Sure.spares ?_)
  refine sure_bind (input _ _) fun first => sure_bind (input _ _) fun second => ?_
  refine sure_bind (sure_parameters _) fun u => sure_bind (sure_parameters _) fun v => ?_
  refine sure_if ?_ (sure_pure _)
  exact sure_bind (amount _ _) fun u => sure_bind (amount _ _) fun v => sure_pure _

theorem spares_image : Spares (image ctx source class_ name) (.textureKindMissing other) := by
  have read {β δ : Type} {key : String} {read : Value → Option β} {f : Option β → δ} :
      Sure (do return f (← look key read)) := sure_bind (sure_parameters _) fun _ => sure_pure _
  have hwrap : Sure wrap := by
    refine sure_bind read fun word => ?_
    split
    · exact sure_pure _
    · exact sure_bind (sure_remark _) fun _ => sure_pure _
  refine spares_bind (Sure.spares read) fun filename => ?_
  refine spares_if (spares_refuse nofun) (Sure.spares (sure_when (sure_remark _) fun _ => ?_))
  refine sure_bind hwrap fun wrap => sure_bind read fun factor => ?_
  exact sure_bind read fun gamma => sure_pure _

theorem spares_textureAs :
    Spares (textureAs ctx s source name class_ kind) (.textureKindMissing other) := by
  have node {spec : Survey Node.Spec} (h : Spares spec (.textureKindMissing other)) :
      Spares (do return [Fragment.node name (← spec)] : Survey (List (Fragment α)))
        (.textureKindMissing other) :=
    spares_bind h fun _ => (sure_pure _).spares
  unfold textureAs
  split
  · exact node (sure_of_leads (.bare s []) fun _ _ => Site.leads_constantNode).spares
  · exact node (sure_of_leads (.bare s []) fun _ _ => Site.leads_productNode).spares
  · exact node (sure_of_leads (.bare s []) fun _ _ => Site.leads_blendNode).spares
  · exact spares_bind spares_image fun _ => (sure_pure _).spares
  · exact node spares_checkerboardNode
  · exact spares_refuse nofun

end

end Survey

/-! ## The directive -/

variable {α : Type} [Scalar α] {ctx : Context} {s : State α} {source : Path} {st : Statement}
  {name word kind : String} {value : Value} {class_ : TextureClass} {more : List Parameter}

/-- The verdict on a texture directive of this class and kind. -/
def Verdict.textureAs (ctx : Context) (s : State α) (source : Path) (name : String)
    (class_ : TextureClass) (kind : String) : Survey (Verdict α) := do
  let fragments ← Survey.textureAs ctx s source name class_ kind
  let redefined := if s.hasTexture name then [Remark.textureRedefined name] else []
  return ⟨.texture name fragments, none, redefined ++ (← Survey.unused)⟩

namespace State

theorem survey_texture (hword : Action.ofWord st.word = .texture)
    (hskip : ctx.options.skipTextures = false) (hname : st.text? = some name) :
    s.survey ctx source st =
      (Survey.textureClass name >>= fun c =>
        Verdict.textureAs ctx (s.moveTo source st.line) source name c.1 c.2).outcome
          (.start st.parameters s.counters.spectrum) := by
  simp only [survey, Verdict.ofStatement, hword, Verdict.texture, hskip, Bool.false_eq_true, if_false,
    Statement.text, hname, Survey.require, pure_bind, Survey.texture_eq, bind_assoc, Verdict.textureAs]

/-- Behind a class and a kind there are only tagged parameters. The texture is of this class and kind, and
they are never reported as missing, if and only if none of these parameters has the name of the class. If
one has, they are always reported as missing, and never taken from another parameter. -/
theorem texture_classed (hword : Action.ofWord st.word = .texture)
    (hskip : ctx.options.skipTextures = false) (hname : st.text? = some name)
    (hparameters : st.parameters = ⟨Parameter.lastOfEach (.declare word value :: more)⟩)
    (hclass : TextureClass.ofWord? word = some class_) (hkind : value.word? = some kind)
    (htagged : ∀ p ∈ more, p.tag.isSome = true) :
    let start := Findings.start st.parameters s.counters.spectrum
    ((∀ p ∈ more, p.name ≠ word) →
      s.survey ctx source st =
        (Verdict.textureAs ctx (s.moveTo source st.line) source name class_ kind).outcome
          { start with parameters := st.parameters.untagged.2 } ∧
      ∀ other g, s.survey ctx source st ≠ (.error (.problem (.textureKindMissing other)), g)) ∧
    ((∃ p ∈ more, p.name = word) →
      s.survey ctx source st = (.error (.problem (.textureKindMissing name)), start)) := by
  intro start
  rw [Parameter.declare_class hclass] at hparameters
  rw [survey_texture hword hskip hname]
  constructor
  · intro hkept
    have hfirst : st.parameters.untagged.1 = some ⟨word, none, value, false⟩ := by
      rw [hparameters, Parameter.lastOfEach_cons_kept hkept]
      rfl
    rw [Survey.outcome_bind_ok (Survey.outcome_textureClass hfirst hkind hclass)]
    refine ⟨rfl, fun other => Survey.Spares.spares ?_ _⟩
    exact Survey.spares_bind Survey.spares_textureAs fun fragments =>
      (Survey.sure_bind ⟨fun _ => ⟨_, _, rfl⟩⟩ fun _ => Survey.sure_pure _).spares
  · intro hreplaced
    rw [Parameter.lastOfEach_cons_replaced hreplaced] at hparameters
    have hall : ∀ p ∈ st.parameters.entries, p.tag.isSome = true := by
      rw [hparameters]
      exact fun p hp => htagged p ((Parameter.lastOfEach_sublist more).subset hp)
    rw [Survey.outcome_bind, Survey.outcome_textureClass_of_tagged (f := start) hall]

/-- A checkerboard of colors with a scale, and a number whose only parameter is named `float` as well. -/
theorem texture_classed_checkerboard :
    let ctx := Context.of {} ⟨[], []⟩ ⟨"/main.pbrt"⟩
    let s : State Float32 := .opening ctx
    let scale : Parameter := ⟨"uscale", some "float", .integer 4, false⟩
    let kept : Statement := ⟨1, "Texture", some (.text "checks"),
      ⟨[⟨"spectrum", none, .text "checkerboard", false⟩, scale]⟩⟩
    let replaced : Statement := ⟨1, "Texture", some (.text "t"),
      ⟨[⟨"float", some "string", .text "x", false⟩]⟩⟩
    s.survey ctx ctx.input kept =
        (Verdict.textureAs ctx (s.moveTo ctx.input 1) ctx.input "checks" .color "checkerboard").outcome
          (.start ⟨[⟨"spectrum", none, .text "checkerboard", true⟩, scale]⟩ 0) ∧
      s.survey ctx ctx.input replaced =
        (.error (.problem (.textureKindMissing "t")), .start replaced.parameters 0) := by
  intro ctx s scale kept replaced
  have hkept : kept.parameters =
      ⟨Parameter.lastOfEach (.declare "spectrum" (.text "checkerboard") :: [scale])⟩ := by cbv
  have hreplaced : replaced.parameters = ⟨Parameter.lastOfEach
      (.declare "float" (.text "constant") :: replaced.parameters.entries)⟩ := by cbv
  constructor
  · exact ((texture_classed (by decide) rfl rfl hkept rfl rfl (by decide)).1 (by decide)).1
  · exact (texture_classed (by decide) rfl rfl hreplaced rfl rfl (by decide)).2
      ⟨_, List.mem_cons_self, rfl⟩

end State

/-- A constant number with one more parameter, which has the name of its class. Its class and its kind are
given, and reported as missing. -/
theorem Conversion.texture_unclassed :
    ∃ c, ofScene (Context.of {} ⟨[], []⟩ ⟨"/main.pbrt"⟩)
        (.text "Texture \"t\" \"float\" \"constant\" \"string float\" \"x\"") = .ok (.ok c) ∧
      c.diagnostics = [(Problem.textureKindMissing "t").diagnostic ⟨"/main.pbrt"⟩ 1] := by
  let ctx := Context.of {} ⟨[], []⟩ ⟨"/main.pbrt"⟩
  let st : Statement :=
    ⟨1, "Texture", some (.text "t"), ⟨[⟨"float", some "string", .text "x", false⟩]⟩⟩
  have hevents : Event.ofText true "Texture \"t\" \"float\" \"constant\" \"string float\" \"x\"" =
      [.statement st] := by cbv
  have hc := @ofScene_single ctx _ st (by decide) hevents (by decide) (by decide +kernel)
  exact ⟨_, hc, by decide +kernel⟩

end SceneConvert
