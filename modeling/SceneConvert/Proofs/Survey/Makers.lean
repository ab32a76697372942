import SceneConvert.Proofs.Survey.Verdicts

/-!
# SceneConvert.Proofs.Survey.Makers

Which directives make which changes.

* `Change.MadeBy`: the directives that can make a change.
* `Verdict.madeBy_ofStatement`: no other directive makes it.
-/

namespace SceneConvert

open Survey

variable {α : Type}

/-- A change that a directive with this action can make. -/
def Change.MadeBy (a : Action) : Change α → Prop
  | nothing => True
  | place _ => [.identity, .translate, .rotate, .scale, .lookAt, .transform, .concatTransform,
      .coordSysTransform].contains a
  | nameSystem _ => a = .coordinateSystem
  | camera _ => a = .camera
  | film .. => a = .film
  | setting .. => [.sampler, .integrator].contains a
  | beginWorld => a = .worldBegin
  | endWorld => a = .worldEnd
  | openScope => [.attributeBegin, .transformBegin].contains a
  | closeScope => [.attributeEnd, .transformEnd].contains a
  | beginObject _ => a = .objectBegin
  | endObject => a = .objectEnd
  | drawObject _ => a = .objectInstance
  | bindMaterial _ => [.material, .namedMaterial].contains a
  | freshMaterial _ => a = .material
  | namedMaterial .. => a = .makeNamedMaterial
  | texture .. => a = .texture
  | light _ => a = .lightSource
  | emission _ => a = .areaLightSource
  | shape _ => a = .shape
  | flip => a = .reverseOrientation

namespace Verdict

/-- The change of a verdict is one that the action can make. -/
def Made (a : Action) (v : Verdict α) : Prop := v.change.MadeBy a

section

variable {a : Action} {change : Change α}

theorem made_accept (h : change.MadeBy a) : Gives (accept change) (Made a) := gives_pure h

theorem made_acceptUsed (h : change.MadeBy a) : Gives (acceptUsed change) (Made a) :=
  gives_then fun _ => gives_pure h

theorem made_flawed (p : Problem) (h : change.MadeBy a) : Gives (flawed change p) (Made a) := gives_pure h

end

variable {ctx : Context} {s : State α} {st : Statement}

theorem made_endWorld : Gives (endWorld s) (Made .worldEnd) := by
  refine gives_then fun _ => ?_
  split
  · exact made_flawed _ rfl
  · exact made_accept rfl

theorem made_beginObject : Gives (beginObject s st) (Made .objectBegin) := by
  refine gives_then fun name => gives_when (fun _ => ?_) ?_ <;>
    exact gives_if (made_flawed _ rfl) (made_accept rfl)

theorem made_endObject : Gives (endObject s) (Made .objectEnd) := by
  refine gives_when (fun _ => ?_) ?_ <;>
    exact gives_if (made_flawed _ rfl) (made_accept rfl)

theorem made_makeNamedMaterial : Gives (makeNamedMaterial ctx s st) (Made .makeNamedMaterial) := by
  refine gives_then fun name => gives_if (made_accept trivial) (gives_then fun kind => ?_)
  refine gives_if (gives_refuse _) (gives_when (fun _ => ?_) ?_) <;>
    exact gives_then fun m => made_acceptUsed rfl

theorem made_attempt {β : Type} {a : Action} {m : Survey β} {k : Except Problem β → Survey (Verdict α)}
    (herror : ∀ p, Gives (k (.error p)) (Made a)) (hok : ∀ b, Gives (k (.ok b)) (Made a)) :
    Gives (m.attempt >>= k) (Made a) :=
  gives_then fun
    | .error p => herror p
    | .ok b => hok b

variable [Scalar α]

/-- A directive makes no other changes than those that belong to it. -/
theorem madeBy_ofStatement (source : Path) :
    Gives (ofStatement ctx s source st) (Made (Action.ofWord st.word)) := by
  unfold ofStatement
  have placed {β : Type} {a : Action} {m : Survey β} {change : β → Change α}
      (hmade : ∀ b, (change b).MadeBy a) : Gives (do accept (change (← m))) (Made a) :=
    gives_then fun b => made_accept (hmade b)
  generalize Action.ofWord st.word = a
  cases a
  case translate => exact placed fun _ => rfl
  case rotate => exact gives_then fun _ => placed fun _ => rfl
  case scale => exact gives_then fun _ => placed fun _ => rfl
  case lookAt => exact gives_then fun _ => placed fun _ => rfl
  case transform => exact placed fun _ => rfl
  case concatTransform => exact placed fun _ => rfl
  case coordinateSystem => exact placed fun _ => rfl
  case coordSysTransform => exact gives_then fun _ => placed fun _ => rfl
  case camera =>
    refine gives_then fun kind => gives_if (made_accept rfl) ?_
    exact made_attempt (fun p => made_flawed p rfl) fun c => gives_then fun _ => gives_pure rfl
  case film => exact placed fun _ => rfl
  case sampler => exact placed fun _ => rfl
  case integrator => exact placed fun _ => rfl
  case worldEnd => exact made_endWorld
  case attributeEnd => exact gives_if (gives_refuse _) (made_accept rfl)
  case transformEnd => exact gives_if (gives_refuse _) (made_accept rfl)
  case objectBegin => exact made_beginObject
  case objectEnd => exact made_endObject
  case objectInstance =>
    refine gives_then fun name => gives_if (made_accept trivial) (gives_if (gives_refuse _) ?_)
    exact placed fun _ => rfl
  case material =>
    refine gives_then fun kind => gives_if (made_accept trivial) (gives_if (made_accept rfl) ?_)
    exact made_attempt (fun p => made_flawed p rfl) fun m => made_acceptUsed rfl
  case makeNamedMaterial => exact made_makeNamedMaterial
  case namedMaterial =>
    refine gives_then fun name => gives_if (made_accept trivial) ?_
    exact gives_if (made_accept rfl) (gives_refuse _)
  case texture =>
    refine gives_if (made_accept trivial) (gives_then fun name => gives_then fun fragments => ?_)
    exact gives_then fun _ => gives_pure rfl
  case lightSource =>
    exact gives_then fun kind => gives_if (made_accept trivial) (gives_then fun l => made_acceptUsed rfl)
  case areaLightSource =>
    refine gives_then fun kind => gives_if (made_accept trivial) ?_
    exact made_attempt (fun p => made_flawed p rfl) fun c => made_acceptUsed rfl
  case shape =>
    exact gives_then fun kind => gives_if (made_accept trivial) (gives_then fun plan => made_acceptUsed rfl)
  case ignored => exact gives_then fun _ => made_accept trivial
  case unsupported | unknown => exact gives_refuse _
  case include_ => exact made_accept trivial
  case worldBegin | reverseOrientation => exact made_accept rfl
  all_goals exact made_accept rfl

end Verdict

end SceneConvert
