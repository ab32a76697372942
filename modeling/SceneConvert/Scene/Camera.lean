import SceneConvert.Scene.Survey

/-!
# SceneConvert.Scene.Camera

Reading cameras and the film.
-/

namespace SceneConvert

namespace Survey

variable {α : Type}

/-- A camera with perspective. The field of view lies between zero and a half turn. -/
def perspective (cameraToWorld : Transform α) : Survey (Camera α) := do
  let zero := Binary32.ofInt 0
  let fieldOfView ← number "fov" (Binary32.ofInt 90)
  if fieldOfView ≤ zero || Binary32.ofInt 180 ≤ fieldOfView then refuse (.fieldOfView fieldOfView)
  else
    let frameAspect ← number? "frameaspectratio"
    match frameAspect with
    | some aspect => if aspect ≤ zero then remark (.frameAspectIgnored aspect)
    | none => pure ()
    let lensRadius ← number? "lensradius"
    let focalDistance ← number? "focaldistance"
    return {
      cameraToWorld, fieldOfView, frameAspect := frameAspect.filter fun a => zero < a,
      lensRadius, focalDistance }

def camera (kind : String) (cameraToWorld : Transform α) : Survey (Camera α) :=
  match kind with
  | "perspective" => perspective cameraToWorld
  | _ => refuse (.cameraUnknown kind)

def film : Survey (Int × Int) := do
  let width ← integer "xresolution" 1280
  let height ← integer "yresolution" 720
  if width ≤ 0 || height ≤ 0 then refuse (.filmResolution width height)
  else return (width, height)

end Survey

end SceneConvert
