import SceneConvert.Main
import SceneConvert.Proofs.Run.Collapse
import SceneConvert.Proofs.Token.Layout
import SceneConvert.Proofs.Run.Entities
import SceneConvert.Proofs.Run.InPlace
import SceneConvert.Proofs.Run.IncludeStack
import SceneConvert.Proofs.Run.Namesakes
import SceneConvert.Proofs.Run.OutputFiles
import SceneConvert.Proofs.Run.Placement
import SceneConvert.Proofs.Run.Scopes
import SceneConvert.Proofs.Run.SingleFile
import SceneConvert.Proofs.Run.Skipping
import SceneConvert.Proofs.Run.Splice
import SceneConvert.Proofs.Run.WellNested
import SceneConvert.Proofs.Statement.Grammar
import SceneConvert.Proofs.Run.Plain
import SceneConvert.Proofs.Run.Abreast
import SceneConvert.Proofs.Run.Confinement
import SceneConvert.Proofs.Run.Passage
import SceneConvert.Proofs.Mesh.Listed
import SceneConvert.Proofs.Run.Threshold
import SceneConvert.Proofs.Document.LeftOut
import SceneConvert.Proofs.Run.Projection
import SceneConvert.Proofs.Run.Cameras
import SceneConvert.Proofs.Run.Exports
import SceneConvert.Proofs.Run.Registry
import SceneConvert.Proofs.Files.Canonical
import SceneConvert.Proofs.Survey.MeshInputs
import SceneConvert.Proofs.Run.Places
import SceneConvert.Proofs.Geometry.LookAt
import SceneConvert.Proofs.Survey.Defaults
import SceneConvert.Proofs.Survey.TextureClass
import SceneConvert.Proofs.Run.Deliveries
import SceneConvert.Proofs.Statement.Calls
import SceneConvert.Proofs.Files.NormalForm
import SceneConvert.Proofs.Statement.Literals
