import Depot.Artifact
import Depot.Registry.Error

/-! # Registries

The calls that an artifact registry answers. Uploads and pulls are streams: an upload is a call
that stays open from its first frame until it is closed or cancelled, a pull answers with frames,
any of which may be an error instead.
-/

namespace Depot

abbrev PullStream := List (Except RegistryError ByteArray)

/-- What a call answers, and the state it leaves behind. -/
abbrev Call (σ α : Type) := σ → Except RegistryError α × σ

/-- A registry with state `σ` whose open uploads have state `υ`. -/
structure Registry (σ υ : Type) where
  label : String
  openUpload : Call σ υ
  send : UploadFrame → υ → σ → Except RegistryError Unit × υ × σ
  /-- Commits the upload. Whatever the answer, the upload is not open afterwards. -/
  close : υ → σ → Except RegistryError Artifact × υ × σ
  /-- Gives an upload up; nothing of it is committed. -/
  cancel : υ → σ → σ
  pull : Identifier → Call σ PullStream
  get : Identifier → Call σ Artifact
  query : ArtifactQuery → Call σ (List Artifact)
  delete : Identifier → Call σ Artifact
  addTag : TagRequest → Call σ Unit
  removeTag : TagRequest → Call σ Unit

end Depot
