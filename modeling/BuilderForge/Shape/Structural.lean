import BuilderForge.Artifact
import BuilderForge.Shape.Basic
import BuilderForge.Spec

/-!
# Values that know their shape

A type is structural if its values describe their own shape. Texts,
numbers, optional values, pairs and sequences are, and so are the records
made of them: members, keys, specifications and artifacts.
-/

namespace BuilderForge

/-- Types whose values describe their own shape. -/
class Structural (α : Type) where
  /-- The shape of a value. -/
  shape : α → Shape

export Structural (shape)

instance : Structural String := ⟨fun _ => .text⟩

instance : Structural Bool := ⟨fun _ => .primitive "bool"⟩

instance : Structural UInt32 := ⟨fun _ => .primitive "u32"⟩

instance {α : Type} [Structural α] : Structural (Option α) where
  shape
    | some a => .variant "Option" "Some" [("0", shape a)]
    | none => .unitVariant "Option" "None"

instance {α β : Type} [Structural α] [Structural β] : Structural (α × β) where
  shape pair := .record "tuple" [("0", shape pair.1), ("1", shape pair.2)]

instance {α : Type} [Structural α] : Structural (List α) where
  shape items := .sequence (items.map shape)

instance : Structural Visibility where
  shape visibility := .unitVariant "Visibility" visibility.name

instance : Structural Member where
  shape member := .record "MemberModel"
    [("name", shape member.name), ("type_name", shape member.typeName),
     ("is_collection", shape member.isCollection),
     ("has_public_setter", shape member.hasPublicSetter),
     ("visibility", shape member.visibility)]

instance : Structural BuilderSpec where
  shape spec := .record "BuilderSpec"
    [("builder_name", shape spec.name), ("builder_namespace", shape spec.scope),
     ("target_type_full_name", shape spec.target), ("normal_members", shape spec.normal),
     ("collection_members", shape spec.collections)]

instance : Structural BuilderKey where
  shape key := .record "BuilderKey"
    [("namespace", shape key.scope), ("builder_name", shape key.name)]

instance : Structural DeclarationId where
  shape id := .record "DeclarationId" [("0", shape id.raw)]

instance : Structural ArtifactId where
  shape id := .record "ArtifactId" [("0", shape id.text)]

instance : Structural Artifact where
  shape artifact := .record "GeneratedArtifact"
    [("identifier", shape artifact.id), ("text", shape artifact.text)]

end BuilderForge
