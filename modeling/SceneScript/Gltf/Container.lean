import SceneScript.Gltf.Assembly
import SceneScript.Gltf.Layout

/-!
# Binary glTF files

A file is a header and two chunks: the text of a document and its buffer. Each chunk begins with the
length and the kind of its data, which is padded to whole words. A model without parts has no file.
-/

namespace SceneScript.Gltf

def magic : UInt32 := 0x46546C67

def version : UInt32 := 2

def textChunk : UInt32 := 0x4E4F534A

def bufferChunk : UInt32 := 0x004E4942

/-- Data with the filler that completes its last word. -/
def padded (filler : UInt8) (data : ByteArray) : ByteArray :=
  data ++ ⟨Array.replicate ((4 - data.size % 4) % 4) filler⟩

def addChunk (bytes : ByteArray) (kind : UInt32) (data : ByteArray) : ByteArray :=
  addWord (addWord bytes (UInt32.ofNat data.size)) kind ++ data

def container (text : String) (buffer : ByteArray) : ByteArray :=
  let text := padded 0x20 text.toUTF8
  let buffer := padded 0 buffer
  let total := 12 + (8 + text.size) + (8 + buffer.size)
  let header := addWord (addWord (addWord .empty magic) version) (UInt32.ofNat total)
  addChunk (addChunk header textChunk text) bufferChunk buffer

end SceneScript.Gltf

namespace SceneScript

def Model.glb (m : Model) : ByteArray :=
  if m.isEmpty then .empty
  else
    let (roots, document) := Gltf.assemble m.roots
    Gltf.container (document.json s!"model-{m.id}" roots).render document.buffer

end SceneScript
