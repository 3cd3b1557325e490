import Mathlib
import SceneScript.Gltf.Container

/-!
# Reading binary files

The rules by which a file is taken apart: words are four bytes, the lowest first, and after its
header a file is a sequence of chunks, each with its length and kind before its data. What the
writer adds is read back unchanged.
-/

namespace SceneScript.Gltf

/-! ## Words -/

def joinWord (a b c d : UInt8) : UInt32 :=
  .ofNat (a.toNat + 256 * (b.toNat + 256 * (c.toNat + 256 * d.toNat)))

def word? : List UInt8 → Option (UInt32 × List UInt8)
  | a :: b :: c :: d :: rest => some (joinWord a b c d, rest)
  | _ => none

def words? : List UInt8 → Option (List UInt32)
  | [] => some []
  | a :: b :: c :: d :: rest => (words? rest).map (joinWord a b c d :: ·)
  | _ => none

def splitWord (w : UInt32) : List UInt8 :=
  [w.toUInt8, (w >>> 8).toUInt8, (w >>> 16).toUInt8, (w >>> 24).toUInt8]

theorem joinWord_splitWord (w : UInt32) :
    joinWord w.toUInt8 (w >>> 8).toUInt8 (w >>> 16).toUInt8 (w >>> 24).toUInt8 = w := by
  have bound := w.toNat_lt
  apply UInt32.toNat_inj.mp
  simp only [joinWord, UInt32.toNat_ofNat', UInt32.toNat_toUInt8, UInt32.toNat_shiftRight,
    Nat.shiftRight_eq_div_pow]
  simp
  omega

theorem word?_splitWord (w : UInt32) (rest : List UInt8) :
    word? (splitWord w ++ rest) = some (w, rest) := by
  simp only [splitWord, List.cons_append, List.nil_append, word?, joinWord_splitWord]

theorem words?_flatMap_splitWord (ws : List UInt32) : words? (ws.flatMap splitWord) = some ws := by
  induction ws with
  | nil => rfl
  | cons w ws ih =>
    simp only [List.flatMap_cons, splitWord, List.cons_append, List.nil_append, words?,
      joinWord_splitWord]
    simpa using ih

@[simp] theorem length_flatMap_splitWord (ws : List UInt32) :
    (ws.flatMap splitWord).length = 4 * ws.length := by
  induction ws with
  | nil => rfl
  | cons w ws ih =>
    rw [List.flatMap_cons, List.length_append, ih, List.length_cons]
    show 4 + _ = _
    omega

/-! ## Vectors -/

def vectors? : List UInt32 → Option (List Vec3)
  | [] => some []
  | x :: y :: z :: rest =>
    (vectors? rest).map (⟨.ofBits x, .ofBits y, .ofBits z⟩ :: ·)
  | _ => none

def vectorWords (v : Vec3) : List UInt32 :=
  v.toList.map floatBits

theorem ofBits_floatBits (x : Float32) : Float32.ofBits (floatBits x) = x := by
  unfold floatBits
  split
  · rename_i isNaN
    have : x = Float32.nan := by simpa using isNaN
    subst this
    decide +kernel
  · exact x.ofBits_toBits

theorem vectors?_flatMap_vectorWords (vs : List Vec3) :
    vectors? (vs.flatMap vectorWords) = some vs := by
  induction vs with
  | nil => rfl
  | cons v vs ih =>
    simp only [List.flatMap_cons, vectorWords, Vec3.toList, List.map_cons, List.map_nil,
      List.cons_append, List.nil_append, vectors?, ofBits_floatBits]
    simpa using ih

theorem length_vectorBytes (vs : List Vec3) :
    ((vs.flatMap vectorWords).flatMap splitWord).length = vs.length * 12 := by
  have words : (vs.flatMap vectorWords).length = 3 * vs.length := by
    simp [List.length_flatMap, vectorWords, Vec3.toList, Nat.mul_comm]
  rw [length_flatMap_splitWord, words]
  omega

/-! ## What the writer adds -/

theorem bytes_addWord (b : ByteArray) (w : UInt32) :
    (addWord b w).data.toList = b.data.toList ++ splitWord w := by
  simp [addWord, splitWord]

theorem bytes_foldl_addWord (ws : List UInt32) (b : ByteArray) :
    (ws.foldl addWord b).data.toList = b.data.toList ++ ws.flatMap splitWord := by
  induction ws generalizing b with
  | nil => simp
  | cons w ws ih => rw [List.foldl_cons, ih, bytes_addWord, List.append_assoc, List.flatMap_cons]

theorem bytes_foldl_addVector (vs : List Vec3) (b : ByteArray) :
    (vs.foldl addVector b).data.toList =
      b.data.toList ++ (vs.flatMap vectorWords).flatMap splitWord := by
  have step (v : Vec3) (b : ByteArray) : addVector b v = (vectorWords v).foldl addWord b := rfl
  rw [List.foldl_ext _ _ b fun b v _ => step v b, ← List.foldl_flatMap, bytes_foldl_addWord]

/-! ## Files -/

structure Chunk where
  kind : UInt32
  data : List UInt8

/-- The first chunk, whose data must be there in full. -/
def chunk? (bytes : List UInt8) : Option (Chunk × List UInt8) := do
  let (length, bytes) ← word? bytes
  let (kind, bytes) ← word? bytes
  if length.toNat ≤ bytes.length then
    some (⟨kind, bytes.take length.toNat⟩, bytes.drop length.toNat)
  else none

/-- At most so many chunks, which must use up the bytes. -/
def chunks? : Nat → List UInt8 → Option (List Chunk)
  | _, [] => some []
  | 0, _ => none
  | n + 1, bytes => (chunk? bytes).bind fun (first, bytes) => (chunks? n bytes).map (first :: ·)

structure File where
  magic : UInt32
  version : UInt32
  total : UInt32
  chunks : List Chunk

def file? (bytes : List UInt8) : Option File := do
  let (magic, bytes) ← word? bytes
  let (version, bytes) ← word? bytes
  let (total, bytes) ← word? bytes
  return ⟨magic, version, total, ← chunks? bytes.length bytes⟩

def chunkBytes (kind : UInt32) (data : List UInt8) : List UInt8 :=
  splitWord (.ofNat data.length) ++ splitWord kind ++ data

theorem chunk?_chunkBytes (kind : UInt32) {data : List UInt8} (rest : List UInt8)
    (small : data.length < 2 ^ 32) :
    chunk? (chunkBytes kind data ++ rest) = some (⟨kind, data⟩, rest) := by
  have length : (UInt32.ofNat data.length).toNat = data.length :=
    UInt32.toNat_ofNat_of_lt' small
  simp only [chunk?, chunkBytes, List.append_assoc, word?_splitWord, Option.bind_eq_bind,
    Option.bind_some, length]
  simp

theorem chunks?_chunkBytes (n : Nat) (kind : UInt32) {data : List UInt8} (rest : List UInt8)
    (small : data.length < 2 ^ 32) :
    chunks? (n + 1) (chunkBytes kind data ++ rest) =
      (chunks? n rest).map (⟨kind, data⟩ :: ·) := by
  rw [chunks?, chunk?_chunkBytes kind rest small]
  · rfl
  · simp [chunkBytes, splitWord]

theorem bytes_addChunk (b : ByteArray) (kind : UInt32) (data : ByteArray) :
    (addChunk b kind data).data.toList = b.data.toList ++ chunkBytes kind data.data.toList := by
  simp [addChunk, chunkBytes, bytes_addWord]

def filled (filler : UInt8) (data : List UInt8) : List UInt8 :=
  data ++ List.replicate ((4 - data.length % 4) % 4) filler

theorem length_filled (filler : UInt8) (data : List UInt8) :
    (filled filler data).length = data.length + (4 - data.length % 4) % 4 := by
  simp [filled]

theorem filled_of_whole (filler : UInt8) {data : List UInt8} (whole : data.length % 4 = 0) :
    filled filler data = data := by
  simp [filled, whole]

theorem bytes_padded (filler : UInt8) (data : ByteArray) :
    (padded filler data).data.toList = filled filler data.data.toList := by
  simp [padded, filled]

theorem size_padded (filler : UInt8) (data : ByteArray) :
    (padded filler data).size = data.size + (4 - data.size % 4) % 4 := by
  rw [← ByteArray.size_data, ← Array.length_toList, bytes_padded, length_filled]
  simp

@[simp] theorem size_addWord (b : ByteArray) (w : UInt32) : (addWord b w).size = b.size + 4 := by
  simp only [addWord, ByteArray.size_push]

theorem size_container (text : String) (buffer : ByteArray) :
    (container text buffer).size =
      12 + (8 + (padded 0x20 text.toUTF8).size) + (8 + (padded 0 buffer).size) := by
  simp only [container, addChunk, ByteArray.size_append, size_addWord, ByteArray.size_empty]
  omega

theorem bytes_container (text : String) (buffer : ByteArray) :
    (container text buffer).data.toList =
      splitWord magic ++ (splitWord version ++
        (splitWord (.ofNat (container text buffer).size) ++
          (chunkBytes textChunk (filled 0x20 text.toUTF8.data.toList) ++
            (chunkBytes bufferChunk (filled 0 buffer.data.toList) ++ [])))) := by
  rw [size_container]
  simp only [container, bytes_addChunk, bytes_addWord, bytes_padded, List.append_assoc,
    List.append_nil]
  rfl

theorem file?_container (text : String) (buffer : ByteArray)
    (small : (container text buffer).size < 2 ^ 32) :
    file? (container text buffer).data.toList =
      some ⟨magic, version, .ofNat (container text buffer).size,
        [⟨textChunk, filled 0x20 text.toUTF8.data.toList⟩,
          ⟨bufferChunk, filled 0 buffer.data.toList⟩]⟩ := by
  have sizes := size_container text buffer
  have textSmall : (filled 0x20 text.toUTF8.data.toList).length < 2 ^ 32 := by
    rw [← bytes_padded, Array.length_toList, ByteArray.size_data]
    omega
  have bufferSmall : (filled 0 buffer.data.toList).length < 2 ^ 32 := by
    rw [← bytes_padded, Array.length_toList, ByteArray.size_data]
    omega
  simp only [bytes_container, file?, word?_splitWord, Option.bind_eq_bind, Option.bind_some]
  obtain ⟨n, enough⟩ : ∃ n, (chunkBytes textChunk (filled 0x20 text.toUTF8.data.toList) ++
      (chunkBytes bufferChunk (filled 0 buffer.data.toList) ++ [])).length = n + 1 + 1 :=
    ⟨_, rfl⟩
  rw [enough, chunks?_chunkBytes _ _ _ textSmall, chunks?_chunkBytes _ _ _ bufferSmall]
  cases n <;> rfl

end SceneScript.Gltf
