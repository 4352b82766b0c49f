import SwarmCraft.Core.Durable
import SwarmCraft.Storage.Store

/-!
# Portable paths, blob files and the decode loops

The path of a snapshot entry is relative, its components mean the same on every platform, and no
two entries differ only by case. The contents of snapshots are stored by their hash. A complete
file is addressed by the hash and the encoding alone, while a descriptor also states both sizes; a
file that is still being received stands beside it. The decoder is a parameter. A received chunk
changes the files of its own blob only.

Four functions read the content of a blob, whatever the reader hands over at once: two check a blob,
one restores it to a file and one returns it. Each loop asks for at most one byte more than the
descriptor declares, so that a longer content is noticed. The loops are one loop with different
buffers and outputs, and whether they accept depends on the content alone.
-/

namespace SwarmCraft

section

open Checked

/-- `str::split('/')`. -/
def splitComponents : List Char → List (List Char)
  | [] => [[]]
  | c :: rest =>
    match splitComponents rest with
    | [] => [[c]]
    | component :: others => if c = '/' then [] :: component :: others else (c :: component) :: others

/-- The components of a path. -/
def pathComponents (path : String) : List (List Char) := splitComponents path.toList

/-- The characters that some platform does not allow in a name. -/
def forbiddenCharacter (c : Char) : Bool :=
  decide (c.toNat < 0x20) || decide (c.toNat = 0x7f) ||
    c ∈ ['<', '>', ':', '"', '|', '?', '*']

/-- The digits that follow `com` and `lpt` in the name of a device. -/
def deviceDigits : List (List Char) :=
  [['1'], ['2'], ['3'], ['4'], ['5'], ['6'], ['7'], ['8'], ['9']]

/-- The reserved device names of Windows. -/
def reservedStem (stem : List Char) : Bool :=
  stem ∈ [['c', 'o', 'n'], ['p', 'r', 'n'], ['a', 'u', 'x'], ['n', 'u', 'l']] ||
    (stem.take 3 = ['c', 'o', 'm'] && stem.drop 3 ∈ deviceDigits) ||
    (stem.take 3 = ['l', 'p', 't'] && stem.drop 3 ∈ deviceDigits)

/-- `portable_component_key`. -/
def portableComponentKey (component : List Char) (fullPath : String) :
    Except StorageError (List Char) := do
  let unsafePath := StorageError.unsafeRelativePath fullPath
  ensure (component.all (fun c => decide (c.toNat < 128)) = true) unsafePath
  ensure (component.getLast? ≠ some '.' ∧ component.getLast? ≠ some ' ') unsafePath
  ensure (component.any forbiddenCharacter = false) unsafePath
  let folded := component.map Char.toLower
  ensure (reservedStem (folded.takeWhile (· ≠ '.')) = false) unsafePath
  pure folded

/-- The drive prefix of Windows: the second byte is a colon. -/
def drivePrefixed : List Char → Bool
  | first :: ':' :: _ => decide (first.toNat < 128)
  | _ => false

/-- `validate_portable_path`. -/
def validatePortablePath (path : String) : Except StorageError Unit := do
  let unsafePath := StorageError.unsafeRelativePath path
  ensure (path.toList ≠ [] ∧ path.toList.head? ≠ some '/' ∧ path.toList.contains '\\' = false ∧
    drivePrefixed path.toList = false) unsafePath
  (pathComponents path).forM fun component => do
    ensure (component ≠ [] ∧ component ≠ ['.'] ∧ component ≠ ['.', '.']) unsafePath
    let _ ← portableComponentKey component path
    pure ()

/-- `portable_path_collision_key`, before the components are joined again. -/
def portablePathCollisionKey (path : String) : Except StorageError (List (List Char)) := do
  validatePortablePath path
  (pathComponents path).mapM fun component => portableComponentKey component path

/-- The loop of `validate_manifest_paths`, with the paths and keys already seen. -/
def validatePathsFrom : List String → List (List (List Char)) → List SnapshotEntry →
    Except StorageError Unit
  | _, _, [] => pure ()
  | exact, portable, entry :: rest => do
    validatePortablePath entry.path
    ensure (entry.path ∉ exact) (.unsafeRelativePath entry.path)
    let key ← portablePathCollisionKey entry.path
    ensure (key ∉ portable) (.portablePathCollision entry.path)
    validatePathsFrom (entry.path :: exact) (key :: portable) rest

/-- `validate_manifest_paths`. -/
def validateManifestPaths (entries : List SnapshotEntry) : Except StorageError Unit :=
  validatePathsFrom [] [] entries

end

/-! ## Blob files -/

open Checked Durable

/-- The bytes of a file. -/
abbrev Bytes : Type := List UInt8

/-- What the name of a blob file is made of. -/
structure BlobKey where
  hash : Hash32
  encoding : BlobEncoding
  deriving DecidableEq

/-- `blob_path`. -/
def BlobDescriptor.key (descriptor : BlobDescriptor) : BlobKey :=
  ⟨descriptor.hash, descriptor.encoding⟩

/-- The zstd decoder; bytes that are no stream do not decode. -/
structure Codec where
  decode : Bytes → Option Bytes

/-- The content of an encoded file. -/
def Codec.content (Z : Codec) : BlobEncoding → Bytes → Option Bytes
  | .raw, bytes => some bytes
  | .zstd, bytes => Z.decode bytes

/-- The files of `blobs/`. -/
structure BlobFiles where
  /-- The complete blobs. -/
  complete : BlobKey → Option Bytes
  /-- The `.part` files of blobs that are being received. -/
  parts : BlobKey → Option Bytes

/-- A directory without blobs. -/
def BlobFiles.empty : BlobFiles := ⟨fun _ => none, fun _ => none⟩

variable (C : Crypto) (Z : Codec)

/-- `verify_encoded_blob` and `verify_encoded_blob_streaming`: the size of the file, and the size
and the hash of its content. -/
def verifyEncodedBlob (descriptor : BlobDescriptor) (file : Option Bytes) :
    Except StorageError Unit := do
  let bytes ← required file .notFound
  ensure (bytes.length = descriptor.encodedSize) (.blobCorrupt descriptor.hash)
  let content ← required (Z.content descriptor.encoding bytes)
    (.blobCorrupt descriptor.hash)
  ensure (content.length = descriptor.uncompressedSize ∧ C.hash (.blob content) = descriptor.hash)
    (.blobCorrupt descriptor.hash)

namespace BlobFiles

/-- `verify_blob_streaming`. -/
def verifyBlob (descriptor : BlobDescriptor) (files : BlobFiles) : Except StorageError Unit :=
  verifyEncodedBlob C Z descriptor (files.complete descriptor.key)

/-- `has_complete_blob`. -/
def hasComplete (descriptor : BlobDescriptor) (files : BlobFiles) : Bool :=
  (files.verifyBlob C Z descriptor).isOk

/-- The loop of `missing_blobs`, with the content hashes already seen. -/
def missingFrom (files : BlobFiles) : List Hash32 → List SnapshotEntry → List BlobDescriptor
  | _, [] => []
  | seen, entry :: rest =>
    if entry.blob.hash ∈ seen then missingFrom files seen rest
    else if files.hasComplete C Z entry.blob then missingFrom files (entry.blob.hash :: seen) rest
    else entry.blob :: missingFrom files (entry.blob.hash :: seen) rest

/-- `missing_blobs`. -/
def missing (manifest : SnapshotManifestV1) (files : BlobFiles) : List BlobDescriptor :=
  files.missingFrom C Z [] manifest.entries

/-- `partial_blob_offset`. -/
def partialOffset (descriptor : BlobDescriptor) (files : BlobFiles) : Nat :=
  ((files.parts descriptor.key).map List.length).getD 0

/-- `read_encoded_blob_chunk`. -/
def readChunk (descriptor : BlobDescriptor) (offset maxBytes : Nat) (files : BlobFiles) :
    Except StorageError (Bytes × Bool) := do
  ensure (offset ≤ descriptor.encodedSize)
    (.offsetMismatch descriptor.encodedSize offset)
  let bytes ← required (files.complete descriptor.key) .notFound
  ensure (bytes.length = descriptor.encodedSize) (.blobCorrupt descriptor.hash)
  let requested := min (descriptor.encodedSize - offset) maxBytes
  pure ((bytes.drop offset).take requested, decide (offset + requested = descriptor.encodedSize))

/-- Write a `.part` file. -/
def setPart (key : BlobKey) (bytes : Option Bytes) (files : BlobFiles) : BlobFiles :=
  { files with parts := Function.update files.parts key bytes }

/-- Write a complete file. -/
def setComplete (key : BlobKey) (bytes : Option Bytes) (files : BlobFiles) : BlobFiles :=
  { files with complete := Function.update files.complete key bytes }

/-- `fs::rename` of a `.part` file to its complete one. -/
def promote (key : BlobKey) (files : BlobFiles) : BlobFiles :=
  (files.setComplete key (files.parts key)).setPart key none

end BlobFiles

/-- The end of `receive_blob_chunk`: the received bytes are verified and take the place of the
complete file. -/
def finishBlob (descriptor : BlobDescriptor) : Program StorageError BlobFiles Unit := do
  let files ← look
  match verifyEncodedBlob C Z descriptor (files.parts descriptor.key) with
  | .error error => do
    step (BlobFiles.setPart descriptor.key none)
    lift (.error error)
  | .ok () => do
    onlyIf ((files.complete descriptor.key).isSome = true)
      (step (BlobFiles.setComplete descriptor.key none))
    step (BlobFiles.promote descriptor.key)

/-- `receive_blob_chunk`. -/
def receiveBlobChunk (descriptor : BlobDescriptor) (offset : Nat) (data : Bytes) (finished : Bool) :
    Program StorageError BlobFiles Nat := do
  let files ← look
  -- Opening the file creates it.
  onlyIf ((files.parts descriptor.key).isNone = true)
    (step (BlobFiles.setPart descriptor.key (some [])))
  let part := (files.parts descriptor.key).getD []
  lift (ensure (part.length = offset) (.offsetMismatch part.length offset))
  let next := part.length + data.length
  lift (ensure (next ≤ u64Max) (.sizeMismatch descriptor.encodedSize u64Max))
  lift (ensure (next ≤ descriptor.encodedSize)
    (.sizeMismatch descriptor.encodedSize next))
  step (BlobFiles.setPart descriptor.key (some (part ++ data)))
  if finished then do
    lift (ensure (next = descriptor.encodedSize)
      (.sizeMismatch descriptor.encodedSize next))
    finishBlob C Z descriptor
    pure next
  else pure next

/-! ## Received chunks -/

variable {C : Crypto} {Z : Codec}

namespace BlobFiles

variable {files : BlobFiles} {key : BlobKey} {bytes : Option Bytes}

/-- The bytes that were received of a blob. -/
def part (key : BlobKey) (files : BlobFiles) : Bytes := (files.parts key).getD []

/-- The offset is the number of the bytes that were received. -/
theorem partialOffset_eq (descriptor : BlobDescriptor) :
    files.partialOffset descriptor = (files.part descriptor.key).length := by
  unfold partialOffset part
  cases files.parts descriptor.key <;> rfl

@[simp] theorem setPart_setPart {bytes' : Option Bytes} :
    (files.setPart key bytes).setPart key bytes' = files.setPart key bytes' := by
  simp [setPart]

@[simp] theorem setPart_parts : (files.setPart key bytes).parts key = bytes := by
  simp [setPart]

/-- A part file does not change a complete one. -/
@[simp] theorem setPart_complete : (files.setPart key bytes).complete = files.complete := rfl

theorem setPart_self : files.setPart key (files.parts key) = files := by
  simp [setPart]

/-- The bytes of a part file that was written. -/
@[simp] theorem part_setPart : (files.setPart key bytes).part key = bytes.getD [] := by
  simp [part]

end BlobFiles

/-- How a chunk may be received. -/
inductive Receives (C : Crypto) (Z : Codec) (descriptor : BlobDescriptor) (offset : Nat)
    (data : Bytes) (finished : Bool) (files : BlobFiles) : Except StorageError Nat → BlobFiles → Prop
  /-- It does not start where the part file ends, or is too long. -/
  | refused {error : StorageError}
      (hbad : (files.part descriptor.key).length ≠ offset ∨ u64Max < offset + data.length ∨
        descriptor.encodedSize < offset + data.length) :
      Receives C Z descriptor offset data finished files (.error error)
        (files.setPart descriptor.key (some (files.part descriptor.key)))
  /-- It is stored, and more is to come. -/
  | stored (hoffset : (files.part descriptor.key).length = offset)
      (hsize : offset + data.length ≤ descriptor.encodedSize) (hmore : finished = false) :
      Receives C Z descriptor offset data finished files (.ok (offset + data.length))
        (files.setPart descriptor.key (some (files.part descriptor.key ++ data)))
  /-- It is stored and said to be the last one, although bytes are missing. -/
  | short {error : StorageError} (hoffset : (files.part descriptor.key).length = offset)
      (hsize : offset + data.length < descriptor.encodedSize) (hlast : finished = true) :
      Receives C Z descriptor offset data finished files (.error error)
        (files.setPart descriptor.key (some (files.part descriptor.key ++ data)))
  /-- It is the last one and the blob does not verify. -/
  | corrupt {error : StorageError} (hoffset : (files.part descriptor.key).length = offset)
      (hsize : offset + data.length = descriptor.encodedSize) (hlast : finished = true)
      (hverify : verifyEncodedBlob C Z descriptor (some (files.part descriptor.key ++ data)) =
        .error error) :
      Receives C Z descriptor offset data finished files (.error error)
        (files.setPart descriptor.key none)
  /-- It is the last one and the blob is complete. -/
  | completed (hoffset : (files.part descriptor.key).length = offset)
      (hsize : offset + data.length = descriptor.encodedSize) (hlast : finished = true)
      (hverify : verifyEncodedBlob C Z descriptor (some (files.part descriptor.key ++ data)) =
        .ok ()) :
      Receives C Z descriptor offset data finished files (.ok (offset + data.length))
        ((files.setComplete descriptor.key (some (files.part descriptor.key ++ data))).setPart
          descriptor.key none)

section Receive

variable {descriptor : BlobDescriptor} {offset : Nat} {data : Bytes} {finished : Bool}
  {files : BlobFiles}

/-- The files while a chunk is received: the other blobs are as before, and a complete file of the
blob itself is the one from before or verifies. -/
structure BlobFiles.Between (C : Crypto) (Z : Codec) (descriptor : BlobDescriptor)
    (files t : BlobFiles) : Prop where
  others : ∀ key ≠ descriptor.key, t.complete key = files.complete key
  own : ∀ bytes, t.complete descriptor.key = some bytes →
    files.complete descriptor.key = some bytes ∨
      verifyEncodedBlob C Z descriptor (some bytes) = .ok ()

theorem BlobFiles.between_setPart (bytes : Option Bytes) :
    files.Between C Z descriptor (files.setPart descriptor.key bytes) :=
  ⟨fun _ _ => rfl, fun _ => .inl⟩

theorem BlobFiles.between_completed {bytes : Bytes}
    (hverify : verifyEncodedBlob C Z descriptor (some bytes) = .ok ()) :
    files.Between C Z descriptor
      ((files.setComplete descriptor.key (some bytes)).setPart descriptor.key none) := by
  refine ⟨fun key hkey => Function.update_of_ne hkey .., fun other hother => .inr ?_⟩
  have hsame : bytes = other := by simpa [setComplete] using hother
  rwa [← hsame]

theorem gives_openPart :
    Gives (files.Between C Z descriptor) (onlyIf ((files.parts descriptor.key).isNone = true)
        (step (BlobFiles.setPart descriptor.key (some []))) : Program StorageError BlobFiles Unit)
      files () (files.setPart descriptor.key (some (files.part descriptor.key))) := by
  unfold onlyIf BlobFiles.part
  cases hpart : files.parts descriptor.key with
  | none => exact meets_step (BlobFiles.between_setPart _) ⟨rfl, rfl⟩
  | some bytes => exact meets_pure ⟨rfl, hpart ▸ BlobFiles.setPart_self.symm⟩

/-- The part file takes the place of the complete one, which is missing in between. -/
theorem gives_promote {bytes : Bytes}
    (hverify : verifyEncodedBlob C Z descriptor (some bytes) = .ok ()) :
    Gives (files.Between C Z descriptor) (do
        onlyIf ((files.complete descriptor.key).isSome = true)
          (step (BlobFiles.setComplete descriptor.key none))
        step (BlobFiles.promote descriptor.key) : Program StorageError BlobFiles Unit)
      (files.setPart descriptor.key (some bytes)) ()
      ((files.setComplete descriptor.key (some bytes)).setPart descriptor.key none) := by
  have hlast {s : BlobFiles} (hs : s.promote descriptor.key =
      (files.setComplete descriptor.key (some bytes)).setPart descriptor.key none) :
      Gives (files.Between C Z descriptor) (step (BlobFiles.promote descriptor.key) :
        Program StorageError BlobFiles Unit) s () _ :=
    meets_step (hs ▸ BlobFiles.between_completed hverify) ⟨rfl, hs⟩
  unfold onlyIf
  split
  · refine meets_step_bind ⟨fun key hkey => Function.update_of_ne hkey .., fun other hother => ?_⟩ ?_
    · simp [BlobFiles.setComplete] at hother
    · exact hlast (by simp [BlobFiles.promote, BlobFiles.setComplete, BlobFiles.setPart])
  · refine Gives.bind (meets_pure ⟨rfl, rfl⟩) (hlast ?_)
    simp [BlobFiles.promote, BlobFiles.setComplete, BlobFiles.setPart]

/-- What a chunk leaves, also where a crash stops it. -/
theorem meets_receiveBlobChunk : Meets (files.Between C Z descriptor)
    (Receives C Z descriptor offset data finished files)
    (receiveBlobChunk C Z descriptor offset data finished) files := by
  refine meets_look_bind (gives_openPart.bind ?_)
  refine meets_guard_bind (fun hne => .refused (.inl hne)) fun hoffset => ?_
  subst hoffset
  refine meets_guard_bind (fun hne => .refused (.inr (.inl (Nat.not_le.mp hne)))) fun _ => ?_
  refine meets_guard_bind (fun hne => .refused (.inr (.inr (Nat.not_le.mp hne)))) fun hsize => ?_
  refine meets_step_bind (by simpa using BlobFiles.between_setPart _) ?_
  rw [BlobFiles.setPart_setPart]
  cases finished with
  | false => exact meets_pure (.stored rfl hsize rfl)
  | true =>
    refine meets_guard_bind (fun hne => .short rfl (Nat.lt_of_le_of_ne hsize hne) rfl) fun hexact => ?_
    rw [finishBlob, bind_assoc]
    refine meets_look_bind ?_
    rw [BlobFiles.setPart_parts]
    cases hverify : verifyEncodedBlob C Z descriptor
      (some ((files.parts descriptor.key).getD [] ++ data)) with
    | error error =>
      dsimp only
      rw [bind_assoc]
      refine meets_step_bind (by simpa using BlobFiles.between_setPart _) ?_
      rw [BlobFiles.setPart_setPart]
      refine meets_lift_bind (fun e he => ?_) fun _ hok => ?_
      · cases he
        exact .corrupt rfl hexact rfl hverify
      · cases hok
    | ok _ =>
      refine Gives.bind (gives_promote hverify) (meets_pure ?_)
      exact .completed rfl hexact rfl hverify

/-- A chunk is received in one of these ways. -/
theorem receives_receiveBlobChunk :
    Receives C Z descriptor offset data finished files
      (receiveBlobChunk C Z descriptor offset data finished files).result
      (receiveBlobChunk C Z descriptor offset data finished files).final :=
  meets_receiveBlobChunk.2

end Receive

/-! ## The decode loops -/

/-- The bytes that a decoder yields, and the error of the read after them if it does not end. -/
structure DecodedStream where
  content : Bytes
  failure : Option StorageError

/-- How much of the room for it a read fills, at every position of a stream: something. -/
structure Chunking where
  amount (position limit : Nat) : Nat
  amount_pos : ∀ position limit, 0 < limit → 0 < amount position limit
  amount_le : ∀ position limit, amount position limit ≤ limit

/-- How a decode loop ends. -/
inductive DecodeEnding where
  | finished
  | oversized
  | unreadable (error : StorageError)
  deriving DecidableEq

/-- What a decode loop hands to the hasher and to its output, and how much it takes from the
reader. -/
structure Decoded where
  bytes : Bytes
  consumed : Nat
  ending : DecodeEnding

variable (C : Crypto) (descriptor : BlobDescriptor) (stream : DecodedStream) (chunking : Chunking)

/-- The number of bytes that a loop asks for after so many. -/
def readLimit (bufferSize total : Nat) : Nat :=
  min (min (descriptor.uncompressedSize - total + 1) u64Max) bufferSize

/-- The loop that `verify_decoded_blob`, `verify_encoded_blob_streaming`, `restore_blob_streaming`
and `read_blob` share: what was hashed and written, and what the reader still has. -/
def decodeFrom (bufferSize : Nat) (bytes rest : Bytes) : Decoded :=
  let chunk := rest.take (chunking.amount bytes.length
    (readLimit descriptor bufferSize bytes.length))
  if chunk = [] then
    match stream.failure with
    | some error => ⟨bytes, bytes.length, .unreadable error⟩
    | none => ⟨bytes, bytes.length, .finished⟩
  else if descriptor.uncompressedSize - bytes.length < chunk.length then
    ⟨bytes, bytes.length + chunk.length, .oversized⟩
  else decodeFrom bufferSize (bytes ++ chunk) (rest.drop chunk.length)
termination_by rest.length
decreasing_by
  have hread : chunk.length ≤ rest.length := List.length_take_le' _ _
  have hchunk : 0 < chunk.length := List.length_pos_iff.mpr ‹_›
  have hless : (rest.drop chunk.length).length < rest.length := by
    rw [List.length_drop]
    omega
  exact hless

/-- A decode loop from the start. -/
def decodeBlob (bufferSize : Nat) : Decoded :=
  decodeFrom descriptor stream chunking bufferSize [] stream.content

/-- The check after a loop; `readError` is what becomes of an error of the reader. -/
def Decoded.verdict (decoded : Decoded) (readError : StorageError → StorageError) :
    Except StorageError Unit :=
  match decoded.ending with
  | .unreadable error => .error (readError error)
  | .oversized => .error (.blobCorrupt descriptor.hash)
  | .finished =>
    ensure (decoded.bytes.length = descriptor.uncompressedSize ∧
      C.hash (.blob decoded.bytes) = descriptor.hash) (.blobCorrupt descriptor.hash)

/-- `STREAM_BUFFER_SIZE`. -/
def streamBufferSize : Nat := 1024 * 1024

/-- The buffer of `verify_decoded_blob`. -/
def verifyBufferSize : Nat := 1024 * 1024

/-- `verify_decoded_blob`, which passes an error of the reader on. -/
def verifyDecodedBlob : Except StorageError Unit :=
  (decodeBlob descriptor stream chunking verifyBufferSize).verdict C descriptor id

/-- The loop of `verify_encoded_blob_streaming`. -/
def verifyEncodedBlobStreaming : Except StorageError Unit :=
  (decodeBlob descriptor stream chunking streamBufferSize).verdict C descriptor
    fun _ => .blobCorrupt descriptor.hash

/-- The loop of `restore_blob_streaming`: the temporary file that it leaves, and its verdict. An
error of the reader leaves the file behind. -/
def restoreBlobStreaming : Option Bytes × Except StorageError Unit :=
  let decoded := decodeBlob descriptor stream chunking streamBufferSize
  let verdict := decoded.verdict C descriptor fun _ => .blobCorrupt descriptor.hash
  let temporary :=
    match decoded.ending, verdict with
    | .finished, .ok () => some decoded.bytes
    | .unreadable _, _ => some decoded.bytes
    | _, _ => none
  (temporary, verdict)

/-- The loop of `read_blob`, behind its guard on the declared size, which collects the bytes. -/
def readBlobLoop : Except StorageError Bytes := do
  let decoded := decodeBlob descriptor stream chunking streamBufferSize
  decoded.verdict C descriptor fun _ => .blobCorrupt descriptor.hash
  return decoded.bytes

/-- The content of a stream is the declared one. -/
def DecodedStream.Declared : Prop :=
  stream.failure = none ∧ stream.content.length = descriptor.uncompressedSize ∧
    C.hash (.blob stream.content) = descriptor.hash

variable {C} {descriptor : BlobDescriptor} {stream : DecodedStream} {chunking : Chunking}

/-- A loop ends well exactly where the stream does and is not longer than declared; it has then
read all of it, and it never reads two bytes too many. -/
structure Decoded.Faithful (descriptor : BlobDescriptor) (stream : DecodedStream)
    (decoded : Decoded) : Prop where
  consumed_le : decoded.consumed ≤ descriptor.uncompressedSize + 1
  finished_iff : decoded.ending = .finished ↔
    stream.failure = none ∧ stream.content.length ≤ descriptor.uncompressedSize
  bytes_eq : decoded.ending = .finished → decoded.bytes = stream.content

variable (descriptor chunking) in
/-- A read hands over the next bytes: not too many, and some if any are left. -/
theorem read_spec {bufferSize : Nat} (hbuffer : 0 < bufferSize) (bytes rest : Bytes) :
    let chunk := rest.take (chunking.amount bytes.length
      (readLimit descriptor bufferSize bytes.length))
    chunk.length ≤ descriptor.uncompressedSize - bytes.length + 1 ∧ (chunk = [] → rest = []) ∧
      chunk ++ rest.drop chunk.length = rest := by
  intro chunk
  have hlimit : 0 < readLimit descriptor bufferSize bytes.length := by
    simp only [readLimit, u64Max]
    omega
  have hroom := chunking.amount_le bytes.length (readLimit descriptor bufferSize bytes.length)
  have hlength : chunk.length = min _ rest.length := List.length_take
  refine ⟨?_, fun hnil => ?_, ?_⟩
  · have hdeclared : readLimit descriptor bufferSize bytes.length ≤
        descriptor.uncompressedSize - bytes.length + 1 :=
      (Nat.min_le_left _ _).trans (Nat.min_le_left _ _)
    omega
  · have hpos := chunking.amount_pos bytes.length _ hlimit
    exact (List.take_eq_nil_iff.mp hnil).resolve_left hpos.ne'
  · have hchunk : chunk = rest.take chunk.length := by
      rw [hlength]
      exact List.take_eq_take_min
    exact (congrArg (· ++ _) hchunk).trans (List.take_append_drop _ _)

/-- The loop is faithful from every state it reaches. -/
theorem decodeFrom_faithful {bufferSize : Nat} {bytes rest : Bytes} (hbuffer : 0 < bufferSize)
    (hcontent : bytes ++ rest = stream.content)
    (hsize : bytes.length ≤ descriptor.uncompressedSize) :
    (decodeFrom descriptor stream chunking bufferSize bytes rest).Faithful descriptor stream := by
  -- along the recursion of the loop, where the reader has less and less left
  fun_induction decodeFrom descriptor stream chunking bufferSize bytes rest with
  | case1 bytes rest chunk hnil error hfailure =>
    exact ⟨Nat.le_succ_of_le hsize, by simp [hfailure], nofun⟩
  | case2 bytes rest chunk hnil hfailure =>
    obtain ⟨-, hend, -⟩ := read_spec descriptor chunking hbuffer bytes rest
    rw [hend hnil, List.append_nil] at hcontent
    exact ⟨Nat.le_succ_of_le hsize, iff_of_true rfl ⟨hfailure, hcontent ▸ hsize⟩, fun _ => hcontent⟩
  | case3 bytes rest chunk hchunk hlong =>
    obtain ⟨hread, -, hrest⟩ := read_spec descriptor chunking hbuffer bytes rest
    change chunk.length ≤ _ at hread
    change chunk ++ rest.drop chunk.length = rest at hrest
    have hlength := congrArg List.length hcontent
    rw [← hrest, List.length_append, List.length_append] at hlength
    refine ⟨show bytes.length + chunk.length ≤ _ by omega, iff_of_false nofun fun hend => ?_, nofun⟩
    have := hend.2
    omega
  | case4 bytes rest chunk hchunk hshort ih =>
    obtain ⟨-, -, hrest⟩ := read_spec descriptor chunking hbuffer bytes rest
    refine ih ?_ ?_
    · rw [List.append_assoc, hrest, hcontent]
    · rw [List.length_append]
      omega

/-- A loop from the start is faithful. -/
theorem decodeBlob_faithful {bufferSize : Nat} (hbuffer : 0 < bufferSize) :
    (decodeBlob descriptor stream chunking bufferSize).Faithful descriptor stream :=
  decodeFrom_faithful hbuffer rfl (Nat.zero_le _)

/-- A faithful loop accepts what is declared. -/
theorem Decoded.Faithful.verdict_eq_ok {decoded : Decoded} (h : decoded.Faithful descriptor stream)
    (readError : StorageError → StorageError) :
    decoded.verdict C descriptor readError = .ok () ↔ stream.Declared C descriptor := by
  by_cases hending : decoded.ending = .finished
  · obtain ⟨hfailure, -⟩ := h.finished_iff.mp hending
    simp [Decoded.verdict, DecodedStream.Declared, hending, hfailure, h.bytes_eq hending]
  · refine iff_of_false ?_ fun hdeclared => ?_
    · unfold Decoded.verdict
      split <;> simp_all
    · exact hending (h.finished_iff.mpr ⟨hdeclared.1, hdeclared.2.1.le⟩)

/-- However the stream is cut into chunks for each of them, the four loops accept it exactly when
its content is the declared one, and read at most one byte more than is declared. -/
theorem decode_loops_accept_declared (C : Crypto) (descriptor : BlobDescriptor)
    (stream : DecodedStream) (first second third fourth : Chunking) :
    (verifyDecodedBlob C descriptor stream first = .ok () ↔ stream.Declared C descriptor) ∧
      (verifyEncodedBlobStreaming C descriptor stream second = .ok () ↔
        stream.Declared C descriptor) ∧
      ((restoreBlobStreaming C descriptor stream third).2 = .ok () ↔
        stream.Declared C descriptor) ∧
      ((∃ bytes, readBlobLoop C descriptor stream fourth = .ok bytes) ↔
        stream.Declared C descriptor) ∧
      (decodeBlob descriptor stream first verifyBufferSize).consumed ≤
        descriptor.uncompressedSize + 1 ∧
      ∀ chunking, (decodeBlob descriptor stream chunking streamBufferSize).consumed ≤
        descriptor.uncompressedSize + 1 := by
  have hfirst : (decodeBlob descriptor stream first verifyBufferSize).Faithful descriptor stream :=
    decodeBlob_faithful (by decide)
  have hstream (chunking : Chunking) :
      (decodeBlob descriptor stream chunking streamBufferSize).Faithful descriptor stream :=
    decodeBlob_faithful (by decide)
  refine ⟨hfirst.verdict_eq_ok _, (hstream second).verdict_eq_ok _, (hstream third).verdict_eq_ok _,
    ?_, hfirst.consumed_le, fun chunking => (hstream chunking).consumed_le⟩
  rw [← (hstream fourth).verdict_eq_ok fun _ => .blobCorrupt descriptor.hash]
  simp only [readBlobLoop, bind_eq_ok, pure_eq_ok]
  constructor
  · rintro ⟨_, _, hverdict, _⟩
    exact hverdict
  · exact fun hverdict => ⟨_, (), hverdict, rfl⟩

end SwarmCraft
