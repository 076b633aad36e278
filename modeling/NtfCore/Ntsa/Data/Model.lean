import Mathlib.Algebra.Group.Int.Defs
import Mathlib.Algebra.GroupWithZero.Nat
import Mathlib.Data.List.Basic

/-!
Contract: data containers (`ntsa::Data`) and the ways to read and to consume them.

Owns: the twelve representations of a container, with the counts they cache; `size`,
`DataUtil::pop`, `DataUtil::append`, `DataUtil::copy` and `DataUtil::equals`, as
`ntsa_data.cpp` and `ntsa_buffer.h` compute them for each representation; blobs, whose
lengths are those of an `int`.

An assertion of the source that fails, and a read outside of an array, is `none`. The
bytes that a buffer refers to are the buffer; files are read as they are stored.
-/

namespace NtfCore.Ntsa

/-! ## Buffers -/

/-- `ntsa::ConstBuffer`, `ntsa::MutableBuffer` and `bdlbb::BlobBuffer`: the bytes that the
buffer refers to. -/
abbrev Buffer := List UInt8

/-- `advance` of both kinds of buffers. -/
def Buffer.advance (buffer : Buffer) (n : Nat) : Buffer :=
  let offset := if n < buffer.length then n else buffer.length
  buffer.drop offset

/-- `ntsa::ConstBufferArray` and `ntsa::MutableBufferArray`. -/
structure BufferArray where
  buffers : List Buffer := []
  numBytes : Nat := 0
deriving DecidableEq

namespace BufferArray

def append (array : BufferArray) (buffer : Buffer) : BufferArray where
  buffers := array.buffers ++ [buffer]
  numBytes := array.numBytes + buffer.length

/-- The loop of `pop`, in which the number of bytes that remain does not change. -/
def popLoop (numBytesRemaining : Nat) : List Buffer -> Nat -> Option BufferArray
  | [], numBytes => some ⟨[], numBytes⟩
  | front :: rest, numBytes =>
    if front.length < numBytesRemaining then
      if front.length ≤ numBytes then popLoop numBytesRemaining rest (numBytes - front.length)
      else none
    else if numBytesRemaining ≤ numBytes then
      some ⟨front.advance numBytesRemaining :: rest, numBytes - numBytesRemaining⟩
    else none

/-- `ConstBufferArray::pop` and `MutableBufferArray::pop`. -/
def pop (array : BufferArray) (numBytes : Nat) : Option BufferArray :=
  let numBytesRemaining := if array.numBytes < numBytes then array.numBytes else numBytes
  if 0 < numBytesRemaining then popLoop numBytesRemaining array.buffers array.numBytes
  else some array

end BufferArray

/-- `ntsa::ConstBufferPtrArray` and `ntsa::MutableBufferPtrArray`: the buffers from the
pointer to the end of the array of the caller. -/
structure BufferPtrArray where
  buffers : List Buffer := []
  numBuffers : Nat := 0
  numBytes : Nat := 0
deriving DecidableEq

namespace BufferPtrArray

/-- The loop of `pop`, in which neither the number of bytes that remain nor the number of
buffers changes. -/
def popLoop (numBytesRemaining numBuffers : Nat) : List Buffer -> Nat -> Option BufferPtrArray
  | [], _ => none
  | front :: rest, numBytes =>
    if front.length < numBytesRemaining then
      if front.length ≤ numBytes then
        popLoop numBytesRemaining numBuffers rest (numBytes - front.length)
      else none
    else if numBytesRemaining ≤ numBytes then
      some ⟨front.advance numBytesRemaining :: rest, numBuffers, numBytes - numBytesRemaining⟩
    else none

/-- `ConstBufferPtrArray::pop` and `MutableBufferPtrArray::pop`. -/
def pop (array : BufferPtrArray) (numBytes : Nat) : Option BufferPtrArray :=
  let numBytesRemaining := if array.numBytes < numBytes then array.numBytes else numBytes
  if 0 < numBytesRemaining ∧ array.numBuffers ≠ 0 then
    popLoop numBytesRemaining array.numBuffers array.buffers array.numBytes
  else some array

end BufferPtrArray

/-- The number of values of `bdls::FilesystemUtil::Offset`, which is signed. -/
def offsetModulus : Nat := 2 ^ 64

/-- `ntsa::File`, with the bytes that the file stores. -/
structure File where
  stored : List UInt8 := []
  position : Int := 0
  bytesRemaining : Int := 0
deriving DecidableEq

structure File.Readable (file : File) : Prop where
  position : 0 ≤ file.position
  bytesRemaining : 0 ≤ file.bytesRemaining
  within : file.position + file.bytesRemaining ≤ file.stored.length
  representable : file.position + file.bytesRemaining < 2 ^ 63

def File.contents (file : File) : List UInt8 :=
  (file.stored.drop file.position.toNat).take file.bytesRemaining.toNat

/-- `DataUtil::Impl::popFile`. -/
def File.pop (file : File) (numBytes : UInt64) : File :=
  let numBytesToPop := numBytes.toBitVec.toInt
  let numBytesToPop :=
    if file.bytesRemaining < numBytesToPop then file.bytesRemaining else numBytesToPop
  { file with
    position := (file.position + numBytesToPop).bmod offsetModulus
    bytesRemaining := (file.bytesRemaining - numBytesToPop).bmod offsetModulus }

/-! ## Blobs -/

/-- The number of bytes that a blob cannot hold: its length is an `int`. -/
def lengthLimit : Nat := 2 ^ 31

/-- `bdlbb::Blob`: the data buffers, the last one without the bytes behind its data; how
many these are; and the sizes of the buffers behind the data buffers. The last data buffer
holds data. -/
structure Blob where
  data : List Buffer := []
  rest : Nat := 0
  spare : List Nat := []
  last_ne : data.getLast? ≠ some []
  length_lt : data.flatten.length < lengthLimit
deriving DecidableEq

namespace Blob

def contents (blob : Blob) : List UInt8 :=
  blob.data.flatten

def length (blob : Blob) : Nat :=
  blob.contents.length

def numDataBuffers (blob : Blob) : Nat :=
  blob.data.length

def numBuffers (blob : Blob) : Nat :=
  blob.data.length + blob.spare.length

def available (blob : Blob) : Nat :=
  blob.rest + blob.spare.sum

def trimLastDataBuffer (blob : Blob) : Blob :=
  { blob with rest := 0 }

def ofBytes (bytes : List UInt8) (fits : bytes.length < lengthLimit) : Blob where
  data := if bytes = [] then [] else [bytes]
  last_ne := by
    split
    · nofun
    · rename_i someBytes
      exact fun isEmpty => someBytes (Option.some.inj isEmpty)
  length_lt := by
    split
    · exact Nat.two_pow_pos 31
    · rw [List.flatten_cons, List.flatten_nil, List.append_nil]
      exact fits

theorem ofBytes_contents (bytes : List UInt8) (fits : bytes.length < lengthLimit) :
    (ofBytes bytes fits).contents = bytes := by
  unfold ofBytes contents
  dsimp only
  split
  · rename_i noBytes
    rw [noBytes, List.flatten_nil]
  · exact List.append_nil bytes

/-- `setLength(0)`. -/
def clear (blob : Blob) : Blob where
  data := []
  spare := blob.data.dropLast.map List.length ++
    (blob.data.getLast?.map (fun last => last.length + blob.rest)).toList ++ blob.spare
  last_ne := nofun
  length_lt := Nat.two_pow_pos 31

end Blob

/-- Operations of `bdlbb::Blob`, `bdlbb::BlobUtil` and the factory of a blob, as they are
documented. The buffers that the factory allocates next have the sizes `allocate 0`,
`allocate 1` and so on. -/
structure BlobLibrary where
  append : (blob : Blob) -> (bytes : List UInt8) -> blob.length + bytes.length < lengthLimit -> Blob
  append_contents : ∀ blob bytes fits,
    (append blob bytes fits).contents = blob.contents ++ bytes
  /-- `setLength`, where the buffers of the blob hold the second bytes behind its data. -/
  setLength : Blob -> (behind : List UInt8) -> (length : Nat) -> length < lengthLimit -> Blob
  setLength_contents : ∀ blob behind length fits, length ≤ blob.length + behind.length ->
    (setLength blob behind length fits).contents = (blob.contents ++ behind).take length
  erase : Blob -> Nat -> Blob
  erase_contents : ∀ blob length, (erase blob length).contents = blob.contents.drop length
  allocate : Nat -> Nat
  allocate_pos : ∀ index, 0 < allocate index

def BlobLibrary.contiguous : BlobLibrary where
  append blob bytes fits := .ofBytes (blob.contents ++ bytes) (by
    rw [List.length_append]
    exact fits)
  append_contents := fun _ _ _ => Blob.ofBytes_contents _ _
  setLength blob behind length fits := .ofBytes ((blob.contents ++ behind).take length)
    (Nat.lt_of_le_of_lt (List.length_take_le _ _) fits)
  setLength_contents := fun _ _ _ _ _ => Blob.ofBytes_contents _ _
  erase blob length := .ofBytes (blob.contents.drop length) (by
    rw [List.length_drop]
    exact Nat.lt_of_le_of_lt (Nat.sub_le _ _) blob.length_lt)
  erase_contents := fun _ _ => Blob.ofBytes_contents _ _
  allocate _ := 4
  allocate_pos := fun _ => by decide

/-! ## Containers -/

/-- `ntsa::Data`. A shared blob is not null. -/
inductive Data where
  | undefined
  | blobBuffer (buffer : Buffer)
  | constBuffer (buffer : Buffer)
  | constBufferArray (array : BufferArray)
  | constBufferPtrArray (array : BufferPtrArray)
  | mutableBuffer (buffer : Buffer)
  | mutableBufferArray (array : BufferArray)
  | mutableBufferPtrArray (array : BufferPtrArray)
  | blob (blob : Blob)
  | sharedBlob (blob : Blob)
  | string (string : List UInt8)
  | file (file : File)
deriving DecidableEq

namespace Data

def contents : Data -> List UInt8
  | .undefined => []
  | .blobBuffer buffer => buffer
  | .constBuffer buffer => buffer
  | .constBufferArray array => array.buffers.flatten
  | .constBufferPtrArray array => array.buffers.flatten
  | .mutableBuffer buffer => buffer
  | .mutableBufferArray array => array.buffers.flatten
  | .mutableBufferPtrArray array => array.buffers.flatten
  | .blob value => value.contents
  | .sharedBlob value => value.contents
  | .string value => value
  | .file value => value.contents

/-- `size`. -/
def size : Data -> Nat
  | .undefined => 0
  | .blobBuffer buffer => buffer.length
  | .constBuffer buffer => buffer.length
  | .constBufferArray array => array.numBytes
  | .constBufferPtrArray array => array.numBytes
  | .mutableBuffer buffer => buffer.length
  | .mutableBufferArray array => array.numBytes
  | .mutableBufferPtrArray array => array.numBytes
  | .blob value => value.length
  | .sharedBlob value => value.length
  | .string value => value.length
  | .file value => (value.bytesRemaining % offsetModulus).toNat

end Data

def BufferArray.Agrees (array : BufferArray) : Prop :=
  array.numBytes = array.buffers.flatten.length

structure BufferPtrArray.Agrees (array : BufferPtrArray) : Prop where
  numBuffers : array.numBuffers = array.buffers.length
  numBytes : array.numBytes = array.buffers.flatten.length

def Data.Agrees : Data -> Prop
  | .constBufferArray array => array.Agrees
  | .constBufferPtrArray array => array.Agrees
  | .mutableBufferArray array => array.Agrees
  | .mutableBufferPtrArray array => array.Agrees
  | .file value => value.Readable
  | _ => True

namespace DataUtil

/-- `popBlobBuffer`. -/
def popBlobBuffer (buffer : Buffer) (numBytes : Nat) : Buffer :=
  let numBytes := if buffer.length < numBytes then buffer.length else numBytes
  buffer.drop numBytes

/-- `popBlob` and `popSharedBlob`. -/
def popBlob (library : BlobLibrary) (blob : Blob) (numBytes : Nat) : Blob :=
  let numBytes := if blob.length < numBytes then blob.length else numBytes
  library.erase blob numBytes

/-- `popString`. -/
def popString (string : List UInt8) (numBytes : Nat) : List UInt8 :=
  let numBytes := if string.length < numBytes then string.length else numBytes
  string.drop numBytes

/-- `DataUtil::pop`. -/
def pop (library : BlobLibrary) (data : Data) (numBytes : UInt64) : Option Data :=
  match data with
  | .undefined => some .undefined
  | .blobBuffer buffer => some (.blobBuffer (popBlobBuffer buffer numBytes.toNat))
  | .constBuffer buffer => some (.constBuffer (buffer.advance numBytes.toNat))
  | .constBufferArray array => (array.pop numBytes.toNat).map .constBufferArray
  | .constBufferPtrArray array => (array.pop numBytes.toNat).map .constBufferPtrArray
  | .mutableBuffer buffer => some (.mutableBuffer (buffer.advance numBytes.toNat))
  | .mutableBufferArray array => (array.pop numBytes.toNat).map .mutableBufferArray
  | .mutableBufferPtrArray array => (array.pop numBytes.toNat).map .mutableBufferPtrArray
  | .blob blob => some (.blob (popBlob library blob numBytes.toNat))
  | .sharedBlob blob => some (.sharedBlob (popBlob library blob numBytes.toNat))
  | .string string => some (.string (popString string numBytes.toNat))
  | .file file => some (.file (file.pop numBytes))

/-! ## Appending to a blob -/

/-- `NTSCFG_WARNING_NARROW(int, value)`. -/
def narrow (value : Nat) : Int :=
  (value : Int).bmod (2 ^ 32)

/-- `bdlbb::BlobUtil::append` of a blob, and `bdlbb::Blob::appendDataBuffer`. -/
def appendBytes (library : BlobLibrary) (destination : Blob) (bytes : List UInt8) : Option Blob :=
  if fits : destination.length + bytes.length < lengthLimit then
    some (library.append destination bytes fits)
  else none

/-- `bdlbb::BlobUtil::append` of as many bytes of a buffer as its narrowed size is. -/
def appendSized (library : BlobLibrary) (destination : Blob) (buffer : Buffer) : Option Blob :=
  if narrow buffer.length < 0 then none
  else appendBytes library destination (buffer.take (narrow buffer.length).toNat)

/-- The loop of `appendConstBufferArray` and of its three siblings. -/
def appendBuffers (library : BlobLibrary) : Blob -> Nat -> List Buffer -> Option (Blob × Nat)
  | destination, total, [] => some (destination, total)
  | destination, total, buffer :: rest =>
    (appendSized library destination buffer).bind fun next =>
      appendBuffers library next (total + buffer.length) rest

def allocateUntil (library : BlobLibrary) : (fuel index missing : Nat) -> List Nat
  | 0, _, _ => []
  | fuel + 1, index, missing =>
    if missing = 0 then []
    else library.allocate index ::
      allocateUntil library fuel (index + 1) (missing - library.allocate index)

/-- `setLength(length)` followed by `setLength` to the length before. -/
def reserve (library : BlobLibrary) (blob : Blob) (length : Int) : Option Blob :=
  let missing := length.toNat - (blob.length + blob.available)
  if length < 0 then none
  else some { blob with spare := blob.spare ++ allocateUntil library missing 0 missing }

/-- The loop of `appendFile`: the bytes that are read into buffers of the given sizes. Each
of the buffers but the last one that is read into is filled. -/
def readLoop : List Nat -> List UInt8 -> Nat -> Option (List UInt8)
  | _, _, 0 => some []
  | [], _, _ + 1 => none
  | size :: rest, stored, fileBytesRemaining + 1 =>
    let numBytesToRead := min (fileBytesRemaining + 1) size
    let read := stored.take numBytesToRead
    if read.length = 0 then some []
    else if read.length ≠ numBytesToRead then some read
    else
      (readLoop rest (stored.drop read.length) (fileBytesRemaining + 1 - read.length)).map
        (read ++ ·)

/-- `appendFile`. The buffers behind the data, of which nothing is written before, hold
the bytes of `stale`. -/
def appendFile (library : BlobLibrary) (stale : Nat -> UInt8) (destination : Blob) (file : File) :
    Option (Blob × Nat) :=
  let originalLength := destination.length
  let bytesRemaining := file.bytesRemaining.toNat
  let target := narrow (originalLength + bytesRemaining)
  (reserve library destination.trimLastDataBuffer target).bind fun reserved =>
    if reserved.available < bytesRemaining then none
    else if reserved.numBuffers ≤ reserved.numDataBuffers then none
    else
      let bufferIndex := if reserved.numDataBuffers = 0 then 0 else 1
      let stored := file.stored.drop file.position.toNat
      (readLoop (reserved.spare.drop bufferIndex) stored bytesRemaining).bind fun read =>
        let skipped := (List.range (reserved.spare.take bufferIndex).sum).map stale
        let length := narrow (originalLength + read.length)
        if fits : 0 ≤ length ∧ length.toNat < lengthLimit then
          some (library.setLength reserved (skipped ++ read) length.toNat fits.2, read.length)
        else none

/-- `buffer(i)` for each `i` below `numBuffers`. -/
def listed (array : BufferPtrArray) : Option (List Buffer) :=
  if array.numBuffers ≤ array.buffers.length then some (array.buffers.take array.numBuffers)
  else none

/-- `DataUtil::append`. -/
def append (library : BlobLibrary) (stale : Nat -> UInt8) (destination : Blob) (source : Data) :
    Option (Blob × Nat) :=
  match source with
  | .undefined => some (destination, 0)
  | .blobBuffer buffer => (appendBytes library destination buffer).map (·, buffer.length)
  | .constBuffer buffer => (appendSized library destination buffer).map (·, buffer.length)
  | .constBufferArray array => appendBuffers library destination 0 array.buffers
  | .constBufferPtrArray array => (listed array).bind (appendBuffers library destination 0)
  | .mutableBuffer buffer => (appendSized library destination buffer).map (·, buffer.length)
  | .mutableBufferArray array => appendBuffers library destination 0 array.buffers
  | .mutableBufferPtrArray array => (listed array).bind (appendBuffers library destination 0)
  | .blob blob => (appendBytes library destination blob.contents).map (·, blob.length)
  | .sharedBlob blob => (appendBytes library destination blob.contents).map (·, blob.length)
  | .string string => (appendSized library destination string).map (·, string.length)
  | .file file => appendFile library stale destination file

/-! ## Copying to a blob -/

/-- The errors of `DataUtil::copy`. -/
inductive CopyError where
  | wouldBlock
  | eof

/-- `sputn` of `bdlbb::OutBlobStreamBuf`. -/
def sputn (library : BlobLibrary) (destination : Blob) (bytes : List UInt8) : Option (Blob × Nat) :=
  (appendBytes library destination bytes).map (·, bytes.length)

/-- The largest `std::streamsize`. -/
def numBytesToCopyMax : Nat := 2 ^ 63 - 1

/-- The loop of `copyConstBuffer`, which takes less turns than there are bytes. -/
def copyLoop (library : BlobLibrary) :
    (fuel : Nat) -> Blob -> Buffer -> Option (Blob × Option CopyError)
  | 0, destination, _ => some (destination, none)
  | fuel + 1, destination, buffer =>
    if buffer.length = 0 then some (destination, none)
    else
      let numBytesToCopy :=
        if buffer.length ≤ numBytesToCopyMax then buffer.length else numBytesToCopyMax
      (sputn library destination (buffer.take numBytesToCopy)).bind fun (next, numBytesCopied) =>
        if numBytesCopied ≠ numBytesToCopy then some (next, some .wouldBlock)
        else copyLoop library fuel next (buffer.drop numBytesCopied)

/-- `copyConstBuffer`, `copyBlobBuffer`, `copyMutableBuffer` and `copyString`. -/
def copyConstBuffer (library : BlobLibrary) (destination : Blob) (buffer : Buffer) :
    Option (Blob × Option CopyError) :=
  copyLoop library buffer.length destination buffer

/-- `copyBlob`, `copyConstBufferArray` and its three siblings. -/
def copyBuffers (library : BlobLibrary) : Blob -> List Buffer -> Option (Blob × Option CopyError)
  | destination, [] => some (destination, none)
  | destination, buffer :: rest =>
    (copyConstBuffer library destination buffer).bind fun (next, error) =>
      if error.isSome then some (next, error) else copyBuffers library next rest

/-- The size of the buffer of `copyFile`. -/
def fileBufferSize : Nat := 512

/-- The loop of `copyFile`, which takes less turns than there are bytes. A read of less
than the requested bytes ends it, with the error of the system or with `eof`. -/
def copyFileLoop (library : BlobLibrary) :
    (fuel : Nat) -> Blob -> List UInt8 -> Nat -> Option (Blob × Option CopyError)
  | 0, destination, _, _ => some (destination, none)
  | fuel + 1, destination, stored, numBytesRemaining =>
    if numBytesRemaining = 0 then some (destination, none)
    else
      let numBytesToRead :=
        if numBytesRemaining < fileBufferSize then numBytesRemaining else fileBufferSize
      let read := stored.take numBytesToRead
      (copyConstBuffer library destination read).bind fun (next, error) =>
        if error.isSome then some (next, error)
        else if read.length ≠ numBytesToRead then some (next, some .eof)
        else copyFileLoop library fuel next (stored.drop numBytesToRead)
          (numBytesRemaining - numBytesToRead)

/-- `copyFile`. -/
def copyFile (library : BlobLibrary) (destination : Blob) (file : File) :
    Option (Blob × Option CopyError) :=
  copyFileLoop library file.bytesRemaining.toNat destination
    (file.stored.drop file.position.toNat) file.bytesRemaining.toNat

/-- `DataUtil::copy` to the stream buffer of a blob. -/
def copyOut (library : BlobLibrary) (destination : Blob) (source : Data) :
    Option (Blob × Option CopyError) :=
  match source with
  | .undefined => some (destination, none)
  | .blobBuffer buffer => copyConstBuffer library destination buffer
  | .constBuffer buffer => copyConstBuffer library destination buffer
  | .constBufferArray array => copyBuffers library destination array.buffers
  | .constBufferPtrArray array => (listed array).bind (copyBuffers library destination)
  | .mutableBuffer buffer => copyConstBuffer library destination buffer
  | .mutableBufferArray array => copyBuffers library destination array.buffers
  | .mutableBufferPtrArray array => (listed array).bind (copyBuffers library destination)
  | .blob blob => copyBuffers library destination blob.data
  | .sharedBlob blob => copyBuffers library destination blob.data
  | .string string => copyConstBuffer library destination string
  | .file file => copyFile library destination file

/-- `DataUtil::copy` to a blob. -/
def copy (library : BlobLibrary) (destination : Blob) (source : Data) :
    Option (Blob × Option CopyError) :=
  copyOut library destination.clear source

def emptyBlob : Blob where
  data := []
  last_ne := nofun
  length_lt := Nat.two_pow_pos 31

/-- `DataUtil::equals`. -/
def equals (library : BlobLibrary) (lhs rhs : Data) : Option Bool :=
  if lhs.size ≠ rhs.size then some false
  else
    match lhs, rhs with
    | .blob lhs, .blob rhs => some (lhs.contents = rhs.contents)
    | lhs, rhs =>
      (copy library emptyBlob lhs).bind fun (lhsBlob, error) =>
        if error.isSome then some false
        else
          (copy library emptyBlob rhs).bind fun (rhsBlob, error) =>
            if error.isSome then some false
            else some (lhsBlob.contents = rhsBlob.contents)

end DataUtil

end NtfCore.Ntsa
