import NtfCore.Ntcdns.Memory

/-!
Contract: the elements of a message read back as they were written.

Owns: the rules that tell what a sequence of operations writes and reads; and for
numbers, character strings and domain names, the bytes that are written and that
reading these bytes gives the element again.
-/

namespace NtfCore.Ntcdns

open NtfCore.Foundation List MemoryEncoder Bytes UInt8
open MemoryDecoder

section Writing

structure Wrote (before : MemoryEncoder) (bytes : List UInt8) (after : MemoryEncoder) : Prop where
  produced : after.produced = before.produced ++ bytes
  current : after.current = before.current + bytes.length
  within : after.current ≤ after.data.length

def Writes (operation : MemoryEncoder -> Except Fault MemoryEncoder) (bytes : List UInt8) : Prop :=
  ∀ before after, before.current ≤ before.data.length -> operation before = .ok after ->
    Wrote before bytes after

/-- A sequence that succeeds consists of steps that succeed. -/
theorem bind_eq_ok {α β : Type} {first : Except Fault α} {next : α -> Except Fault β} {result : β} :
    (first >>= next) = .ok result ↔ ∃ middle, first = .ok middle ∧ next middle = .ok result := by
  cases first with
  | error fault | ok _ => simp [bind, Except.bind]

theorem Writes.bind {first second : MemoryEncoder -> Except Fault MemoryEncoder}
    {front back : List UInt8} (writesFront : Writes first front) (writesBack : Writes second back) :
    Writes (fun encoder => first encoder >>= second) (front ++ back) := by
  intro before after within succeeded
  obtain ⟨middle, isMiddle, isAfter⟩ := bind_eq_ok.mp succeeded
  have wroteFront := writesFront before middle within isMiddle
  have wroteBack := writesBack middle after wroteFront.within isAfter
  constructor
  case produced => rw [wroteBack.produced, wroteFront.produced, append_assoc]
  case current => rw [wroteBack.current, wroteFront.current, length_append, Nat.add_assoc]
  case within => exact wroteBack.within

theorem writes_nothing : Writes (fun encoder => .ok encoder) [] := by
  intro _ _ within succeeded
  cases succeeded
  exact ⟨(append_nil _).symm, rfl, within⟩

theorem encodeRaw_writes (bytes : List UInt8) : Writes (·.encodeRaw bytes) bytes := by
  intro before _ within succeeded
  simp only [encodeRaw] at succeeded
  split at succeeded
  · contradiction
  · rename_i room
    cases succeeded
    have fits : before.current + bytes.length ≤ before.data.length := by omega
    constructor
    case produced => exact Buffer.take_overwrite within
    case current => rfl
    case within =>
      rw [Buffer.overwrite_length fits]
      exact fits

theorem foldlM_writes {α : Type} {op : MemoryEncoder -> α -> Except Fault MemoryEncoder}
    {bytes : α -> List UInt8} (items : List α)
    (writes : ∀ item ∈ items, Writes (op · item) (bytes item)) :
    Writes (fun encoder => items.foldlM op encoder) (items.flatMap bytes) := by
  induction items with
  | nil => exact writes_nothing
  | cons item _ ih =>
    apply (writes item mem_cons_self).bind
    apply ih
    exact fun other mem => writes other (mem_cons_of_mem _ mem)

/-- A number that was written as a placeholder is written again once what follows it
is known. -/
theorem Wrote.patch {start written patched after : MemoryEncoder} {old new back : List UInt8}
    (wrote : Wrote start (old ++ back) written) (within : start.current ≤ start.data.length)
    (sameLength : old.length = new.length)
    (rewritten : encodeRaw { written with current := start.current } new = .ok patched)
    (resumed : patched.seek written.current = .ok after) : Wrote start (new ++ back) after := by
  have startLength : start.produced.length = start.current := by
    unfold MemoryEncoder.produced
    rw [length_take, Nat.min_eq_left within]
  have isData : written.data = start.produced ++ old ++
      (back ++ written.data.drop written.current) := by
    have isProduced : written.data.take written.current = start.produced ++ (old ++ back) :=
      wrote.produced
    conv_lhs => rw [← take_append_drop written.current written.data, isProduced]
    simp
  have patchedData : patched.data = start.produced ++ new ++
      (back ++ written.data.drop written.current) := by
    unfold encodeRaw at rewritten
    split at rewritten
    · contradiction
    · cases rewritten
      rw [← startLength]
      exact Buffer.overwrite_split isData sameLength
  have currentEq : written.current = (start.produced ++ (new ++ back)).length := by
    rw [wrote.current]
    simp only [length_append, startLength, sameLength]
  unfold seek at resumed
  split at resumed
  · contradiction
  · rename_i inside
    cases resumed
    constructor
    case produced =>
      rw [patchedData, currentEq]
      have regrouped : start.produced ++ new ++ (back ++ written.data.drop
          (start.produced ++ (new ++ back)).length) = start.produced ++ (new ++ back) ++
            written.data.drop (start.produced ++ (new ++ back)).length := by simp
      rw [regrouped]
      exact take_left
    case current =>
      rw [wrote.current]
      simp only [length_append, sameLength]
    case within =>
      dsimp only
      omega

end Writing

section Reading

variable {α β : Type}

def MemoryDecoder.skip (decoder : MemoryDecoder) (amount : Nat) : MemoryDecoder :=
  { decoder with current := decoder.current + amount }

theorem MemoryDecoder.skip_skip (decoder : MemoryDecoder) (front back : List UInt8) :
    (decoder.skip front.length).skip back.length = decoder.skip (front ++ back).length := by
  unfold skip
  simp only [length_append, Nat.add_assoc]

def Reads (operation : MemoryDecoder -> Except Fault (α × MemoryDecoder)) (bytes : List UInt8)
    (value : α) : Prop :=
  ∀ decoder, Buffer.Ahead decoder.data decoder.current bytes ->
    operation decoder = .ok (value, decoder.skip bytes.length)

variable {first : MemoryDecoder -> Except Fault (α × MemoryDecoder)} {value : α}

theorem Reads.step {front : List UInt8} (reads : Reads first front value) {decoder : MemoryDecoder}
    (ahead : Buffer.Ahead decoder.data decoder.current front)
    (next : α × MemoryDecoder -> Except Fault β) :
    (first decoder >>= next) = next (value, decoder.skip front.length) := by
  rw [reads decoder ahead]
  rfl

variable {next : α × MemoryDecoder -> Except Fault (β × MemoryDecoder)}

theorem Reads.bind {front back : List UInt8} {result : β} (readsFront : Reads first front value)
    (readsBack : Reads (fun decoder => next (value, decoder)) back result) :
    Reads (fun decoder => first decoder >>= next) (front ++ back) result := by
  intro decoder ahead
  show first decoder >>= next = _
  rw [readsFront.step ahead.left, ← skip_skip]
  exact readsBack (decoder.skip front.length) ahead.right

theorem reads_nothing (value : α) : Reads (fun decoder => .ok (value, decoder)) [] value := by
  intro _ _
  rfl

theorem decodeRaw_reads (bytes : List UInt8) : Reads (·.decodeRaw bytes.length) bytes bytes := by
  intro _ ahead
  simp only [decodeRaw]
  rw [if_neg (Nat.not_lt.mpr ahead.fits), ahead.take_drop]
  rfl

variable {bytes : List UInt8}

theorem decodeRaw_length {decoder next : MemoryDecoder} {size : Nat}
    (isRead : decoder.decodeRaw size = .ok (bytes, next)) : bytes.length = size := by
  unfold decodeRaw at isRead
  split at isRead
  · contradiction
  · cases isRead
    rw [length_take, length_drop]
    omega

theorem Reads.last {result : β} (reads : Reads first bytes value)
    (isLast : ∀ decoder, next (value, decoder) = .ok (result, decoder)) :
    Reads (fun decoder => first decoder >>= next) bytes result := by
  intro decoder ahead
  show first decoder >>= next = _
  rw [reads.step ahead]
  exact isLast (decoder.skip bytes.length)

end Reading

theorem decodeUint8_reads (value : UInt8) : Reads decodeUint8 [value] value := by
  have loaded : ofNat (loadBigEndian [value]) = value := by simp [loadBigEndian, loadLittleEndian]
  apply (decodeRaw_reads [value]).last
  intro decoder
  show Except.ok (ofNat (loadBigEndian [value]), decoder) = _
  rw [loaded]

theorem decodeUint16_reads (value : UInt16) :
    Reads decodeUint16 (storeBigEndian 2 value.toNat) value := by
  have loaded : UInt16.ofNat (loadBigEndian (storeBigEndian 2 value.toNat)) = value := by
    rw [load_storeBigEndian value.toNat_lt]
    exact UInt16.ofNat_toNat
  apply (decodeRaw_reads (storeBigEndian 2 value.toNat)).last
  intro decoder
  show Except.ok (UInt16.ofNat (loadBigEndian _), decoder) = _
  rw [loaded]

theorem decodeUint32_reads (value : UInt32) :
    Reads decodeUint32 (storeBigEndian 4 value.toNat) value := by
  have loaded : UInt32.ofNat (loadBigEndian (storeBigEndian 4 value.toNat)) = value := by
    rw [load_storeBigEndian value.toNat_lt]
    exact UInt32.ofNat_toNat
  apply (decodeRaw_reads (storeBigEndian 4 value.toNat)).last
  intro decoder
  show Except.ok (UInt32.ofNat (loadBigEndian _), decoder) = _
  rw [loaded]

def characterStringBytes (value : List UInt8) : List UInt8 := UInt8.ofNat value.length :: value

theorem encodeCharacterString_writes (value : List UInt8) :
    Writes (·.encodeCharacterString value) (characterStringBytes value) := by
  intro before after within succeeded
  simp only [encodeCharacterString] at succeeded
  split at succeeded
  · contradiction
  · exact (encodeRaw_writes [ofNat value.length]).bind (encodeRaw_writes value) before after
      within succeeded

variable {value : List UInt8}

/-- A character string that was written is not too long. -/
theorem encodeCharacterString_length {before after : MemoryEncoder}
    (succeeded : before.encodeCharacterString value = .ok after) :
    value.length ≤ maxCharacterStringLength := by
  unfold encodeCharacterString at succeeded
  split at succeeded
  · contradiction
  · rename_i short
    exact Nat.not_lt.mp short

theorem decodeCharacterString_reads (short : value.length ≤ maxCharacterStringLength) :
    Reads decodeCharacterString (characterStringBytes value) value := by
  have isLength : (ofNat value.length).toNat = value.length := by
    apply Nat.mod_eq_of_lt
    unfold maxCharacterStringLength at short
    omega
  have readsValue : Reads (fun decoder => decoder.decodeRaw (ofNat value.length).toNat)
      value value := by
    rw [isLength]
    exact decodeRaw_reads value
  exact (decodeUint8_reads (ofNat value.length)).bind readsValue

/-- A label that `encodeDomainName` writes as it is. -/
structure CanonicalLabel (label : List UInt8) : Prop where
  nonempty : label ≠ []
  short : label.length ≤ maxLabelLength
  undotted : dot ∉ label

def Canonical (name : List UInt8) : Prop :=
  ∃ labels : List (List UInt8), (∀ label ∈ labels, CanonicalLabel label) ∧ name = joinLabels labels

def labelsBytes (labels : List (List UInt8)) : List UInt8 :=
  labels.flatMap characterStringBytes ++ [0]

theorem encodeToken_writes (token : List UInt8) :
    Writes (·.encodeToken token) (characterStringBytes token) := by
  intro before after within succeeded
  simp only [encodeToken] at succeeded
  split at succeeded
  · contradiction
  · exact (encodeRaw_writes [ofNat token.length]).bind (encodeRaw_writes token) before after
      within succeeded

theorem encodeDomainName_writes (tok : Tokenizer) (name : List UInt8) :
    Writes (encodeDomainName tok name) (labelsBytes (tok.tokens name)) := by
  have writesLabels := foldlM_writes (tok.tokens name) fun token _ => encodeToken_writes token
  exact writesLabels.bind (encodeRaw_writes [0])

variable {labels : List (List UInt8)}

theorem Tokenizer.tokens_joinLabels (tok : Tokenizer)
    (canon : ∀ label ∈ labels, CanonicalLabel label) : tok.tokens (joinLabels labels) = labels := by
  apply tok.tokens_join
  intro label mem
  exact ⟨(canon label mem).nonempty, (canon label mem).undotted⟩

def extendName (value : List UInt8) (labels : List (List UInt8)) : List UInt8 :=
  labels.foldl (fun name label => separated name ++ label) value

theorem extendName_of_ne_nil (value : List UInt8) (ne : value ≠ [])
    (labels : List (List UInt8)) : extendName value labels = [dot].intercalate (value :: labels)
    := by
  induction labels generalizing value with
  | nil => simp [extendName]
  | cons label rest ih =>
    have extended := ih (value ++ [dot] ++ label) (by simp)
    unfold extendName at extended ⊢
    rw [foldl_cons]
    unfold separated at extended ⊢
    rw [if_neg ne, extended]
    cases rest with
    | nil | cons _ _ => simp

theorem extendName_nil (ne : ∀ label ∈ labels, label ≠ []) :
    extendName [] labels = joinLabels labels := by
  cases labels with
  | nil => rfl
  | cons label rest => exact extendName_of_ne_nil label (ne label mem_cons_self) rest

theorem labelsBytes_cons (label : List UInt8) (rest : List (List UInt8)) :
    labelsBytes (label :: rest) = [ofNat label.length] ++ label ++ labelsBytes rest := by
  unfold labelsBytes characterStringBytes
  simp

theorem getElem?_of_ahead {data rest : List UInt8} {pos : Nat} {byte : UInt8}
    (ahead : Buffer.Ahead data pos (byte :: rest)) : data[pos]? = some byte := by
  obtain ⟨_, isRest⟩ := ahead
  have isHead : (data.drop pos)[0]? = some byte := by
    rw [← isRest]
    rfl
  rw [getElem?_drop, Nat.add_zero] at isHead
  exact isHead

theorem nameLoop_labels (follow : Nat -> Except Fault (List UInt8)) {data : List UInt8}
    (canon : ∀ label ∈ labels, CanonicalLabel label)
    {fuel current : Nat} (value : List UInt8) (enough : labels.length < fuel)
    (ahead : Buffer.Ahead data current (labelsBytes labels)) :
    nameLoop data follow fuel value current = {
      error := none
      value := extendName value labels
      current := current + (labelsBytes labels).length } := by
  induction labels generalizing fuel current value with
  | nil =>
    cases fuel with
    | zero => contradiction
    | succ fuel =>
      unfold nameLoop
      rw [getElem?_of_ahead ahead]
      simp [extendName, labelsBytes]
  | cons label rest ih =>
    cases fuel with
    | zero => contradiction
    | succ =>
      have isLabel := canon label mem_cons_self
      have short : label.length ≤ 63 := isLabel.short
      have pos : 0 < label.length := length_pos_iff.mpr isLabel.nonempty
      have isLength : (ofNat label.length).toNat = label.length := by
        exact Nat.mod_eq_of_lt (by omega)
      have notZero : ofNat label.length ≠ 0 := by
        intro isZero
        rw [isZero] at isLength
        simp at isLength
        omega
      rw [labelsBytes_cons, append_assoc] at ahead
      have aheadLabel := ahead.right.left
      have aheadRest := ahead.right.right
      rw [length_singleton] at aheadLabel aheadRest
      unfold nameLoop
      rw [getElem?_of_ahead ahead]
      simp only [notZero, isLength, ↓reduceIte]
      rw [if_pos isLabel.short, if_neg (Nat.not_lt.mpr aheadLabel.fits), aheadLabel.take_drop]
      rw [ih (fun other mem => canon other
        (mem_cons_of_mem _ mem)) _ (by simpa using enough) aheadRest]
      have sameCurrent : current + 1 + label.length + (labelsBytes rest).length =
          current + (labelsBytes (label :: rest)).length := by
        simp only [labelsBytes_cons, length_append, length_singleton]
        omega
      rw [sameCurrent]
      rfl

theorem length_le_labelsBytes (labels : List (List UInt8)) :
    labels.length < (labelsBytes labels).length := by
  induction labels with
  | nil => decide
  | cons =>
    simp only [labelsBytes_cons, length_append, length_cons]
    omega

theorem decodeName_reads (canon : ∀ label ∈ labels, CanonicalLabel label) :
    Reads decodeName (labelsBytes labels) (joinLabels labels) := by
  intro decoder ahead
  have enough : labels.length < decoder.data.length - decoder.current + 1 := by
    have fits := ahead.fits
    have bound := length_le_labelsBytes labels
    omega
  have looped := nameLoop_labels (decodeLabel decoder.data
    maxLabelResolutionRecursionDepth) canon [] enough ahead
  unfold decodeName decodeDomainName
  rw [looped, extendName_nil fun label mem => (canon label mem).nonempty]
  rfl

def nameSize (name : List UInt8) : Nat := if name = [] then 1 else name.length + 2

theorem labelsBytes_length (canon : ∀ label ∈ labels, CanonicalLabel label) :
    (labelsBytes labels).length = nameSize (joinLabels labels) := by
  cases labels with
  | nil => rfl
  | cons label rest =>
    have ne : joinLabels (label :: rest) ≠ [] := by
      have isLabel := (canon label mem_cons_self).nonempty
      cases rest with
      | nil => simpa [joinLabels] using isLabel
      | cons other others => simp [joinLabels]
    have lengthEq : ((label :: rest).flatMap characterStringBytes).length =
        (joinLabels (label :: rest)).length + 1 := by
      clear canon ne
      induction rest generalizing label with
      | nil => simp [joinLabels, characterStringBytes]
      | cons other _ ih =>
        have following := ih other
        unfold joinLabels at following ⊢
        rw [flatMap_cons, length_append, following, intercalate_cons_cons]
        simp only [characterStringBytes, length_append, length_cons, length_nil]
        omega
    unfold nameSize labelsBytes
    rw [if_neg ne, length_append, lengthEq]
    rfl

def softTokenizer : Tokenizer where
  tokens := fun value => (value.splitOn dot).filter fun token => token ≠ []
  tokens_join := by
    intro labels canonical
    cases labels with
    | nil => rfl
    | cons label rest =>
      unfold joinLabels
      rw [List.splitOn_intercalate dot (fun token member => (canonical token member).2) (by simp)]
      apply List.filter_eq_self.mpr
      intro token member
      simpa using (canonical token member).1

end NtfCore.Ntcdns
