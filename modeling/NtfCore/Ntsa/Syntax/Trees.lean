import NtfCore.Foundation.Run
import NtfCore.Ntsa.Syntax.Octets

/-!
Contract: trees of tagged values, from the calls of the encoder to the calls of the
decoder.

Owns: the encoding of a tree, the trees that a sequence of calls builds, that the
encoder writes the encodings of these trees, and that the decoder visits the trees
that are encoded.
-/

namespace NtfCore.Ntsa

open NtfCore.Foundation List Source
open AbstractSyntaxEncoderUtil

/-! ## Trees -/

inductive SyntaxTree where
  | node (tagClass : AbstractSyntaxTagClass) (tagType : AbstractSyntaxTagType) (tagNumber : Nat)
      (content : List UInt8) (children : List SyntaxTree)

namespace SyntaxTree

mutual

def encoding : SyntaxTree -> List UInt8
  | node tagClass tagType tagNumber content children =>
    let body := content ++ encodings children
    tagOctets tagClass tagType tagNumber ++ lengthOctets body.length ++ body

def encodings : List SyntaxTree -> List UInt8
  | [] => []
  | tree :: rest => encoding tree ++ encodings rest

end

mutual

def Bounded : SyntaxTree -> Prop
  | node _ _ tagNumber content children =>
    tagNumber ≤ 256 ∧ (content ++ encodings children).length < 2 ^ 32 ∧ AllBounded children

def AllBounded : List SyntaxTree -> Prop
  | [] => True
  | tree :: rest => Bounded tree ∧ AllBounded rest

end

mutual

def written : SyntaxTree -> List UInt8
  | node tagClass tagType tagNumber content children =>
    let body := content ++ writtenAll children
    encodeTag tagClass tagType tagNumber ++
      encodeLength body.length ++ body

def writtenAll : List SyntaxTree -> List UInt8
  | [] => []
  | tree :: rest => written tree ++ writtenAll rest

end

mutual

theorem written_eq : ∀ tree : SyntaxTree, tree.Bounded -> tree.written = tree.encoding
  | node tagClass tagType tagNumber content children, bounded => by
    obtain ⟨_, fits, allBounded⟩ := bounded
    rw [written, writtenAll_eq children allBounded, encoding, encodeTag_eq, encodeLength_eq fits]

theorem writtenAll_eq : ∀ trees : List SyntaxTree, AllBounded trees ->
    writtenAll trees = encodings trees
  | [], _ => rfl
  | tree :: rest, bounded => by
    rw [writtenAll, encodings, written_eq tree bounded.1, writtenAll_eq rest bounded.2]

end

theorem writtenAll_append (left right : List SyntaxTree) :
    writtenAll (left ++ right) = writtenAll left ++ writtenAll right := by
  induction left with
  | nil => rfl
  | cons _ _ ih => rw [cons_append, writtenAll, writtenAll, ih, append_assoc]

end SyntaxTree

/-! ## The trees that calls build -/

inductive EncoderCall where
  | encodeTag (tagClass : AbstractSyntaxTagClass) (tagType : AbstractSyntaxTagType)
      (tagNumber : Nat)
  | encodeNull
  | encodeValue (value : List UInt8)
  | encodeTagComplete

structure Construction where
  complete : List SyntaxTree := []
  opened : List SyntaxTree := []

namespace Construction

def addContent (value : List UInt8) : SyntaxTree -> SyntaxTree
  | .node tagClass tagType tagNumber content children =>
    .node tagClass tagType tagNumber (content ++ value) children

def addChild (child : SyntaxTree) : SyntaxTree -> SyntaxTree
  | .node tagClass tagType tagNumber content children =>
    .node tagClass tagType tagNumber content (children ++ [child])

def step (construction : Construction) : EncoderCall -> Option Construction
  | .encodeTag tagClass tagType tagNumber =>
    some { construction with
      opened := .node tagClass tagType tagNumber [] [] :: construction.opened }
  | .encodeNull => if construction.opened.isEmpty then none else some construction
  | .encodeValue value =>
    match construction.opened with
    | [] => none
    | tree :: outer => some { construction with opened := addContent value tree :: outer }
  | .encodeTagComplete =>
    match construction.opened with
    | [] => none
    | [tree] => some { complete := construction.complete ++ [tree], opened := [] }
    | tree :: parent :: outer => some { construction with opened := addChild tree parent :: outer }

end Construction

namespace AbstractSyntaxEncoder

def step (encoder : AbstractSyntaxEncoder) : EncoderCall -> Option AbstractSyntaxEncoder
  | .encodeTag tagClass tagType tagNumber =>
    (encoder.encodeTag tagClass tagType tagNumber).toOption
  | .encodeNull => encoder.encodeNull.toOption
  | .encodeValue value => (encoder.encodeValue value).toOption
  | .encodeTagComplete => encoder.encodeTagComplete.toOption

end AbstractSyntaxEncoder

namespace AbstractSyntaxEncoderFrame

open SyntaxTree

mutual

def tree : AbstractSyntaxEncoderFrame -> SyntaxTree
  | ⟨tagClass, tagType, tagNumber, _, _, content, children⟩ =>
    .node tagClass tagType tagNumber content (trees children)

def trees : List AbstractSyntaxEncoderFrame -> List SyntaxTree
  | [] => []
  | frame :: rest => tree frame :: trees rest

end

mutual

def Synchronized : AbstractSyntaxEncoderFrame -> Prop
  | ⟨tagClass, tagType, tagNumber, length, header, content, children⟩ =>
    header = encodeTag tagClass tagType tagNumber ++
        encodeLength (content ++ writtenAll (trees children)).length ∧
      length = (header ++ content ++ writtenAll (trees children)).length ∧
      AllSynchronized children

def AllSynchronized : List AbstractSyntaxEncoderFrame -> Prop
  | [] => True
  | frame :: rest => Synchronized frame ∧ AllSynchronized rest

end

structure Opened (frame : AbstractSyntaxEncoderFrame) : Prop where
  length : frame.length = 0
  header : frame.header = []
  children : AllSynchronized frame.children

theorem tree_eq (frame : AbstractSyntaxEncoderFrame) :
    frame.tree = .node frame.tagClass frame.tagType frame.tagNumber frame.content
      (trees frame.children) := by
  cases frame
  rfl

theorem trees_eq_map (frames : List AbstractSyntaxEncoderFrame) :
    trees frames = frames.map tree := by
  induction frames with
  | nil => rfl
  | cons _ _ ih => rw [trees, ih, map_cons]

theorem tree_push (parent child : AbstractSyntaxEncoderFrame) :
    tree { parent with children := parent.children ++ [child] } =
      Construction.addChild child.tree parent.tree := by
  rw [tree_eq parent, tree, trees_eq_map (parent.children ++ [child]), map_append,
    map_singleton, Construction.addChild, trees_eq_map]

theorem allSynchronized_append {left right : List AbstractSyntaxEncoderFrame}
    (leftSynchronized : AllSynchronized left) (rightSynchronized : AllSynchronized right) :
    AllSynchronized (left ++ right) := by
  induction left with
  | nil => exact rightSynchronized
  | cons _ _ ih => exact ⟨leftSynchronized.1, ih leftSynchronized.2⟩

theorem encodeTag_ne_nil (tagClass : AbstractSyntaxTagClass) (tagType : AbstractSyntaxTagType)
    (tagNumber : Nat) : encodeTag tagClass tagType tagNumber ≠ [] := by
  rw [encodeTag_eq, tagOctets]
  split
  · exact cons_ne_nil _ _
  · exact cons_ne_nil _ _

variable {frame : AbstractSyntaxEncoderFrame}

/-- The cached length is that of what the frame writes, and it is not zero. -/
theorem Synchronized.length_eq (synchronized : frame.Synchronized) :
    frame.length = (written frame.tree).length ∧ 0 < frame.length := by
  obtain ⟨tagClass, tagType, tagNumber, length, header, content, children⟩ := frame
  obtain ⟨isHeader, isLength, _⟩ := synchronized
  have isWritten : written (tree ⟨tagClass, tagType, tagNumber, length, header, content, children⟩) =
      header ++ content ++ writtenAll (trees children) := by
    rw [tree, written, isHeader]
    simp only [append_assoc]
  rw [isWritten, isLength]
  refine ⟨rfl, ?_⟩
  rw [length_pos_iff, isHeader]
  simp [encodeTag_ne_nil]

mutual

theorem flush_eq : ∀ frame : AbstractSyntaxEncoderFrame, frame.Synchronized ->
    frame.flush = .ok (written frame.tree)
  | ⟨tagClass, tagType, tagNumber, length, header, content, children⟩, synchronized => by
    obtain ⟨isHeader, _, below⟩ := synchronized
    have isWritten : written
        (tree ⟨tagClass, tagType, tagNumber, length, header, content, children⟩) =
          header ++ content ++ writtenAll (trees children) := by
      rw [tree, written, isHeader]
      simp only [append_assoc]
    have ne : ¬ header.length = 0 := by
      rw [length_eq_zero_iff, isHeader]
      simp [encodeTag_ne_nil]
    have isContent : (if content.length ≠ 0 then content else []) = content := by
      split
      · rfl
      · rename_i isEmpty
        exact (length_eq_zero_iff.mp (Decidable.not_not.mp isEmpty)).symm
    rw [flush, if_neg ne, isWritten, isContent, flushAll_eq children below]
    cases children with
    | nil => simp [trees, writtenAll]
    | cons => simp

theorem flushAll_eq : ∀ frames : List AbstractSyntaxEncoderFrame, AllSynchronized frames ->
    flushAll frames = .ok (writtenAll (trees frames))
  | [], _ => rfl
  | frame :: rest, synchronized => by
    rw [flushAll, flush_eq frame synchronized.1, flushAll_eq rest synchronized.2, trees, writtenAll]
    rfl

end

/-- A frame is synchronized once: its length is cached. -/
theorem synchronize_synchronized (synchronized : frame.Synchronized) :
    frame.synchronize = frame := by
  have pos := synchronized.length_eq.2
  obtain ⟨_, _, _, _, _, _, _⟩ := frame
  rw [synchronize, if_pos pos]

theorem synchronizeAll_synchronized {frames : List AbstractSyntaxEncoderFrame}
    (synchronized : AllSynchronized frames) : synchronizeAll frames = frames ∧
      (frames.map (·.length)).sum = (writtenAll (trees frames)).length := by
  induction frames with
  | nil => exact ⟨rfl, rfl⟩
  | cons _ _ ih =>
    obtain ⟨same, isSum⟩ := ih synchronized.2
    refine ⟨by rw [synchronizeAll, synchronize_synchronized synchronized.1, same], ?_⟩
    rw [map_cons, sum_cons, isSum, trees, writtenAll, length_append, synchronized.1.length_eq.1]

/-- Synchronizing an open frame gives it the header and the length of its tree. -/
theorem Opened.synchronize (opened : frame.Opened) :
    frame.synchronize.Synchronized ∧ frame.synchronize.tree = frame.tree := by
  obtain ⟨_, _, _, _, _, content, children⟩ := frame
  obtain ⟨isLength, isHeader, below⟩ := opened
  dsimp only at isLength isHeader below
  obtain ⟨same, isSum⟩ := synchronizeAll_synchronized below
  have contentLength : (if children.isEmpty then content.length
        else (if content.length ≠ 0 then content.length else 0) + (children.map (·.length)).sum) =
      (content ++ writtenAll (trees children)).length := by
    have isContent : (if content.length ≠ 0 then content.length else 0) = content.length := by
      split
      · rfl
      · omega
    rw [isContent, isSum, length_append]
    cases children with
    | nil | cons _ _ => rfl
  rw [AbstractSyntaxEncoderFrame.synchronize, if_neg (by omega), same]
  dsimp only
  rw [contentLength, complete, isHeader]
  refine ⟨⟨?_, ?_, below⟩, rfl⟩
  · rfl
  · simp only [length_append, nil_append]
    omega

end AbstractSyntaxEncoderFrame

namespace AbstractSyntaxEncoder

open AbstractSyntaxEncoderFrame SyntaxTree

structure Builds (encoder : AbstractSyntaxEncoder) (construction : Construction) : Prop where
  written : encoder.buffer = writtenAll construction.complete
  opened : construction.opened = encoder.frames.map tree
  frames : ∀ frame ∈ encoder.frames, frame.Opened

variable {encoder : AbstractSyntaxEncoder}

/-- A call succeeds for the encoder when it has a meaning for the trees. -/
theorem step_builds {construction next : Construction}
    {call : EncoderCall} (builds : encoder.Builds construction)
    (taken : construction.step call = some next) :
    ∃ encoder', encoder.step call = some encoder' ∧ encoder'.Builds next := by
  obtain ⟨buffer, frames⟩ := encoder
  obtain ⟨_, _⟩ := construction
  obtain ⟨isWritten, isOpened, allOpened⟩ := builds
  dsimp only at isWritten isOpened allOpened
  cases call with
  | encodeTag =>
    cases taken
    refine ⟨_, rfl, isWritten, ?_, ?_⟩
    · rw [isOpened]
      rfl
    · exact forall_mem_cons.mpr ⟨⟨rfl, rfl, trivial⟩, allOpened⟩
  | encodeNull =>
    unfold Construction.step at taken
    dsimp only at taken
    split at taken
    · contradiction
    · rename_i ne
      cases taken
      refine ⟨⟨buffer, frames⟩, ?_, isWritten, isOpened, allOpened⟩
      rw [isOpened, isEmpty_map] at ne
      unfold step encodeNull
      rw [if_neg ne]
      rfl
  | encodeValue =>
    cases frames with
    | nil =>
      rw [isOpened] at taken
      contradiction
    | cons current parents =>
      rw [isOpened] at taken
      cases taken
      obtain ⟨currentOpened, parentsOpened⟩ := forall_mem_cons.mp allOpened
      refine ⟨_, rfl, isWritten, ?_, ?_⟩
      · dsimp only
        rw [map_cons, tree_eq current, tree]
        rfl
      · refine forall_mem_cons.mpr ⟨?_, parentsOpened⟩
        exact ⟨currentOpened.length, currentOpened.header, currentOpened.children⟩
  | encodeTagComplete =>
    cases frames with
    | nil =>
      rw [isOpened] at taken
      contradiction
    | cons current parents =>
      obtain ⟨currentOpened, parentsOpened⟩ := forall_mem_cons.mp allOpened
      obtain ⟨synchronized, sameTree⟩ := currentOpened.synchronize
      rw [isOpened] at taken
      cases parents with
      | nil =>
        cases taken
        refine ⟨⟨buffer ++ written current.tree, []⟩, ?_, ?_, rfl, nofun⟩
        · unfold step encodeTagComplete
          dsimp only
          rw [flush_eq _ synchronized, sameTree]
          rfl
        · dsimp only
          rw [writtenAll_append, isWritten]
          simp [writtenAll]
      | cons =>
        cases taken
        obtain ⟨parentOpened, ancestorsOpened⟩ := forall_mem_cons.mp parentsOpened
        refine ⟨_, rfl, isWritten, ?_, ?_⟩
        · dsimp only
          rw [map_cons, tree_push, sameTree]
        · refine forall_mem_cons.mpr ⟨?_, ancestorsOpened⟩
          refine ⟨parentOpened.length, parentOpened.header, ?_⟩
          exact allSynchronized_append parentOpened.children ⟨synchronized, trivial⟩

/-- Every sequence of calls that builds trees is accepted, and writes them. -/
theorem run_builds {construction final : Construction}
    {calls : List EncoderCall} (builds : encoder.Builds construction)
    (taken : Run.run Construction.step construction calls = some final) :
    ∃ encoder', Run.run step encoder calls = some encoder' ∧ encoder'.Builds final := by
  induction calls generalizing encoder construction with
  | nil =>
    cases taken
    exact ⟨encoder, rfl, builds⟩
  | cons call _ ih =>
    rw [Run.run] at taken
    cases stepped : construction.step call with
    | none =>
      rw [stepped] at taken
      contradiction
    | some =>
      rw [stepped] at taken
      obtain ⟨_, isStep, builds'⟩ := step_builds builds stepped
      obtain ⟨last, isRun, builds''⟩ := ih builds' taken
      exact ⟨last, by rw [Run.run_cons_of_step isStep, isRun], builds''⟩

end AbstractSyntaxEncoder

/-! ## The visit of a tree -/

inductive DecoderCall where
  | decodeTag (tagClass : AbstractSyntaxTagClass) (tagType : AbstractSyntaxTagType)
      (tagNumber : Nat)
  | decodeByte
  | decodeValue
  | decodeTagComplete

inductive Sight where
  | tag (frame : AbstractSyntaxDecoderFrame)
  | content (bytes : List UInt8)
  | complete (position : Nat)

namespace AbstractSyntaxDecoder

def call (decoder : AbstractSyntaxDecoder) :
    DecoderCall -> Except Error (Sight × AbstractSyntaxDecoder)
  | .decodeTag tagClass tagType tagNumber => do
    let decoder ← decoder.decodeTagOf tagClass tagType tagNumber
    pure (.tag decoder.current, decoder)
  | .decodeByte => do
    let (byte, decoder) ← decoder.decodeByte
    pure (.content [byte], decoder)
  | .decodeValue => do
    let (bytes, decoder) ← decoder.decodeValue
    pure (.content bytes, decoder)
  | .decodeTagComplete => do
    let decoder ← decoder.decodeTagComplete
    pure (.complete decoder.source.position, decoder)

def drive : AbstractSyntaxDecoder -> List DecoderCall ->
    Except Error (List Sight × AbstractSyntaxDecoder)
  | decoder, [] => .ok ([], decoder)
  | decoder, next :: rest => do
    let (sight, decoder) ← decoder.call next
    let (sights, decoder) ← decoder.drive rest
    pure (sight :: sights, decoder)

end AbstractSyntaxDecoder

namespace SyntaxTree

mutual

/-- The calls that mirror those of the encoder. The content of a value without others
in it is decoded at once, and byte by byte otherwise. -/
def mirror : SyntaxTree -> List DecoderCall
  | node tagClass tagType tagNumber content children =>
    .decodeTag tagClass tagType tagNumber ::
      (if children.isEmpty then [.decodeValue] else content.map fun _ => .decodeByte) ++
      mirrors children ++ [.decodeTagComplete]

def mirrors : List SyntaxTree -> List DecoderCall
  | [] => []
  | tree :: rest => mirror tree ++ mirrors rest

end

mutual

/-- What the calls show of a tree that is encoded at a position: its tag with the
extent of the content, the content, the children, and the end. -/
def sights (position : Nat) : SyntaxTree -> List Sight
  | node tagClass tagType tagNumber content children =>
    let body := content ++ encodings children
    let tagLength :=
      (tagOctets tagClass tagType tagNumber).length + (lengthOctets body.length).length
    .tag
        { tagClass := tagClass, tagType := tagType, tagNumber := tagNumber,
          tagPosition := position, tagLength := tagLength,
          contentPosition := position + tagLength, contentLength := some body.length } ::
      (if children.isEmpty then [.content content] else content.map fun byte => .content [byte]) ++
      allSights (position + tagLength + content.length) children ++
      [.complete (position + tagLength + body.length)]

def allSights (position : Nat) : List SyntaxTree -> List Sight
  | [] => []
  | tree :: rest =>
    sights position tree ++ allSights (position + (encoding tree).length) rest

end

end SyntaxTree

namespace AbstractSyntaxDecoder

open SyntaxTree AbstractSyntaxDecoderUtil

variable {decoder middle last : AbstractSyntaxDecoder}

theorem drive_cons {next : DecoderCall}
    {rest : List DecoderCall} {sight : Sight} {later : List Sight}
    (called : decoder.call next = .ok (sight, middle))
    (driven : middle.drive rest = .ok (later, last)) :
    decoder.drive (next :: rest) = .ok (sight :: later, last) := by
  rw [drive, called, ok_bind]
  dsimp only
  rw [driven]
  rfl

theorem drive_append {left right : List DecoderCall} {leftSights rightSights : List Sight}
    (leftDriven : decoder.drive left = .ok (leftSights, middle))
    (rightDriven : middle.drive right = .ok (rightSights, last)) :
    decoder.drive (left ++ right) = .ok (leftSights ++ rightSights, last) := by
  induction left generalizing decoder leftSights with
  | nil =>
    injection leftDriven with isPair
    injection isPair with isSights isMiddle
    rw [← isSights, isMiddle]
    exact rightDriven
  | cons next rest ih =>
    rw [drive] at leftDriven
    cases called : decoder.call next with
    | error fault =>
      rw [called] at leftDriven
      contradiction
    | ok result =>
      rw [called, ok_bind] at leftDriven
      dsimp only at leftDriven
      cases driven : result.2.drive rest with
      | error =>
        rw [driven] at leftDriven
        contradiction
      | ok =>
        rw [driven, ok_bind] at leftDriven
        injection leftDriven with isPair
        injection isPair with isSights isMiddle
        rw [← isSights]
        refine drive_cons called (ih ?_)
        rw [driven, ← isMiddle]

/-! ### Content -/

variable {source : Source} {content later : List UInt8}

theorem drive_bytes {contexts : List AbstractSyntaxDecoderFrame}
    (isRest : source.rest = content ++ later) :
    drive ⟨source, contexts⟩ (content.map fun _ => .decodeByte) =
      .ok (content.map fun byte => .content [byte], ⟨source.advance content.length, contexts⟩) := by
  induction content generalizing source with
  | nil => rfl
  | cons byte _ ih =>
    obtain ⟨isRead, isLater⟩ := read_eq isRest
    have called : call ⟨source, contexts⟩ .decodeByte =
        .ok (.content [byte], ⟨source.advance 1, contexts⟩) := by
      rw [call, decodeByte]
      rw [isRead]
      rfl
    have driven := drive_cons called (ih isLater)
    rw [advance_advance, Nat.add_comm 1] at driven
    exact driven

variable {frame : AbstractSyntaxDecoderFrame}

section

variable (contexts : List AbstractSyntaxDecoderFrame)

theorem call_decodeValue (isRest : source.rest = content ++ later)
    (isLength : frame.contentLength = some content.length) :
    call ⟨source, frame :: contexts⟩ .decodeValue =
      .ok (.content content, ⟨source.advance content.length, frame :: contexts⟩) := by
  have isRead := readBytes_eq isRest
  rw [call, decodeValue, if_neg (by simp)]
  have isCurrent : current ⟨source, frame :: contexts⟩ = frame := rfl
  rw [isCurrent, isLength]
  cases content with
  | nil => rfl
  | cons =>
    rw [length_cons] at isRead ⊢
    dsimp only
    rw [isRead]
    rfl

theorem call_decodeTagComplete {length : Nat} (isLength : frame.contentLength = some length)
    (atEnd : source.position = frame.contentPosition + length) :
    call ⟨source, frame :: contexts⟩ .decodeTagComplete =
      .ok (.complete source.position, ⟨source, contexts⟩) := by
  have skipped : skip ⟨source, frame :: contexts⟩ = .ok ⟨source, frame :: contexts⟩ := by
    have isCurrent : current ⟨source, frame :: contexts⟩ = frame := rfl
    rw [skip, if_neg (by simp), isCurrent, isLength]
    dsimp only
    rw [if_neg (by omega), if_neg (by omega)]
  rw [call, decodeTagComplete, if_neg (by simp), skipped]
  rfl

theorem call_decodeTag {tagClass : AbstractSyntaxTagClass} {tagType : AbstractSyntaxTagType}
    {tagNumber length : Nat} {later : List UInt8} (valid : tagNumber ≤ 256) (fits : length < 2 ^ 32)
    (isRest : source.rest = tagOctets tagClass tagType tagNumber ++ (lengthOctets length ++ later)) :
    let tagLength := (tagOctets tagClass tagType tagNumber).length + (lengthOctets length).length
    let frame : AbstractSyntaxDecoderFrame :=
      { tagClass := tagClass, tagType := tagType, tagNumber := tagNumber,
        tagPosition := source.position, tagLength := tagLength,
        contentPosition := source.position + tagLength, contentLength := some length }
    call ⟨source, contexts⟩ (.decodeTag tagClass tagType tagNumber) =
      .ok (.tag frame, ⟨source.advance tagLength, frame :: contexts⟩) := by
  intro tagLength frame
  have isTag := decodeTag_eq valid isRest
  have isLength := decodeLength_eq fits (rest_advance isRest)
  have decoded : decodeTag ⟨source, contexts⟩ =
      .ok ⟨source.advance tagLength, frame :: contexts⟩ := by
    rw [decodeTag]
    rw [isTag, ok_bind]
    dsimp only
    rw [isLength, ok_bind, advance_advance, pure_eq_ok]
    simp only [advance_position, Nat.add_sub_cancel_left]
    rfl
  rw [call, decodeTagOf, decoded, ok_bind, if_neg (fun differ => differ rfl),
    if_neg (fun differ => differ rfl), if_neg (fun differ => differ rfl)]
  rfl

/-- The content of a tag, whether or not there are children behind it. -/
theorem drive_content {children : List SyntaxTree} (isRest : source.rest = content ++ later)
    (isLength : frame.contentLength = some (content ++ encodings children).length) :
    drive ⟨source, frame :: contexts⟩
        (if children.isEmpty then [.decodeValue] else content.map fun _ => .decodeByte) =
      .ok (if children.isEmpty then [.content content] else content.map fun byte => .content [byte],
        ⟨source.advance content.length, frame :: contexts⟩) := by
  cases children with
  | nil =>
    rw [encodings, append_nil] at isLength
    exact drive_cons (call_decodeValue contexts isRest isLength) rfl
  | cons => exact drive_bytes isRest

end

/-! ### Whole trees -/

mutual

theorem drive_mirror : ∀ (tree : SyntaxTree) (source : Source)
    (contexts : List AbstractSyntaxDecoderFrame) (later : List UInt8), tree.Bounded ->
    source.rest = tree.encoding ++ later -> drive ⟨source, contexts⟩ tree.mirror =
      .ok (tree.sights source.position, ⟨source.advance tree.encoding.length, contexts⟩)
  | node tagClass tagType tagNumber content children, source, contexts, later, bounded, isRest => by
    obtain ⟨valid, fits, allBounded⟩ := bounded
    rw [encoding] at isRest ⊢
    simp only [append_assoc] at isRest
    have tagged := call_decodeTag contexts valid fits isRest
    have behind := rest_advance (rest_advance isRest)
    have isTotal : (tagOctets tagClass tagType tagNumber ++
        lengthOctets (content ++ encodings children).length ++
          (content ++ encodings children)).length =
        (tagOctets tagClass tagType tagNumber).length +
          (lengthOctets (content ++ encodings children).length).length +
          (content ++ encodings children).length := by
      rw [length_append, length_append]
    rw [advance_advance] at behind
    rw [mirror, sights, isTotal]
    dsimp only at tagged ⊢
    -- Only the sum of the lengths of tag and length matters from here on.
    generalize (tagOctets tagClass tagType tagNumber).length +
      (lengthOctets (content ++ encodings children).length).length = tagLength at tagged behind ⊢
    generalize isFrame : AbstractSyntaxDecoderFrame.mk tagClass tagType tagNumber source.position
      tagLength (source.position + tagLength) (some (content ++ encodings children).length) =
        frame at tagged ⊢
    have isLength : frame.contentLength = some (content ++ encodings children).length := by
      rw [← isFrame]
    have isStart : frame.contentPosition = source.position + tagLength := by rw [← isFrame]
    have isEnd : tagLength + content.length + (encodings children).length =
        tagLength + (content ++ encodings children).length := by rw [length_append, Nat.add_assoc]
    have seen := drive_content contexts behind isLength
    have below := drive_mirrors children _ (frame :: contexts) later allBounded
      (rest_advance behind)
    rw [advance_advance] at seen below
    rw [advance_advance, isEnd, advance_position, ← Nat.add_assoc] at below
    have atEnd : (source.advance (tagLength + (content ++ encodings children).length)).position =
        frame.contentPosition + (content ++ encodings children).length := by
      rw [isStart, advance_position, Nat.add_assoc]
    have completed := call_decodeTagComplete contexts isLength atEnd
    rw [advance_position, ← Nat.add_assoc] at completed
    exact drive_cons tagged (drive_append (drive_append seen below) (drive_cons completed rfl))

theorem drive_mirrors : ∀ (trees : List SyntaxTree) (source : Source)
    (contexts : List AbstractSyntaxDecoderFrame) (later : List UInt8), AllBounded trees ->
    source.rest = encodings trees ++ later -> drive ⟨source, contexts⟩ (mirrors trees) =
      .ok (allSights source.position trees, ⟨source.advance (encodings trees).length, contexts⟩)
  | [], source, contexts, later, _, _ => rfl
  | tree :: rest, source, contexts, later, bounded, isRest => by
    rw [encodings, append_assoc] at isRest
    have first := drive_mirror tree source contexts _ bounded.1 isRest
    have others := drive_mirrors rest (source.advance tree.encoding.length) contexts later
      bounded.2 (rest_advance isRest)
    have both := drive_append first others
    rw [advance_advance, advance_position, ← length_append] at both
    exact both

end

end AbstractSyntaxDecoder

namespace SyntaxTree

theorem allBounded_iff (trees : List SyntaxTree) :
    AllBounded trees ↔ ∀ tree ∈ trees, tree.Bounded := by
  induction trees with
  | nil => simp [AllBounded]
  | cons _ _ ih => rw [AllBounded, ih, forall_mem_cons]

/-- Every sequence of calls that builds trees makes the encoder write their encodings,
one after another; wherever these stand, the mirrored calls of the decoder see the
same trees, and end behind each of them. -/
theorem trees_encoded_and_visited (calls : List EncoderCall) (construction : Construction)
    (built : Run.run Construction.step {} calls = some construction)
    (bounded : ∀ tree ∈ construction.complete, tree.Bounded) :
    ∃ encoder, Run.run AbstractSyntaxEncoder.step {} calls = some encoder ∧
      encoder.buffer = encodings construction.complete ∧ ∀ before after contexts,
        AbstractSyntaxDecoder.drive ⟨⟨before ++ encoder.buffer ++ after, before.length⟩, contexts⟩
            (mirrors construction.complete) = .ok (allSights before.length construction.complete,
            ⟨⟨before ++ encoder.buffer ++ after, before.length + encoder.buffer.length⟩,
              contexts⟩) := by
  have allBounded := (allBounded_iff _).mpr bounded
  have start : AbstractSyntaxEncoder.Builds {} {} := ⟨rfl, rfl, nofun⟩
  obtain ⟨encoder, isRun, builds⟩ := AbstractSyntaxEncoder.run_builds start built
  have isBuffer : encoder.buffer = encodings construction.complete := by
    rw [builds.written, writtenAll_eq _ allBounded]
  refine ⟨encoder, isRun, isBuffer, ?_⟩
  intro _ after contexts
  rw [isBuffer]
  refine AbstractSyntaxDecoder.drive_mirrors _ _ contexts after allBounded ?_
  rw [rest, append_assoc, drop_left]

def sampleCalls : List EncoderCall :=
  [.encodeTag .universal .constructed 16, .encodeTag .universal .primitive 2, .encodeValue [5],
    .encodeTagComplete, .encodeTag .private' .primitive 200, .encodeTagComplete,
    .encodeTagComplete]

theorem sample_encoded_and_visited :
    ∃ encoder, Run.run AbstractSyntaxEncoder.step {} sampleCalls = some encoder ∧
      encoder.buffer = [0x30, 0x07, 0x02, 0x01, 0x05, 0xDF, 0x81, 0x48, 0x00] := by
  have leaf : ∀ tagClass tagType tagNumber content, tagNumber ≤ 256 -> content.length < 2 ^ 32 ->
      Bounded (.node tagClass tagType tagNumber content []) := by
    intro _ _ _ _ valid fits
    rw [Bounded, encodings, append_nil]
    exact ⟨valid, fits, trivial⟩
  have integer : encoding (.node .universal .primitive 2 [5] []) = [0x02, 0x01, 0x05] := by
    simp [encoding, encodings, tagOctets, lengthOctets, AbstractSyntaxTagClass.value,
      AbstractSyntaxTagType.value]
  have long : encoding (.node .private' .primitive 200 [] []) = [0xDF, 0x81, 0x48, 0x00] := by
    simp [encoding, encodings, tagOctets, lengthOctets, septets, AbstractSyntaxTagClass.value,
      AbstractSyntaxTagType.value]
  obtain ⟨encoder, isRun, isBuffer, _⟩ := trees_encoded_and_visited sampleCalls
    ⟨[.node .universal .constructed 16 []
      [.node .universal .primitive 2 [5] [], .node .private' .primitive 200 [] []]], []⟩ rfl (by
    intro _ mem
    rw [mem_singleton.mp mem, Bounded, encodings, encodings, encodings, integer, long]
    refine ⟨by decide, by decide, ?_, ?_, trivial⟩
    · exact leaf _ _ _ _ (by decide) (by decide)
    · exact leaf _ _ _ _ (by decide) (by decide))
  refine ⟨encoder, isRun, isBuffer.trans ?_⟩
  rfl

end SyntaxTree

end NtfCore.Ntsa
