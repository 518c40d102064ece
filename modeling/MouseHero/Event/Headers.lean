import MouseHero.Event.Malformed
import MouseHero.Mpack.Integers

/-!
# Accepted headers

Which bytes `ya_parse_event_header` accepts and what it makes of their four
integers.  The uid and the index keep their 32 bits, the type and the direction
keep the low eight of theirs.
-/

namespace MouseHero

open FaultM BigEndian MessagePack

/-! ## The header as a format -/

/-- The elements of the array, before they are narrowed. -/
structure HeaderWords where
  uid : Int32
  type : Int32
  direction : Int32
  index : Int32
  deriving DecidableEq, Repr

/-- The header that the parser makes of them. -/
def HeaderWords.header (words : HeaderWords) : YAEventHeader where
  type := byteOfInt32 words.type
  direction := byteOfInt32 words.direction
  index := words.index.toUInt32
  uid := words.uid.toUInt32

/-- `bytes` is an array of the four words. -/
inductive HeaderWords.Encoding : HeaderWords → List UInt8 → Prop
  | array (words : HeaderWords) (array uid type direction index : List UInt8) :
      ArrayHeader 4 array →
      I32Encoding words.uid uid →
      I32Encoding words.type type →
      I32Encoding words.direction direction →
      I32Encoding words.index index →
      Encoding words (array ++ (uid ++ (type ++ (direction ++ index))))

/-- What `ya_parse_event_header` reads. -/
def headerFormat : Format UInt8 YAEventHeader :=
  (Format.part ArrayHeader 0).bind fun count =>
    (Format.check (count = 4)).bind fun _ =>
      (Format.part I32Encoding 0).bind fun uid =>
        (Format.part I32Encoding 0).bind fun type =>
          (Format.part I32Encoding 0).bind fun direction =>
            (Format.part I32Encoding 0).bind fun index =>
              Format.nothing
                (HeaderWords.header { uid, type, direction, index })

private theorem readEventHeader_parses : Parses readEventHeader headerFormat := by
  apply parses_bind mpackExpectArray_parses
  intro count
  refine parses_check (by decide) ?_
  apply parses_bind mpackExpectI32_parses
  intro uid
  apply parses_bind mpackExpectI32_parses
  intro type
  apply parses_bind mpackExpectI32_parses
  intro direction
  apply parses_bind mpackExpectI32_parses
  intro index
  exact parses_nothing _

private theorem headerFormat_whole {header : YAEventHeader} {front : List UInt8}
    (whole : headerFormat.whole header front) :
    ∃ words : HeaderWords, words.Encoding front ∧ header = words.header := by
  obtain ⟨count, array, _, isArray,
    ⟨_, _, _, ⟨rfl, rfl⟩,
      ⟨uid, uidBytes, _, isUid,
        ⟨type, typeBytes, _, isType,
          ⟨direction, directionBytes, _, isDirection,
            ⟨index, indexBytes, _, isIndex, ⟨rfl, rfl⟩, rfl⟩, rfl⟩, rfl⟩, rfl⟩,
      rfl⟩, rfl⟩ := whole
  refine ⟨{ uid, type, direction, index }, ?_, rfl⟩
  rw [List.append_nil, List.nil_append]
  exact .array _ array uidBytes typeBytes directionBytes indexBytes isArray isUid
    isType isDirection isIndex

/-- An accepted header is the one made of the words in front. -/
theorem yaParseEventHeader_words {buf : List UInt8} {length : UInt32}
    {header : YAEventHeader}
    (accepted : yaParseEventHeader buf length = .ok (some header)) :
    ∃ (words : HeaderWords) (front rest : List UInt8),
      words.Encoding front ∧ buf.take length.toNat = front ++ rest ∧
        header = words.header := by
  unfold yaParseEventHeader at accepted
  split at accepted
  · cases accepted
  rename_i enough
  split at accepted
  · cases accepted
  rename_i data pulled
  have isData : data = buf.take length.toNat := by
    unfold evbufferPullup at pulled
    have nonnegative : ¬ (length.toNat : Int) < 0 := by omega
    simp only [if_neg nonnegative, Int.toNat_natCast] at pulled
    split at pulled
    · cases pulled
    · exact (Option.some.inj pulled).symm
  have isFresh : mpackReaderInitData data length.toNat = fresh data := by
    have count : data.length = length.toNat := by
      rw [isData, List.length_take]
      omega
    rw [fresh, count]
  rw [isFresh] at accepted
  rcases readEventHeader_parses.total data with
    ⟨read, front, rest, whole, split⟩ | ⟨read, broken⟩
  · rw [split, readEventHeader_parses.whole read front rest whole] at accepted
    simp only at accepted
    have isOk : (fresh rest).error = .ok := rfl
    rw [isOk, if_neg (by simp)] at accepted
    cases accepted
    obtain ⟨words, encoding, isHeader⟩ := headerFormat_whole whole
    exact ⟨words, front, rest, encoding, by rw [← isData, split], isHeader⟩
  · obtain ⟨after, failed, returned⟩ :=
      readEventHeader_parses.broken read data broken
    have isError : after.error ≠ .ok := failed
    rw [returned] at accepted
    simp only at accepted
    rw [if_pos isError] at accepted
    cases accepted

/-! ## Narrowing -/

/-- The value of an `int32_t` as a `uint32_t`. -/
theorem toNat_toUInt32 (value : Int32) :
    (value.toUInt32.toNat : Int) = value.toInt % 2 ^ 32 := by
  have same : value.toInt = (value.toUInt32.toNat : Int).bmod (2 ^ 32) := by
    rw [← toInt_toInt32_eq_bmod, Int32.toInt32_toUInt32]
  have bound := value.toUInt32.toNat_lt
  rw [same]
  simp only [Int.bmod]
  omega

/-- The low byte of an `int32_t`. -/
theorem toNat_byteOfInt32 (value : Int32) :
    ((byteOfInt32 value).toNat : Int) = value.toInt % 2 ^ 8 := by
  have word := toNat_toUInt32 value
  have low :
      (byteOfInt32 value).toNat = value.toUInt32.toNat % 2 ^ 8 := by
    simp [byteOfInt32]
  rw [low]
  omega

/-- The type and the direction are values of a byte. -/
def HeaderWords.InBytes (words : HeaderWords) : Prop :=
  (0 ≤ words.type.toInt ∧ words.type.toInt < 256) ∧
    0 ≤ words.direction.toInt ∧ words.direction.toInt < 256

/-- The header holds the integers of the array: the uid and the index as words,
the type and the direction as they are. -/
structure Faithful (words : HeaderWords) (header : YAEventHeader) : Prop where
  uid : (header.uid.toNat : Int) = words.uid.toInt % 2 ^ 32
  type : (header.type.toNat : Int) = words.type.toInt
  direction : (header.direction.toNat : Int) = words.direction.toInt
  index : (header.index.toNat : Int) = words.index.toInt % 2 ^ 32

private theorem faithful_iff (words : HeaderWords) :
    Faithful words words.header ↔ words.InBytes := by
  have type := toNat_byteOfInt32 words.type
  have direction := toNat_byteOfInt32 words.direction
  constructor
  · intro faithful
    have sameType := faithful.type
    have sameDirection := faithful.direction
    simp only [HeaderWords.header] at sameType sameDirection
    rw [HeaderWords.InBytes]
    omega
  · rintro ⟨⟨lowType, highType⟩, lowDirection, highDirection⟩
    refine ⟨toNat_toUInt32 _, ?_, ?_, toNat_toUInt32 _⟩
    · simp only [HeaderWords.header]
      omega
    · simp only [HeaderWords.header]
      omega

/-- Faithful headers of different types or directions are different. -/
theorem Faithful.injective {first second : HeaderWords}
    {header other : YAEventHeader} (isFirst : Faithful first header)
    (isSecond : Faithful second other)
    (same : header.type = other.type ∧ header.direction = other.direction) :
    first.type = second.type ∧ first.direction = second.direction := by
  refine ⟨Int32.toInt_inj.mp ?_, Int32.toInt_inj.mp ?_⟩
  · rw [← isFirst.type, ← isSecond.type, same.1]
  · rw [← isFirst.direction, ← isSecond.direction, same.2]

/-! ## The words in front -/

/-- Two readings of the same data deliver the same value and leave the same
bytes. -/
theorem reads_unique {Result : Type} {computation : ReaderM Result}
    {first second : Result} {front other rest more : List UInt8}
    (isFirst : Reads computation first front)
    (isSecond : Reads computation second other)
    (same : front ++ rest = other ++ more) :
    first = second ∧ rest = more := by
  have outcome := isFirst.fresh rest
  rw [same, isSecond.fresh more] at outcome
  obtain ⟨values, readers⟩ := Prod.mk.inj outcome
  exact ⟨(Except.ok.inj values).symm,
    (congrArg MpackReader.data readers).symm⟩

private theorem i32Encoding_reads {value : Int32} {bytes : List UInt8}
    (encoding : I32Encoding value bytes) :
    Reads mpackExpectI32 value bytes :=
  mpackExpectI32_reads encoding

/-- The data begins with an array of the words. -/
def HeaderWords.InFront (words : HeaderWords) (data : List UInt8) : Prop :=
  ∃ front rest, words.Encoding front ∧ data = front ++ rest

theorem HeaderWords.InFront.unique {first second : HeaderWords}
    {data : List UInt8} (isFirst : first.InFront data)
    (isSecond : second.InFront data) : first = second := by
  obtain ⟨front, rest, encoding, rfl⟩ := isFirst
  obtain ⟨other, more, otherEncoding, same⟩ := isSecond
  cases encoding with
  | array array uid type direction index isArray isUid isType isDirection
      isIndex =>
      cases otherEncoding with
      | array array' uid' type' direction' index' isArray' isUid' isType'
          isDirection' isIndex' =>
          simp only [List.append_assoc] at same
          have afterArray :=
            (reads_unique (mpackExpectArray_header isArray)
              (mpackExpectArray_header isArray') same).2
          obtain ⟨sameUid, afterUid⟩ :=
            reads_unique (i32Encoding_reads isUid) (i32Encoding_reads isUid')
              afterArray
          obtain ⟨sameType, afterType⟩ :=
            reads_unique (i32Encoding_reads isType)
              (i32Encoding_reads isType') afterUid
          obtain ⟨sameDirection, afterDirection⟩ :=
            reads_unique (i32Encoding_reads isDirection)
              (i32Encoding_reads isDirection') afterType
          have sameIndex :=
            (reads_unique (i32Encoding_reads isIndex)
              (i32Encoding_reads isIndex') afterDirection).1
          cases first
          cases second
          simp only at sameUid sameType sameDirection sameIndex
          rw [sameUid, sameType, sameDirection, sameIndex]

/-- Every accepted header begins with an array of four signed words, and holds
them faithfully if and only if the type and the direction fit into a byte. -/
theorem yaParseEventHeader_faithful_iff {buf : List UInt8} {length : UInt32}
    {header : YAEventHeader}
    (accepted : yaParseEventHeader buf length = .ok (some header)) :
    ∃ words : HeaderWords,
      words.InFront (buf.take length.toNat) ∧
        (∀ other : HeaderWords,
          other.InFront (buf.take length.toNat) → other = words) ∧
        (Faithful words header ↔ words.InBytes) := by
  obtain ⟨words, front, rest, encoding, split, rfl⟩ :=
    yaParseEventHeader_words accepted
  have inFront : words.InFront (buf.take length.toNat) :=
    ⟨front, rest, encoding, split⟩
  exact ⟨words, inFront, fun other isOther => isOther.unique inFront,
    faithful_iff words⟩

/-- The header of a click. -/
theorem yaParseEventHeader_faithful_iff_click :
    ∃ words : HeaderWords,
      words.InFront ([0x94, 1, 2, 1, 1].take 5) ∧
        (∀ other : HeaderWords,
          other.InFront ([0x94, 1, 2, 1, 1].take 5) → other = words) ∧
        (Faithful words clickHeader ↔ words.InBytes) := by
  have accepted :
      yaParseEventHeader [0x94, 1, 2, 1, 1] 5 = .ok (some clickHeader) := by
    rfl
  exact yaParseEventHeader_faithful_iff accepted

/-- The words of a header with the type 258. -/
def aliasedWords : HeaderWords where
  uid := 1
  type := 258
  direction := 1
  index := 1

private theorem aliasedWords_encoding :
    aliasedWords.Encoding [0x94, 1, 0xcd, 1, 2, 1, 1] := by
  have one : I32Encoding 1 [1] := IntEncoding.positiveFixint 1 (by decide)
  have type : I32Encoding 258 [0xcd, 1, 2] :=
    IntEncoding.unsigned 0xcd 2 258 (by decide) (by decide)
  exact .array aliasedWords [0x94] [1] [0xcd, 1, 2] [1] [1]
    (.fixarray 4 (by decide)) one type one one

/-- The type 258 is taken for a click, which has the type 2. -/
theorem yaParseEventHeader_aliases :
    yaParseEventHeader [0x94, 1, 2, 1, 1] 5 = .ok (some clickHeader) ∧
      yaParseEventHeader [0x94, 1, 0xcd, 1, 2, 1, 1] 7 =
        .ok (some clickHeader) ∧
      aliasedWords.InFront [0x94, 1, 0xcd, 1, 2, 1, 1] ∧
      ¬ ∃ words : HeaderWords,
        words.InFront [0x94, 1, 0xcd, 1, 2, 1, 1] ∧
          Faithful words clickHeader := by
  have inFront : aliasedWords.InFront [0x94, 1, 0xcd, 1, 2, 1, 1] :=
    ⟨_, [], aliasedWords_encoding, rfl⟩
  refine ⟨by rfl, by rfl, inFront, ?_⟩
  rintro ⟨words, isFront, faithful⟩
  rw [isFront.unique inFront] at faithful
  have type := faithful.type
  revert type
  decide

/-! ## Written headers -/

section Written

variable {F : Type} [CFloat F]

/-- The header that has been written in front of an event is read back if and
only if the uid and the index are not negative as signed words. -/
theorem serializedHeader_readsBack_iff {event : YAEvent F} {type : YAEventType}
    {frame : List UInt8} (kind : event.header.type = type.code)
    (directed :
      event.header.direction = REQUEST ∨ event.header.direction = RESPONSE)
    (serialized :
      yaSerializeEvent event =
        .ok { length := frame.length, out := some frame }) :
    yaParseEventHeader (evbufferDrain frame 8)
          (packageSize frame).headerSize =
        .ok (some event.header) ↔
      event.header.uid.toNat < 2 ^ 31 ∧ event.header.index.toNat < 2 ^ 31 := by
  obtain ⟨status, body, -, isFrame, -⟩ := yaSerializeEvent_eq_ok serialized
  have range : event.header.InRange := by
    refine ⟨?_, ?_⟩
    · rw [kind]
      have := type.code_lt
      omega
    · rcases directed with request | response
      · simp [request, REQUEST]
      · simp [response, RESPONSE]
  have encoding := serializeEventHeader_encoding event.header
  have short := length_serializeEventHeader_le event.header
  have sizes :=
    packageSize_frame (serializeEventHeader event.header) body []
  have drained := evbufferDrain_frame (serializeEventHeader event.header) body []
  rw [List.append_nil, ← isFrame] at sizes drained
  have size :
      (packageSize frame).headerSize.toNat =
        (serializeEventHeader event.header).length := by
    rw [sizes]
    simp only [frameSize, UInt32.toNat_ofNat']
    omega
  rw [drained]
  constructor
  · intro readsBack
    by_contra outside
    rw [yaParseEventHeader_outOfRange encoding range outside size] at readsBack
    cases readsBack
  · intro representable
    exact yaParseEventHeader_encoding encoding range representable size

/-- A heartbeat of a client. -/
def heartbeatOf (uid : UInt32) : YAEvent Rat where
  header := { type := 0xb, direction := RESPONSE, index := 1, uid }
  param := none
  paramLen := 0

/-- The first client, whose uid is small. -/
theorem serializedHeader_readsBack_iff_first :
    yaParseEventHeader (evbufferDrain [0, 0, 0, 9, 0, 0, 0, 5, 0x94, 1, 0xb, 2, 1] 8)
          (packageSize
            [0, 0, 0, 9, 0, 0, 0, 5, 0x94, 1, 0xb, 2, 1]).headerSize =
        .ok (some (heartbeatOf 1).header) ↔
      (heartbeatOf 1).header.uid.toNat < 2 ^ 31 ∧
        (heartbeatOf 1).header.index.toNat < 2 ^ 31 := by
  have serialized :
      yaSerializeEvent (heartbeatOf 1) =
        .ok {
          length :=
            [(0 : UInt8), 0, 0, 9, 0, 0, 0, 5, 0x94, 1, 0xb, 2, 1].length
          out := some [0, 0, 0, 9, 0, 0, 0, 5, 0x94, 1, 0xb, 2, 1] } := by
    rfl
  have isHeartbeat :
      (heartbeatOf 1).header.type = YAEventType.heartbeat.code := by rfl
  exact serializedHeader_readsBack_iff isHeartbeat (Or.inr rfl) serialized

/-- The uid 2^31 is written but not read. -/
theorem serializedHeader_refused :
    ∃ frame,
      yaSerializeEvent (heartbeatOf 0x80000000) =
          .ok { length := frame.length, out := some frame } ∧
        yaParseEventHeader (evbufferDrain frame 8)
            (packageSize frame).headerSize = .ok none := by
  refine ⟨[0, 0, 0, 13, 0, 0, 0, 9, 0x94, 0xce, 0x80, 0, 0, 0, 0xb, 2, 1], ?_, ?_⟩
  · rfl
  · rfl

end Written

end MouseHero
