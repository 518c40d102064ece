import MouseHero.Event.RoundTrip
import MouseHero.Mpack.Formats
import MouseHero.Server.Datagram

/-!
# The discovery server

The loop of `ya_server_discover.c` on a socket of its own, and the DISCOVER
handler of the command server.  The loop reads the magic number without a look
at the type, from a smaller buffer, and it leaves the port in network order.
-/

namespace MouseHero

open FaultM MessagePack BigEndian

variable {F : Type} [CFloat F]

def REQUEST_BUFFER_SIZE : Nat := 512

/-- `htons` and `ntohs` on a little-endian machine. -/
def swapPort (port : UInt16) : UInt16 :=
  port <<< 8 ||| port >>> 8

/-- The address of an allocation, which suits an object of any type. -/
structure HeapAddress where
  value : UInt64
  aligned : value.toNat % 16 = 0

/-! ## The loop -/

/-- The event of a datagram that is one frame, if `ya_parse_event` accepts
it. -/
def frameEvent (input : List UInt8) : Except Fault (Option (YAEvent F)) :=
  match yaGetPackageSize input with
  | .error reason => .error reason
  | .ok size =>
      if UInt32.ofNat input.length ≠ size.totalSize + 4 then
        .ok none
      else
        match yaParseEvent (evbufferDrain input 8) YAEvent.zero size with
        | .error reason => .error reason
        | .ok parsed =>
            if parsed.status < 0 then .ok none else .ok (some parsed.event)

/-- What `request->magic` reads: the first four bytes of the parameters.  The
structures of texts begin with the low half of a pointer. -/
def YAParam.firstWord (text : HeapAddress) : YAParam F → Except Fault UInt32
  | .common request => .ok request.lparam.toUInt32
  | .keyboard request => .ok request.code.toUInt32
  | .textInput { text := some _ } => .ok text.value.toUInt32
  | .inputGet { text := some _ } => .ok text.value.toUInt32
  | .textInput { text := none } => .ok 0
  | .inputGet { text := none } => .ok 0
  | .authorizeRequest request => .ok request.type
  | .sessionOption request => .ok (CFloat.toSingle request.pointerScale)
  | .discoverRequest request => .ok request.magic
  -- no parser delivers a response
  | .authorizeResponse _ => .error .paramType
  | .discoverResponse _ => .error .paramType

/-- `responseEvent` of `run_loop`. -/
def discoveryResponse (sinPort : UInt16) : YAEvent F where
  header := {
    type := YAEventType.discover.code
    direction := RESPONSE
    index := 0
    uid := 0 }
  param := some (.discoverResponse { magic := DISCOVERY_MAGIC, port := sinPort })
  paramLen := 8

/-- One turn of `run_loop`: the reply to a datagram.  In `svr_context` the port
is in network order. -/
def runLoop (world : World F) (text : HeapAddress) (datagram : List UInt8) :
    Except Fault (Option (List UInt8)) := do
  let received : Option (YAEvent F) ←
    frameEvent (datagram.take REQUEST_BUFFER_SIZE)
  match received with
  | none => return none
  | some requestEvent =>
      match requestEvent.param with
      | none => .error .nullDereference
      | some param =>
          let magic ← param.firstWord text
          if magic ≠ DISCOVERY_MAGIC then
            return none
          else
            let serialized ←
              yaSerializeEvent (F := F)
                (discoveryResponse (swapPort world.sessionPort))
            return serialized.out.map fun rsp =>
              rsp.take (sizeOfInt serialized.length)

/-! ## What the responders have in common -/

/-- The loop answers the datagram with a reply. -/
def LoopAnswers (world : World F) (text : HeapAddress)
    (datagram reply : List UInt8) : Prop :=
  runLoop world text datagram = .ok (some reply)

/-- The command server answers the datagram through `handle_discover`. -/
def CommandAnswers (world : World F) (datagram reply : List UInt8) : Prop :=
  ∃ (event : YAEvent F) (after : World F),
    udpReceive datagram = .ok (some event) ∧
      YAEventType.ofCode? event.header.type = some .discover ∧
      udpReadcb datagram world = (.ok (), after) ∧
      after.sent = reply :: world.sent

/-- The elements of the array in a reply. -/
def readDiscoverResponse : ReaderM UInt32 := do
  let _ ← mpackExpectArray
  let _ ← mpackExpectU32
  mpackExpectU32

/-- The port that a client reads in a reply, behind the sizes and the
header. -/
def advertisedPort (reply : List UInt8) : Option UInt32 :=
  let size := packageSize reply
  let body := reply.drop (8 + size.headerSize.toNat)
  match readDiscoverResponse (fresh body) with
  | (.ok port, reader) => if reader.error = .ok then some port else none
  | (.error _, _) => none

/-- The responders answer the same datagrams, with the session port. -/
def RespondersAgree (world : World F) (text : HeapAddress)
    (datagram : List UInt8) : Prop :=
  ((∃ reply, LoopAnswers world text datagram reply) ↔
      ∃ reply, CommandAnswers world datagram reply) ∧
    ∀ fromLoop fromCommand,
      LoopAnswers world text datagram fromLoop →
      CommandAnswers world datagram fromCommand →
      advertisedPort fromLoop = some world.sessionPort.toUInt32 ∧
        advertisedPort fromCommand = some world.sessionPort.toUInt32

/-- A DISCOVER event with the magic number. -/
def YAEvent.IsDiscovery (event : YAEvent F) : Prop :=
  event.header.type = YAEventType.discover.code ∧
    event.param = some (.discoverRequest { magic := DISCOVERY_MAGIC })

/-- The first number of the parameters is the magic number. -/
def YAEvent.BeginsWithMagic (event : YAEvent F) : Prop :=
  match event.param with
  | some (.common request) => request.lparam.toUInt32 = DISCOVERY_MAGIC
  | some (.keyboard request) => request.code.toUInt32 = DISCOVERY_MAGIC
  | some (.authorizeRequest request) => request.type = DISCOVERY_MAGIC
  | some (.sessionOption request) =>
      CFloat.toSingle request.pointerScale = DISCOVERY_MAGIC
  | some (.discoverRequest request) => request.magic = DISCOVERY_MAGIC
  | _ => False

/-! ## Frames of a datagram -/

private theorem wordAt_take {bytes : List UInt8} {count : Nat} (enough : 4 ≤ count) :
    wordAt (bytes.take count) 0 = wordAt bytes 0 := by
  simp only [wordAt, evbufferCopyout32, List.drop_zero, List.take_take,
    Nat.min_eq_left enough]

theorem udpReceive_eq (datagram : List UInt8) :
    udpReceive (F := F) datagram = frameEvent (datagram.take 2048) :=
  rfl

private theorem frameEvent_length {input : List UInt8} {event : YAEvent F}
    (received : frameEvent input = .ok (some event)) :
    UInt32.ofNat input.length = wordAt input 0 + 4 := by
  unfold frameEvent at received
  split at received
  · cases received
  rename_i size sized
  obtain ⟨-, rfl⟩ := yaGetPackageSize_eq_ok sized
  split at received
  · cases received
  · rename_i whole
    exact not_not.mp whole

/-- Both buffers hold a frame only where both hold the whole datagram. -/
theorem frameEvent_whole {datagram : List UInt8} {event other : YAEvent F}
    (short : frameEvent (datagram.take REQUEST_BUFFER_SIZE) = .ok (some event))
    (long : frameEvent (datagram.take 2048) = .ok (some other)) :
    datagram.length ≤ REQUEST_BUFFER_SIZE := by
  have shortLength := frameEvent_length short
  have longLength := frameEvent_length long
  rw [wordAt_take (by decide)] at shortLength longLength
  have same := congrArg UInt32.toNat (shortLength.trans longLength.symm)
  simp only [UInt32.toNat_ofNat', List.length_take, REQUEST_BUFFER_SIZE] at same ⊢
  omega

theorem take_of_short {datagram : List UInt8}
    (short : datagram.length ≤ REQUEST_BUFFER_SIZE) :
    datagram.take REQUEST_BUFFER_SIZE = datagram.take 2048 := by
  have within : datagram.length ≤ 2048 := short.trans (by decide)
  rw [List.take_of_length_le short, List.take_of_length_le within]

theorem frameEvent_wellTyped {input : List UInt8} {event : YAEvent F}
    (received : frameEvent input = .ok (some event)) : event.WellTyped := by
  unfold frameEvent at received
  split at received
  · cases received
  split at received
  · cases received
  · split at received
    · cases received
    · rename_i parsed returned
      split at received
      · cases received
      · cases received
        exact yaParseEvent_wellTyped returned

/-! ## Replies -/

/-- The body of a discovery response. -/
def discoveryBody (port : UInt16) : List UInt8 :=
  mpackStartArray 2 ++
    (mpackWriteU32 DISCOVERY_MAGIC ++ mpackWriteU32 port.toUInt32)

theorem length_discoveryBody_le (port : UInt16) :
    (discoveryBody port).length ≤ 19 := by
  have magic := (mpackWriteU32_encoding DISCOVERY_MAGIC).length_le
  have number := (mpackWriteU32_encoding port.toUInt32).length_le
  have array : (mpackStartArray 2).length = 1 := rfl
  simp only [discoveryBody, List.length_append]
  omega

/-- The frame of a response with the header. -/
def discoveryFrame (header : YAEventHeader) (port : UInt16) : List UInt8 :=
  frameBytes (serializeEventHeader header) (discoveryBody port)

theorem yaSerializeEvent_discovery {event : YAEvent F} {port : UInt16}
    (kind : event.header.type = YAEventType.discover.code)
    (carried :
      event.param =
        some (.discoverResponse { magic := DISCOVERY_MAGIC, port })) :
    yaSerializeEvent event =
      .ok {
        length := (discoveryFrame event.header port).length
        out := some (discoveryFrame event.header port) } := by
  have written : serializeBody event = .ok (0, discoveryBody port) := by
    rw [serializeBody, kind, carried, discoveryBody, ← List.append_assoc]
    rfl
  have header := length_serializeEventHeader_le event.header
  have body := length_discoveryBody_le port
  have short :
      (frameBytes (serializeEventHeader event.header)
        (discoveryBody port)).length < 2 ^ 31 := by
    rw [length_frameBytes]
    omega
  exact yaSerializeEvent_of_body written short

/-- What is sent of a serialized frame is the whole of it. -/
theorem take_discoveryFrame (header : YAEventHeader) (port : UInt16) :
    (discoveryFrame header port).take
        (sizeOfInt (discoveryFrame header port).length) =
      discoveryFrame header port := by
  have short : (discoveryFrame header port).length ≤ 64 := by
    have front := length_serializeEventHeader_le header
    have body := length_discoveryBody_le port
    rw [discoveryFrame, length_frameBytes]
    omega
  rw [sizeOfInt_of_nonneg (by omega) (by omega), Int.toNat_natCast,
    List.take_length]

private theorem readDiscoverResponse_reads (port : UInt16) :
    Reads readDiscoverResponse port.toUInt32 (discoveryBody port) := by
  refine (mpackExpectArray_header (mpackStartArray_header 2)).bind ?_
  refine (mpackExpectU32_reads (mpackWriteU32_encoding _)).bind ?_
  exact mpackExpectU32_reads (mpackWriteU32_encoding _)

private theorem discoveryFrame_headerSize (header : YAEventHeader) (port : UInt16) :
    (packageSize (discoveryFrame header port)).headerSize.toNat =
      (serializeEventHeader header).length := by
  have short := length_serializeEventHeader_le header
  have sizes :=
    packageSize_frame (serializeEventHeader header) (discoveryBody port) []
  rw [List.append_nil] at sizes
  rw [discoveryFrame, sizes, frameSize, UInt32.toNat_ofNat']
  omega

private theorem discoveryFrame_body (header : YAEventHeader) (port : UInt16) :
    (discoveryFrame header port).drop
        (8 + (serializeEventHeader header).length) =
      discoveryBody port := by
  have drained :=
    evbufferDrain_frame (serializeEventHeader header) (discoveryBody port) []
  rw [List.append_nil, evbufferDrain] at drained
  rw [← List.drop_drop, discoveryFrame, drained, List.append_nil,
    List.drop_left]

/-- A client reads the port that the response was built with. -/
theorem advertisedPort_discoveryFrame (header : YAEventHeader)
    (port : UInt16) :
    advertisedPort (discoveryFrame header port) = some port.toUInt32 := by
  have read := (readDiscoverResponse_reads port).fresh []
  rw [List.append_nil] at read
  have returned :
      readDiscoverResponse
          (fresh ((discoveryFrame header port).drop
            (8 + (packageSize
              (discoveryFrame header port)).headerSize.toNat))) =
        (.ok port.toUInt32, fresh []) := by
    rw [discoveryFrame_headerSize, discoveryFrame_body, read]
  have healthy : (fresh []).error = .ok := rfl
  rw [advertisedPort]
  simp only [returned, healthy, if_true]

/-! ## The loop -/

omit [CFloat F] in
/-- The low half of an address is no magic number, which is odd. -/
theorem HeapAddress.ne_magic (text : HeapAddress) :
    text.value.toUInt32 ≠ DISCOVERY_MAGIC := by
  intro same
  have word := congrArg UInt32.toNat same
  have magic : DISCOVERY_MAGIC.toNat = 0x4B424D43 := rfl
  rw [UInt64.toNat_toUInt32, magic] at word
  have aligned := text.aligned
  omega

/-- The first word is the magic number where a number of the parameters is. -/
theorem firstWord_magic_iff {event : YAEvent F} {param : YAParam F}
    (carried : event.param = some param) (text : HeapAddress) :
    param.firstWord text = .ok DISCOVERY_MAGIC ↔ event.BeginsWithMagic := by
  have other := text.ne_magic
  have nothing : (0 : UInt32) ≠ DISCOVERY_MAGIC := by decide
  rw [YAEvent.BeginsWithMagic, carried]
  cases param with
  | textInput request =>
      obtain ⟨_ | bytes⟩ := request
      · simp [YAParam.firstWord, nothing]
      · simp [YAParam.firstWord, other]
  | inputGet response =>
      obtain ⟨_ | bytes⟩ := response
      · simp [YAParam.firstWord, nothing]
      · simp [YAParam.firstWord, other]
  | _ => simp [YAParam.firstWord]

/-- The header of every reply of the loop. -/
def discoveryHeader : YAEventHeader where
  type := YAEventType.discover.code
  direction := RESPONSE
  index := 0
  uid := 0

/-- The loop answers an event that begins with the magic number, of any
type. -/
theorem loopAnswers_iff (world : World F) (text : HeapAddress)
    (datagram reply : List UInt8) :
    LoopAnswers world text datagram reply ↔
      ∃ event : YAEvent F,
        frameEvent (datagram.take REQUEST_BUFFER_SIZE) = .ok (some event) ∧
          event.BeginsWithMagic ∧
          reply =
            discoveryFrame discoveryHeader (swapPort world.sessionPort) := by
  have serialized :=
    yaSerializeEvent_discovery
      (rfl :
        (discoveryResponse (swapPort world.sessionPort) :
          YAEvent F).header.type = YAEventType.discover.code)
      rfl
  rw [LoopAnswers, runLoop]
  cases received :
      frameEvent (F := F) (datagram.take REQUEST_BUFFER_SIZE) with
  | error reason => simp
  | ok content =>
      cases content with
      | none => simp
      | some event =>
          simp only [except_ok_bind, Except.ok.injEq, Option.some.injEq,
            exists_eq_left']
          cases carried : event.param with
          | none =>
              simp [YAEvent.BeginsWithMagic, carried]
          | some param =>
              rw [← firstWord_magic_iff carried text]
              cases word : param.firstWord text with
              | error reason => simp [word]
              | ok magic =>
                  by_cases isMagic : magic = DISCOVERY_MAGIC
                  · simp only [word, except_ok_bind, isMagic, ne_eq,
                      not_true_eq_false, if_false, serialized, Option.map_some,
                      true_and]
                    rw [take_discoveryFrame]
                    constructor
                    · rintro ⟨same⟩
                      rfl
                    · rintro rfl
                      rfl
                  · simp [word, isMagic]

/-! ## The command server -/

omit [CFloat F] in
theorem validateCommandIndex_discover {event : YAEvent F}
    (kind : event.header.type = YAEventType.discover.code)
    (target : Option ClientId) (world : World F) :
    validateCommandIndex target event world = (.ok true, world) := by
  cases target with
  | none => rfl
  | some client =>
      apply validateCommandIndex_exempt
      rw [kind]
      rintro ⟨-, checked⟩
      cases checked

/-- `udp_readcb` on a DISCOVER event. -/
theorem serveDatagram_discover {event : YAEvent F}
    (kind : event.header.type = YAEventType.discover.code) (world : World F) :
    serveDatagram event world =
      (handleDiscover none event >>= sendResponse)
        (world.logged {
          bev := none
          event
          client := requestClient world event
          executed := true }) := by
  have known : YAEventType.ofCode? event.header.type = some .discover := by
    rw [kind, YAEventType.ofCode?_code]
  have processed :
      processServerEvent none event (requestClient world event) world =
        eventHandler .discover none event
          (world.logged {
            bev := none
            event
            client := requestClient world event
            executed := true }) :=
    processServerEvent_executed known
      (validateCommandIndex_discover kind (requestClient world event) world)
  rw [serveDatagram, bind_of_ok (getState_apply world)]
  simp only [FaultM.bind_apply, processed]
  rfl

/-- A DISCOVER event with the magic number is answered with the port. -/
theorem handleDiscover_answered {event : YAEvent F}
    (kind : event.header.type = YAEventType.discover.code)
    (carried :
      event.param = some (.discoverRequest { magic := DISCOVERY_MAGIC }))
    (world : World F) :
    (handleDiscover none event >>= sendResponse) world =
      (.ok (),
        { world with
          sent :=
            discoveryFrame { event.header with direction := RESPONSE }
              world.sessionPort :: world.sent }) := by
  let response : YAEvent F :=
    assignResponse event
      (some (.discoverResponse
        { magic := DISCOVERY_MAGIC, port := world.sessionPort }))
  have handled :
      handleDiscover none event world = (.ok (some response), world) := by
    rw [handleDiscover, carried]
    rfl
  have isDiscover : response.header.type = YAEventType.discover.code := kind
  have serialized := yaSerializeEvent_discovery isDiscover rfl
  rw [bind_of_ok handled, sendResponse]
  simp only [serialized]
  rw [take_discoveryFrame]
  rfl

theorem handleDiscover_unanswered {event : YAEvent F}
    {request : YADiscoverEventRequest}
    (carried : event.param = some (.discoverRequest request))
    (other : request.magic ≠ DISCOVERY_MAGIC) (world : World F) :
    (handleDiscover none event >>= sendResponse) world = (.ok (), world) := by
  have handled : handleDiscover none event world = (.ok none, world) := by
    rw [handleDiscover, carried]
    simp only [other, ne_eq, not_false_eq_true, if_true]
    rfl
  rw [bind_of_ok handled]
  rfl

theorem commandAnswers_iff (world : World F) (datagram reply : List UInt8) :
    CommandAnswers world datagram reply ↔
      ∃ event : YAEvent F,
        frameEvent (datagram.take 2048) = .ok (some event) ∧
          event.IsDiscovery ∧
          reply =
            discoveryFrame { event.header with direction := RESPONSE }
              world.sessionPort := by
  constructor
  · rintro ⟨event, after, received, known, returned, sent⟩
    have kind := YAEventType.ofCode?_eq_some.mp known
    have typed := udpReceive_wellTyped received
    rw [udpReadcb, received] at returned
    simp only [serveDatagram_discover kind] at returned
    rcases typed.discover known with absent | ⟨request, carried⟩
    · simp only [handleDiscover, absent] at returned
      cases returned
    · by_cases isMagic : request.magic = DISCOVERY_MAGIC
      · obtain ⟨magic⟩ := request
        cases isMagic
        rw [handleDiscover_answered kind carried] at returned
        cases returned
        simp only [List.cons.injEq] at sent
        exact ⟨event, received, ⟨kind, carried⟩, sent.1.symm⟩
      · rw [handleDiscover_unanswered carried isMagic] at returned
        cases returned
        exact absurd sent.symm (List.cons_ne_self reply world.sent)
  · rintro ⟨event, received, ⟨kind, carried⟩, rfl⟩
    have known : YAEventType.ofCode? event.header.type = some .discover := by
      rw [kind, YAEventType.ofCode?_code]
    have called : udpReadcb datagram world = serveDatagram event world := by
      rw [udpReadcb, udpReceive_eq, received]
    have answered :=
      (called.trans (serveDatagram_discover kind world)).trans
        (handleDiscover_answered kind carried _)
    exact ⟨event, _, received, known, answered, rfl⟩

/-! ## Agreement -/

/-- The two bytes of the port are the same. -/
def SymmetricPort (port : UInt16) : Prop :=
  swapPort port = port

instance (port : UInt16) : Decidable (SymmetricPort port) :=
  inferInstanceAs (Decidable (swapPort port = port))

/-- Where the responders agree: a discovery is short and the two bytes of the
port are the same, and a frame in the smaller buffer that begins with the
magic number is the whole of a DISCOVER event. -/
structure AgreementCondition (world : World F) (datagram : List UInt8) :
    Prop where
  discovery : ∀ event : YAEvent F,
    frameEvent (datagram.take 2048) = .ok (some event) → event.IsDiscovery →
      datagram.length ≤ REQUEST_BUFFER_SIZE ∧ SymmetricPort world.sessionPort
  magic : ∀ event : YAEvent F,
    frameEvent (datagram.take REQUEST_BUFFER_SIZE) = .ok (some event) →
    event.BeginsWithMagic →
      datagram.length ≤ REQUEST_BUFFER_SIZE ∧
        event.header.type = YAEventType.discover.code

theorem YAEvent.IsDiscovery.beginsWithMagic {event : YAEvent F}
    (discovery : event.IsDiscovery) : event.BeginsWithMagic := by
  rw [YAEvent.BeginsWithMagic, discovery.2]

theorem YAEvent.BeginsWithMagic.isDiscovery {event : YAEvent F}
    (magic : event.BeginsWithMagic) (typed : event.WellTyped)
    (kind : event.header.type = YAEventType.discover.code) :
    event.IsDiscovery := by
  have known : YAEventType.ofCode? event.header.type = some .discover := by
    rw [kind, YAEventType.ofCode?_code]
  rcases typed.discover known with absent | ⟨⟨number⟩, carried⟩
  · rw [YAEvent.BeginsWithMagic, absent] at magic
    exact magic.elim
  · rw [YAEvent.BeginsWithMagic, carried] at magic
    cases magic
    exact ⟨kind, carried⟩

omit [CFloat F] in
theorem toUInt32_injective {first second : UInt16}
    (same : first.toUInt32 = second.toUInt32) : first = second := by
  have value := congrArg UInt32.toNat same
  rw [UInt16.toNat_toUInt32, UInt16.toNat_toUInt32] at value
  exact UInt16.toNat_inj.mp value

theorem RespondersAgree.condition {world : World F} {text : HeapAddress}
    {datagram : List UInt8} (agree : RespondersAgree world text datagram) :
    AgreementCondition world datagram := by
  obtain ⟨sameAnswers, samePort⟩ := agree
  constructor
  · intro event received discovery
    have answered :=
      (commandAnswers_iff world datagram _).mpr
        ⟨event, received, discovery, rfl⟩
    obtain ⟨reply, fromLoop⟩ := sameAnswers.mpr ⟨_, answered⟩
    have ports := (samePort _ _ fromLoop answered).1
    obtain ⟨other, receivedShort, -, rfl⟩ :=
      (loopAnswers_iff world text datagram reply).mp fromLoop
    rw [advertisedPort_discoveryFrame, Option.some.injEq] at ports
    exact ⟨frameEvent_whole receivedShort received, toUInt32_injective ports⟩
  · intro event received magic
    have fromLoop :=
      (loopAnswers_iff world text datagram _).mpr ⟨event, received, magic, rfl⟩
    obtain ⟨reply, answered⟩ := sameAnswers.mp ⟨_, fromLoop⟩
    obtain ⟨other, receivedLong, discovery, -⟩ :=
      (commandAnswers_iff world datagram reply).mp answered
    have short := frameEvent_whole received receivedLong
    rw [take_of_short short, receivedLong] at received
    cases received
    exact ⟨short, discovery.1⟩

theorem AgreementCondition.sameAnswers {world : World F}
    {datagram : List UInt8} (condition : AgreementCondition world datagram)
    (text : HeapAddress) :
    (∃ reply, LoopAnswers world text datagram reply) ↔
      ∃ reply, CommandAnswers world datagram reply := by
  constructor
  · rintro ⟨reply, fromLoop⟩
    obtain ⟨event, received, magic, -⟩ :=
      (loopAnswers_iff world text datagram reply).mp fromLoop
    obtain ⟨short, kind⟩ := condition.magic event received magic
    have discovery := magic.isDiscovery (frameEvent_wellTyped received) kind
    rw [take_of_short short] at received
    exact ⟨_, (commandAnswers_iff world datagram _).mpr
      ⟨event, received, discovery, rfl⟩⟩
  · rintro ⟨reply, answered⟩
    obtain ⟨event, received, discovery, -⟩ :=
      (commandAnswers_iff world datagram reply).mp answered
    have short := (condition.discovery event received discovery).1
    rw [← take_of_short short] at received
    exact ⟨_, (loopAnswers_iff world text datagram _).mpr
      ⟨event, received, discovery.beginsWithMagic, rfl⟩⟩

/-- The responders agree on a datagram exactly where neither the length, nor
the type, nor the byte order makes a difference. -/
theorem respondersAgree_iff (world : World F) (text : HeapAddress)
    (datagram : List UInt8) :
    RespondersAgree world text datagram ↔
      AgreementCondition world datagram := by
  constructor
  · exact RespondersAgree.condition
  · intro condition
    refine ⟨condition.sameAnswers text, ?_⟩
    intro fromLoop fromCommand loopAnswers answered
    obtain ⟨-, -, -, rfl⟩ :=
      (loopAnswers_iff world text datagram fromLoop).mp loopAnswers
    obtain ⟨event, received, discovery, rfl⟩ :=
      (commandAnswers_iff world datagram fromCommand).mp answered
    have symmetric : swapPort world.sessionPort = world.sessionPort :=
      (condition.discovery event received discovery).2
    rw [symmetric, advertisedPort_discoveryFrame,
      advertisedPort_discoveryFrame]
    exact ⟨rfl, rfl⟩

/-- A DISCOVER request: the two sizes, the header and the magic number. -/
def discoverDatagram : List UInt8 :=
  [0, 0, 0, 14, 0, 0, 0, 5, 0x94, 0, 7, 1, 0, 0xce, 0x4b, 0x42, 0x4d, 0x43]

/-- A MOUSE_MOVE request whose first parameter is the magic number. -/
def magicMoveDatagram : List UInt8 :=
  [0, 0, 0, 16, 0, 0, 0, 5, 0x94, 0, 1, 1, 0, 0x92, 0xce, 0x4b, 0x42, 0x4d,
    0x43, 0]

/-- The loop advertises the port 8080 as 36895, and it answers a movement. -/
theorem responders_disagree :
    ¬ RespondersAgree World.started ⟨16, rfl⟩ discoverDatagram ∧
      ¬ RespondersAgree World.started ⟨16, rfl⟩ magicMoveDatagram := by
  constructor
  · intro agree
    have symmetric := (agree.condition.discovery _ rfl ⟨rfl, rfl⟩).2
    exact absurd symmetric (by decide)
  · intro agree
    have kind := (agree.condition.magic _ rfl rfl).2
    exact absurd kind (by decide)

end MouseHero
